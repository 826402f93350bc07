import Manuscript.Text.Blank

/-!
The symbols of formulas and the LaTeX commands that stand for them.
-/

set_option autoImplicit false

namespace Manuscript.Formula

def greek : List (Char × String) :=
  [('α', "\\alpha"), ('β', "\\beta"), ('γ', "\\gamma"), ('δ', "\\delta"), ('ε', "\\epsilon"),
    ('ζ', "\\zeta"), ('η', "\\eta"), ('θ', "\\theta"), ('ι', "\\iota"), ('κ', "\\kappa"),
    ('λ', "\\lambda"), ('μ', "\\mu"), ('ν', "\\nu"), ('ξ', "\\xi"), ('π', "\\pi"), ('ρ', "\\rho"),
    ('σ', "\\sigma"), ('τ', "\\tau"), ('υ', "\\upsilon"), ('φ', "\\phi"), ('χ', "\\chi"),
    ('ψ', "\\psi"), ('ω', "\\omega"), ('Γ', "\\Gamma"), ('Δ', "\\Delta"), ('Θ', "\\Theta"),
    ('Λ', "\\Lambda"), ('Ξ', "\\Xi"), ('Π', "\\Pi"), ('Σ', "\\Sigma"), ('Φ', "\\Phi"),
    ('Ψ', "\\Psi"), ('Ω', "\\Omega")]

def operators : List (String × String) :=
  [("×", "\\times"), ("·", "\\cdot"), ("⋅", "\\cdot"), ("±", "\\pm"), ("∓", "\\mp"), ("−", "-"),
    ("≤", "\\leq"), ("≥", "\\geq"), ("≠", "\\neq"), ("≈", "\\approx"), ("∼", "\\sim"),
    ("≡", "\\equiv"), ("∝", "\\propto"), ("∞", "\\infty"), ("→", "\\rightarrow"),
    ("←", "\\leftarrow"), ("⇒", "\\Rightarrow"), ("↔", "\\leftrightarrow"), ("∈", "\\in"),
    ("∉", "\\notin"), ("⊂", "\\subset"), ("∪", "\\cup"), ("∩", "\\cap"), ("∂", "\\partial"),
    ("∇", "\\nabla"), ("∑", "\\sum"), ("∏", "\\prod"), ("∫", "\\int"), ("…", "\\ldots"),
    ("⋯", "\\cdots"), ("°", "^\x7b\\circ\x7d"), ("\x7b", "\\\x7b"), ("\x7d", "\\\x7d"),
    ("%", "\\%"), ("&", "\\&"), ("#", "\\#")]

def functions : List String :=
  ["sin", "cos", "tan", "log", "ln", "exp", "min", "max", "lim", "det", "sup", "inf"]

def accents : List (String × String) :=
  [("¯", "\\overline"), ("‾", "\\overline"), ("^", "\\hat"), ("ˆ", "\\hat"), ("~", "\\tilde"),
    ("˜", "\\tilde"), ("→", "\\vec"), ("˙", "\\dot"), ("¨", "\\ddot")]

/-- A character, a Greek letter as its command with a blank behind it. -/
def letter (c : Char) : List Char :=
  match greek.lookup c with
  | some command => command.toList ++ [' ']
  | none => [c]

/-- A text that is one operator, or else its characters one by one. -/
def symbol (s : String) : String :=
  match operators.lookup s with
  | some command => command
  | none => String.ofList (Text.dropEndWhile Text.isBlank (s.toList.flatMap letter))

/-- A delimiter that grows with what it encloses; a full stop stands for none. -/
def fence (s : String) : String :=
  if s = "" then "."
  else if s = "\x7b" then "\\\x7b"
  else if s = "\x7d" then "\\\x7d"
  else if s = "‖" then "\\|"
  else s

end Manuscript.Formula
