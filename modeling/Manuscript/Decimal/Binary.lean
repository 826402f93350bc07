/-!
Numbers with a significand of 53 binary places: the one nearest to a fraction, and the fewest
decimal digits that are read back as it.
-/

set_option autoImplicit false

namespace Manuscript

structure Decimal where
  digits : Nat
  exponent : Int
  deriving DecidableEq

namespace Decimal

structure Binary where
  significand : Nat
  exponent : Int
  deriving DecidableEq

structure Fraction where
  num : Nat
  den : Nat

def Fraction.ofPower (n base : Nat) (exponent : Int) : Fraction :=
  match exponent with
  | .ofNat e => ⟨n * base.pow e, 1⟩
  | .negSucc e => ⟨n, base.pow (e + 1)⟩

def toFraction (d : Decimal) : Fraction := .ofPower d.digits 10 d.exponent

def Binary.toFraction (b : Binary) : Fraction := .ofPower b.significand 2 b.exponent

namespace Fraction

def scale (f : Fraction) (base : Nat) (exponent : Int) : Fraction :=
  let g := ofPower 1 base exponent
  ⟨f.num * g.num, f.den * g.den⟩

def lt (f g : Fraction) : Bool := f.num * g.den < g.num * f.den

def le (f g : Fraction) : Bool := f.num * g.den ≤ g.num * f.den

/-- The natural number nearest to a fraction; of two the even one. -/
def round (f : Fraction) : Nat :=
  let q := f.num / f.den
  let r := f.num % f.den
  if 2 * r < f.den then q
  else if f.den < 2 * r then q + 1
  else q + q % 2

theorem round_near (f : Fraction) (pos : 0 < f.den) :
    2 * f.num ≤ 2 * (f.round * f.den) + f.den ∧ 2 * (f.round * f.den) ≤ 2 * f.num + f.den := by
  obtain ⟨n, d⟩ := f
  have split : n = d * (n / d) + n % d := (Nat.div_add_mod n d).symm
  have small : n % d < d := Nat.mod_lt n pos
  have next : (n / d + 1) * d = d * (n / d) + d := by
    rw [Nat.add_mul, Nat.one_mul, Nat.mul_comm]
  have same : n / d * d = d * (n / d) := Nat.mul_comm ..
  have same' : (n / d + 0) * d = d * (n / d) := Nat.mul_comm ..
  simp only [round]
  split
  · omega
  · split
    · omega
    · rcases Nat.mod_two_eq_zero_or_one (n / d) with h | h <;> rw [h] <;> omega

end Fraction

/-- The greatest exponent of a significand of 53 places. -/
def maxExponent : Int := 971

/-- The least exponent, that of the numbers next to zero. -/
def minExponent : Int := -1074

/-- The binary number nearest to a positive fraction, unless it is too large for one. -/
def Binary.nearest? (f : Fraction) : Option Binary :=
  let places : Int := (f.num.log2 : Int) - f.den.log2 - 53
  let exponent := max places minExponent
  let fine := (f.scale 2 (-exponent)).round
  let b : Binary :=
    if fine < 1 <<< 53 then ⟨fine, exponent⟩
    else
      let coarse := (f.scale 2 (-(exponent + 1))).round
      if coarse < 1 <<< 53 then ⟨coarse, exponent + 1⟩ else ⟨1 <<< 52, exponent + 2⟩
  if maxExponent < b.exponent then none else some b

/-- The fractions halfway to the neighbours of a binary number. -/
def Binary.interval (b : Binary) : Fraction × Fraction :=
  let below := if b.significand = 1 <<< 52 ∧ minExponent < b.exponent then 1 else 2
  (.ofPower (4 * b.significand - below) 2 (b.exponent - 2),
    .ofPower (4 * b.significand + 2) 2 (b.exponent - 2))

/-- Whether a decimal number is read back as a binary one. -/
def Binary.reads (b : Binary) (d : Decimal) : Bool :=
  let (low, high) := b.interval
  let f := d.toFraction
  if b.significand % 2 = 0 then low.le f && f.le high else low.lt f && f.lt high

/-- The number of decimal places that a fraction below one has to be moved by to reach one, but no
more than `limit`. -/
def leadingZeros (f : Fraction) : Nat → Nat
  | 0 => 0
  | limit + 1 => if f.den ≤ f.num then 0 else leadingZeros ⟨f.num * 10, f.den⟩ limit + 1

def leadingExponent (f : Fraction) : Int :=
  if f.den ≤ f.num then ((toString (f.num / f.den)).length : Int) - 1
  else -(leadingZeros f 400 : Int)

/-- Without zeros at the end. The digits lose one place for every unit of `places` at most. -/
def trimmed (d : Decimal) : Nat → Decimal
  | 0 => d
  | places + 1 =>
    if d.digits ≠ 0 ∧ d.digits % 10 = 0 then
      trimmed ⟨d.digits / 10, d.exponent + 1⟩ places
    else d

/-- The decimal number on the grid of an exponent that is nearest to `b` of those that are read
back as it. -/
def Binary.onGrid? (b : Binary) (exponent : Int) : Option Decimal :=
  let f := b.toFraction.scale 10 (-exponent)
  let below := f.num / f.den
  let candidates := [f.round, below, below + 1].map fun digits => Decimal.mk digits exponent
  candidates.find? b.reads

/-- The decimal number with the fewest digits that is read back as `b`; `count` is the number of
digits tried first. -/
def Binary.shortestFrom (b : Binary) (leading : Int) (count : Nat) : Nat → Decimal
  | 0 => ⟨b.significand, b.exponent⟩
  | more + 1 =>
    match b.onGrid? (leading - count + 1) with
    | some d => d.trimmed 20
    | none => b.shortestFrom leading (count + 1) more

/-- The decimal number with the fewest digits that is read back as a positive binary number, and of
those the nearest. Seventeen digits are always enough. -/
def Binary.shortest (b : Binary) : Decimal :=
  b.shortestFrom (leadingExponent b.toFraction) 1 17

end Decimal

end Manuscript
