import Manuscript.Decimal.Binary

/-!
How decimal numbers are written: with a point among the digits where the number is neither large
nor small, else with an exponent.
-/

set_option autoImplicit false

namespace Manuscript.Decimal

/-- The range of numbers that are written without an exponent, in powers of ten. -/
structure Layout where
  least : Int
  greatest : Int

namespace Layout

/-- The digits with a point before the last `places` of them. -/
def pointed (digits : List Char) (places : Nat) : List Char :=
  let whole := digits.take (digits.length - places)
  (if whole.isEmpty then ['0'] else whole) ++ '.'
    :: (List.replicate (places - digits.length) '0' ++ digits.drop (digits.length - places))

/-- The digits with a point behind the first, unless it is the only one, and an exponent. -/
def scientific (digits : List Char) (exponent : Int) : List Char :=
  (match digits with
    | [] => []
    | [d] => [d]
    | d :: ds => d :: '.' :: ds) ++ 'e' :: (toString exponent).toList

def write (l : Layout) (d : Decimal) : String :=
  let digits := (toString d.digits).toList
  let top := d.exponent + digits.length
  String.ofList <|
    if top ≤ l.least ∨ l.greatest < top then scientific digits (top - 1)
    else match d.exponent with
      | .ofNat e => digits ++ List.replicate e '0' ++ ['.', '0']
      | .negSucc e => pointed digits (e + 1)

end Layout

end Manuscript.Decimal
