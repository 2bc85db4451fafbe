import Folio.Text.Integer

/-!
# Decimal numbers

A number written with digits, a point and an exponent stands for `digits * 10 ^ exponent`, with a
sign. `Decimal.read?` reads the common notation: at least one digit, before or behind the point,
and after `e` or `E` an exponent with an optional sign.
-/

namespace Folio

/-- The number `± digits * 10 ^ exponent`. -/
structure Decimal where
  negative : Bool
  digits : Nat
  exponent : Int
  deriving DecidableEq, Repr

namespace Decimal

/-- The exponent at the end of a number. -/
def exponent? : List Char → Option Int
  | [] => some 0
  | c :: cs => if c = 'e' ∨ c = 'E' then Text.signed? cs else none

/-- The digits of a number without a sign, before and behind the point, and what follows. -/
def parts (cs : List Char) : List Char × List Char × List Char :=
  let whole := cs.takeWhile Char.isDigit
  match cs.dropWhile Char.isDigit with
  | '.' :: rest => (whole, rest.takeWhile Char.isDigit, rest.dropWhile Char.isDigit)
  | rest => (whole, [], rest)

/-- A number without a sign. -/
def unsigned? (negative : Bool) (cs : List Char) : Option Decimal :=
  let (whole, fraction, rest) := parts cs
  if whole.isEmpty && fraction.isEmpty then none
  else (exponent? rest).map fun e =>
    ⟨negative, Text.decimal (whole ++ fraction), e - fraction.length⟩

/-- The number that a text denotes, with a sign of either kind or none. -/
def read? : List Char → Option Decimal
  | '+' :: cs => unsigned? false cs
  | '-' :: cs => unsigned? true cs
  | cs => unsigned? false cs

example : read? "-12.50e3".toList = some ⟨true, 1250, 1⟩ := by decide
example : read? "1.".toList = some ⟨false, 1, 0⟩ ∧ read? ".5".toList = some ⟨false, 5, -1⟩ := by
  decide
example : read? ".".toList = none ∧ read? "e5".toList = none ∧ read? "1e".toList = none := by
  decide

end Decimal

end Folio
