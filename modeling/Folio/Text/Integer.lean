import Folio.Text.Blank

/-!
# Integers in decimal notation

The value of a run of decimal digits, and the signed numbers of 64 bits that a text may denote:
blanks around it are allowed, then an optional sign, then digits only. A number that does not
fit into 64 bits is no number.
-/

namespace Folio.Text

/-- The value of a run of decimal digits. -/
def decimal (cs : List Char) : Nat := cs.foldl (fun n c => 10 * n + (c.toNat - '0'.toNat)) 0

/-- The greatest signed number of 64 bits. -/
def maxInt64 : Int := 9223372036854775807

def isInt64 (v : Int) : Bool := -maxInt64 - 1 ≤ v && v ≤ maxInt64

/-- The value of a text of one or more digits. -/
def natural? (cs : List Char) : Option Nat :=
  if cs ≠ [] ∧ cs.all Char.isDigit then some (decimal cs) else none

/-- The value of digits behind an optional sign. -/
def signed? : List Char → Option Int
  | '+' :: cs => (natural? cs).map fun n => (n : Int)
  | '-' :: cs => (natural? cs).map fun n => -(n : Int)
  | cs => (natural? cs).map fun n => (n : Int)

/-- The number of 64 bits that a text denotes, blanks around it aside. -/
def int64? (s : String) : Option Int := (signed? (trim s.toList)).filter isInt64

example : int64? " -07\n" = some (-7) := by decide
example : int64? "9223372036854775808" = none := by decide
example : int64? "-9223372036854775808" = some (-9223372036854775808) := by decide
example : int64? "1_0" = none ∧ int64? "" = none ∧ int64? "+" = none := by decide

end Folio.Text
