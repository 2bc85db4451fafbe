import Folio.Decimal.Double

/-!
# What a plain YAML scalar reads as

A text that is written without quotes must not be one that a reader takes for null, a truth
value or a number. These are the texts that are taken for something else (`isAmbiguous`); a
number with needless zeros in front is avoided too, since readers differ about it.
-/

namespace Folio.Data.Yaml

def isNull (s : String) : Bool := s ∈ ["", "null", "Null", "NULL", "~"]

def isTruthValue (s : String) : Bool :=
  s ∈ ["true", "True", "TRUE", "false", "False", "FALSE"]

/-- The value of a character as a digit of at most base 16. -/
def digit? (base : Nat) (c : Char) : Option Nat :=
  let n :=
    if c.isDigit then some (c.toNat - '0'.toNat)
    else if 'a' ≤ c ∧ c ≤ 'f' then some (c.toNat - 'a'.toNat + 10)
    else if 'A' ≤ c ∧ c ≤ 'F' then some (c.toNat - 'A'.toNat + 10)
    else none
  n.filter (· < base)

/-- The value of a run of digits. -/
def natural? (base : Nat) (cs : List Char) : Option Nat :=
  if cs.isEmpty then none
  else cs.foldl (fun n c => n.bind fun n => (digit? base c).map (base * n + ·)) (some 0)

/-- The base that a number is marked with, and its digits. -/
def marked? : List Char → Option (Nat × List Char)
  | '0' :: 'x' :: cs => some (16, cs)
  | '0' :: 'o' :: cs => some (8, cs)
  | '0' :: 'b' :: cs => some (2, cs)
  | _ => none

/-- The text without a plus sign in front. -/
def dropPlus : List Char → List Char
  | '+' :: cs => cs
  | cs => cs

/-- Digits that begin with a needless zero, with any sign. -/
def isPadded (cs : List Char) : Bool :=
  let digits := match cs with
    | '+' :: ds | '-' :: ds => ds
    | ds => ds
  match digits with
  | '0' :: d :: ds => (d :: ds).all Char.isDigit
  | _ => false

/-- A number in digits of a marked base. -/
def isMarkedNumber (cs : List Char) : Bool :=
  let below (limit : Nat) : Option (Nat × List Char) → Bool
    | some (base, digits) => (natural? base digits).any (· ≤ limit)
    | none => false
  below ((1 <<< 128) - 1) (marked? (dropPlus cs)) ||
    match cs with
    | '-' :: ds => below (1 <<< 127) (marked? ds)
    | _ => false

/-- A number in decimal digits. -/
def isDecimalNumber (cs : List Char) : Bool :=
  !isPadded cs &&
    match cs with
    | '-' :: ds => (natural? 10 ds).any (· ≤ 1 <<< 127)
    | ds => (natural? 10 (dropPlus ds)).any (· < 1 <<< 128)

/-- An integer of at most 128 bits. -/
def isInteger (cs : List Char) : Bool := isMarkedNumber cs || isDecimalNumber cs

/-- A number that is no integer, or one of the names of the values that are no numbers. -/
def isReal (cs : List Char) : Bool :=
  let unmarked := dropPlus cs
  String.ofList unmarked ∈ [".inf", ".Inf", ".INF"] ||
    String.ofList cs ∈ ["-.inf", "-.Inf", "-.INF", ".nan", ".NaN", ".NAN"] ||
    !isPadded cs && !(unmarked.length < cs.length && unmarked.head?.any (· ∈ ['+', '-'])) &&
      (Decimal.read? unmarked).any fun d => (Double.ofDecimal d).isFinite

/-- A text that must be quoted to be read as a text. -/
def isAmbiguous (s : String) : Bool :=
  isNull s || isTruthValue s || isInteger s.toList || isReal s.toList || isPadded s.toList

example : isAmbiguous "0x1F" ∧ isAmbiguous "-7" ∧ isAmbiguous "007" ∧ isAmbiguous "1e3" := by
  decide +kernel
example : ¬ isAmbiguous "yes" ∧ ¬ isAmbiguous "1e999" ∧ ¬ isAmbiguous "0xg" := by
  decide +kernel

end Folio.Data.Yaml
