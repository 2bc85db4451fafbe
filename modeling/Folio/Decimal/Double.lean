import Folio.Decimal

/-!
# Doubles

The binary numbers of 64 bits: `± mantissa * 2 ^ exponent` with a mantissa of at most 53 bits and
an exponent of at least `-1074`, two infinities, and a value that is no number.

**Rounding** (`Double.ofDecimal`). A decimal number becomes the nearest double, a tie the one
with the even mantissa. A number too great for every double becomes infinite.

**Shortest text** (`Double.display`). Of the decimals with the fewest digits that round back to a
double, the nearest one, without an exponent.
-/

namespace Folio

inductive Double where
  | finite (negative : Bool) (mantissa : Nat) (exponent : Int)
  | infinite (negative : Bool)
  | notANumber
  deriving DecidableEq, Repr

namespace Double

/-! ## Rounding -/

/-- The quotient rounded to the nearest whole number, a tie to the even one. -/
def roundDiv (num den : Nat) : Nat :=
  let q := num / den
  let twice := 2 * (num % den)
  if twice < den then q
  else if twice > den then q + 1
  else if q % 2 = 0 then q else q + 1

/-- A power of ten. -/
def tenTo (n : Nat) : Nat := Nat.pow 10 n

/-- The number of binary digits. -/
def bitLength (n : Nat) : Nat := if n = 0 then 0 else n.log2 + 1

/-- The quotient of two whole numbers as a double. -/
def ofQuotient (negative : Bool) (num den : Nat) : Double :=
  -- The quotient is below `2 ^ (e + 53)` and not much below `2 ^ (e + 52)`.
  let e₀ : Int := (bitLength num : Int) - (bitLength den : Int) - 53
  let scaled (e : Int) : Nat :=
    if e ≥ 0 then roundDiv num (den <<< e.toNat) else roundDiv (num <<< (-e).toNat) den
  let e := max (-1074) (if scaled e₀ < 1 <<< 53 then e₀ else e₀ + 1)
  let m := scaled e
  -- Rounding up may carry into one more binary digit.
  let (m, e) := if m = 1 <<< 53 then (1 <<< 52, e + 1) else (m, e)
  if e > 971 then infinite negative else finite negative m e

/-- The nearest double of a decimal number. -/
def ofDecimal (d : Decimal) : Double :=
  -- The position of the first digit settles the numbers far outside the range.
  let place : Int := (toString d.digits).length + d.exponent
  if d.digits = 0 ∨ place < -330 then finite d.negative 0 (-1074)
  else if place > 320 then infinite d.negative
  else if d.exponent ≥ 0 then ofQuotient d.negative (d.digits * tenTo d.exponent.toNat) 1
  else ofQuotient d.negative d.digits (tenTo (-d.exponent).toNat)

def isFinite : Double → Bool
  | finite _ _ _ => true
  | infinite _ | notANumber => false

/-! ## Shortest text -/

/-- The number `m * 2 ^ e` in units of `10 ^ p`, as a quotient. -/
def inUnits (m : Nat) (e p : Int) : Nat × Nat :=
  ((m <<< e.toNat) * tenTo (-p).toNat, tenTo p.toNat <<< (-e).toNat)

/-- The multiple of `10 ^ p` next to `m * 2 ^ e` that rounds to it, if there is one; of two the
nearer, of two as near the greater. -/
def multiple? (m : Nat) (e p : Int) : Option Decimal :=
  let (num, den) := inUnits m e p
  let low := num / den
  let near := if 2 * (num % den) < den then [low, low + 1] else [low + 1, low]
  (near.map fun d => Decimal.mk false d p).find? fun d => ofDecimal d = finite false m e

/-- The decimal with the fewest digits that rounds to `m * 2 ^ e`; 17 digits are always enough. -/
def shortest (m : Nat) (e : Int) : Decimal :=
  let (num, den) := inUnits m e 0
  let place : Int := ((toString num).length : Int) - (toString den).length
  ((List.range 20).findSome? fun (i : Nat) => multiple? m e (place - i)).getD ⟨false, 0, 0⟩

/-- Digits with a point in front of the last `places`, without a fraction of zeros. -/
def positional (digits places : Nat) : List Char :=
  let ds := (toString digits).toList
  let padded := List.replicate (places + 1 - ds.length) '0' ++ ds
  let fraction := padded.drop (padded.length - places)
  let shown := (fraction.reverse.dropWhile (· = '0')).reverse
  padded.take (padded.length - places) ++ if shown.isEmpty then [] else '.' :: shown

/-- The sign of a number that may have one. -/
def sign (negative : Bool) : List Char := if negative then ['-'] else []

/-- The shortest decimal that rounds to the double, without an exponent. -/
def display : Double → String
  | finite negative m e =>
    let d := if m = 0 then ⟨false, 0, 0⟩ else shortest m e
    String.ofList (sign negative ++ positional (d.digits * tenTo d.exponent.toNat)
      (-d.exponent).toNat)
  | infinite negative => String.ofList (sign negative ++ ['i', 'n', 'f'])
  | notANumber => "NaN"

/-! ## Whole numbers -/

/-- The greatest number that 64 bits hold. -/
def greatest : UInt64 := 0xFFFFFFFFFFFFFFFF

/-- The whole number nearest to a double, a half going away from zero; a number below zero and no
number count as zero, a number that 64 bits cannot hold as the greatest of them. -/
def toWord64 : Double → UInt64
  | finite true _ _ | infinite true | notANumber => 0
  | infinite false => greatest
  | finite false m e =>
    let one := 1 <<< (-e).toNat
    let n := if e ≥ 0 then m <<< e.toNat else (2 * m + one) / (2 * one)
    UInt64.ofNat (min n greatest.toNat)

example : (ofDecimal ⟨false, 25, -1⟩).toWord64 = 3 := by decide +kernel
example : (ofDecimal ⟨false, 1, -1⟩).display = "0.1" := by decide +kernel
example : (ofDecimal ⟨true, 10, -1⟩).display = "-1" := by decide +kernel
example : (ofDecimal ⟨false, 1, 23⟩).display = "100000000000000000000000" := by decide +kernel
example : (ofDecimal ⟨false, 1, -5⟩).display = "0.00001" := by decide +kernel
example : ofDecimal ⟨false, 1, 309⟩ = infinite false := by decide +kernel
example : ofDecimal ⟨false, 17976931348623157, 292⟩ = finite false 0x1FFFFFFFFFFFFF 971 := by
  decide +kernel

end Double

end Folio
