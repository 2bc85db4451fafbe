/-!
# UTF-8

Bytes are decoded one at a time. A run of bytes that begins a character and does not complete it
is one fault, and so is every byte that can begin no character (`decode`). A text is the bytes
without a fault (`ofUtf8?`).
-/

namespace Folio.Text

/-- A character of which some bytes are still to come. -/
structure Unfinished where
  /-- The bytes to come. -/
  left : Nat
  /-- The bounds of the next byte. -/
  low : UInt8
  high : UInt8
  /-- The bits so far. -/
  bits : Nat
  deriving DecidableEq, Repr

/-- What is complete, and what is not. -/
abbrev Decoded := List (Option Char) × Option Unfinished

/-- The first byte of a character. -/
def firstByte (b : UInt8) : Decoded :=
  if b < 0x80 then ([some (Char.ofNat b.toNat)], none)
  else if 0xC2 ≤ b ∧ b ≤ 0xDF then ([], some ⟨1, 0x80, 0xBF, b.toNat - 0xC0⟩)
  else if b = 0xE0 then ([], some ⟨2, 0xA0, 0xBF, 0⟩)
  else if b = 0xED then ([], some ⟨2, 0x80, 0x9F, 0x0D⟩)
  else if 0xE1 ≤ b ∧ b ≤ 0xEF then ([], some ⟨2, 0x80, 0xBF, b.toNat - 0xE0⟩)
  else if b = 0xF0 then ([], some ⟨3, 0x90, 0xBF, 0⟩)
  else if 0xF1 ≤ b ∧ b ≤ 0xF3 then ([], some ⟨3, 0x80, 0xBF, b.toNat - 0xF0⟩)
  else if b = 0xF4 then ([], some ⟨3, 0x80, 0x8F, 4⟩)
  else ([none], none)

/-- A byte behind the first of a character. A byte that does not fit begins the next one. -/
def nextByte (u : Unfinished) (b : UInt8) : Decoded :=
  let bits := 64 * u.bits + (b.toNat - 0x80)
  if b < u.low ∨ u.high < b then
    let (done, rest) := firstByte b
    (none :: done, rest)
  else if u.left = 1 then ([some (Char.ofNat bits)], none)
  else ([], some ⟨u.left - 1, 0x80, 0xBF, bits⟩)

/-- The characters of bytes behind an unfinished one; a fault is none. -/
def decodeFrom : Option Unfinished → List UInt8 → List (Option Char)
  | none, [] => []
  | some _, [] => [none]
  | none, b :: bs => (firstByte b).1 ++ decodeFrom (firstByte b).2 bs
  | some u, b :: bs => (nextByte u b).1 ++ decodeFrom (nextByte u b).2 bs

def decode (bytes : List UInt8) : List (Option Char) := decodeFrom none bytes

/-- The text of the bytes, if they have no fault. -/
def ofUtf8? (bytes : List UInt8) : Option String :=
  let cs := decode bytes
  if cs.all Option.isSome then some (String.ofList (cs.filterMap id)) else none

example : ofUtf8? [0x61, 0xC3, 0xA9, 0xF0, 0x9F, 0x98, 0x80] = some "aé😀" := by decide +kernel
example : ofUtf8? [0xED, 0xA0, 0x80] = none := by decide +kernel

end Folio.Text
