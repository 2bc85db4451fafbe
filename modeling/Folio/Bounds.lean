/-!
# Bounds

A closed range of numbers of 32 bits. A value to be checked against it may be any integer.
-/

namespace Folio

structure Bounds where
  min : UInt32
  max : UInt32
  deriving DecidableEq, Repr

namespace Bounds

def contains (b : Bounds) (v : Int) : Bool :=
  decide ((b.min.toNat : Int) ≤ v) && decide (v ≤ (b.max.toNat : Int))

theorem contains_iff {b : Bounds} {v : Int} :
    b.contains v ↔ (b.min.toNat : Int) ≤ v ∧ v ≤ (b.max.toNat : Int) := by
  simp [contains]

/-- A value inside the bounds is a number of 32 bits. -/
theorem toNat_ofInt_of_contains {b : Bounds} {v : Int} (h : b.contains v) :
    ((UInt32.ofNat v.toNat).toNat : Int) = v := by
  have ⟨h₁, h₂⟩ := contains_iff.1 h
  have := b.max.toNat_lt
  have hv : v.toNat < 2 ^ 32 := by omega
  rw [UInt32.toNat_ofNat_of_lt' (by simpa using hv)]
  omega

/-- The bounds as written in messages. -/
def display (b : Bounds) : String :=
  "[" ++ toString b.min.toNat ++ ", " ++ toString b.max.toNat ++ "]"

example : (Bounds.mk 6 72).contains 6 ∧ ¬ (Bounds.mk 6 72).contains (-1) := by decide

end Bounds

end Folio
