/-!
# Positions in a source text

A position is what the text in front of it makes it: the line is one more than the line feeds
passed, the column one more than the characters since the last of them, the offset the bytes in
UTF-8. So positions are moved by characters (`advance`) and never set.

`line_advance`, `offset_advance` and `column_advance` give the three numbers in closed form.
-/

namespace Folio

structure Position where
  line : Nat := 1
  column : Nat := 1
  offset : Nat := 0
  deriving DecidableEq, Repr, Inhabited

namespace Position

/-- The position in front of a text. -/
def start : Position := ⟨1, 1, 0⟩

/-- The position behind one more character. -/
def step (p : Position) (c : Char) : Position :=
  if c = '\n' then ⟨p.line + 1, 1, p.offset + c.utf8Size⟩
  else ⟨p.line, p.column + 1, p.offset + c.utf8Size⟩

/-- The position behind a text that begins at `p`. -/
def advance (p : Position) (cs : List Char) : Position := cs.foldl step p

@[simp] theorem advance_nil (p : Position) : p.advance [] = p := rfl

@[simp] theorem advance_cons (p : Position) (c : Char) (cs : List Char) :
    p.advance (c :: cs) = (p.step c).advance cs := rfl

theorem advance_append (p : Position) (as bs : List Char) :
    p.advance (as ++ bs) = (p.advance as).advance bs := List.foldl_append

/-- The line grows by the line feeds passed. -/
theorem line_advance (p : Position) (cs : List Char) :
    (p.advance cs).line = p.line + cs.count '\n' := by
  induction cs generalizing p with
  | nil => simp
  | cons c cs ih =>
    rw [advance_cons, ih, List.count_cons]
    by_cases h : c = '\n' <;> simp [step, h, Nat.add_right_comm, Nat.add_assoc]

/-- The offset grows by the bytes passed. -/
theorem offset_advance (p : Position) (cs : List Char) :
    (p.advance cs).offset = p.offset + (String.ofList cs).utf8ByteSize := by
  induction cs generalizing p with
  | nil => simp
  | cons c cs ih =>
    rw [advance_cons, ih, String.ofList_cons, String.utf8ByteSize_append,
      String.utf8ByteSize_singleton]
    by_cases h : c = '\n' <;> simp only [step, h, if_true, if_false] <;> omega

/-- Behind a line feed the column counts the characters since. -/
theorem column_advance (p : Position) (as bs : List Char) (h : '\n' ∉ bs) :
    (p.advance (as ++ '\n' :: bs)).column = 1 + bs.length := by
  have key : ∀ (q : Position) (bs : List Char), '\n' ∉ bs →
      (q.advance bs).column = q.column + bs.length := by
    intro q bs
    induction bs generalizing q with
    | nil => simp
    | cons c bs ih =>
      intro h
      simp only [List.mem_cons, not_or] at h
      rw [advance_cons, ih _ h.2]
      simp [step, Ne.symm h.1]
      omega
  rw [advance_append, advance_cons, key _ _ h]
  simp [step]

example : start.advance ['a', '\n', 'é', 'b'] = ⟨2, 3, 5⟩ := by decide

end Position

end Folio
