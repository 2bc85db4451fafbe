import Folio.Instruction.Arguments
import Folio.Proofs.Scanning

/-!
# The numbers that arguments denote

**Denotation** (`Literal.Denotes`). A number denotes itself. A text denotes a number if it is one
or more decimal digits behind an optional sign, with blanks around it. The number may be of any
size.

**Theorem (`int64?_eq_some_iff`).** What is read from a text is the number that it denotes, if that
has 64 bits. A text made of blanks, a signed number and blanks is trimmed to the number, because
no character of a number is blank.
-/

namespace Folio

namespace Text

/-- One or more decimal digits. -/
def IsDigits (cs : List Char) : Prop := cs ≠ [] ∧ ∀ c ∈ cs, c.isDigit

instance (cs : List Char) : Decidable (IsDigits cs) :=
  decidable_of_iff (cs ≠ [] ∧ cs.all Char.isDigit) (and_congr_right' List.all_eq_true)

/-- Digits behind an optional sign, and their value. -/
inductive Signed : List Char → Int → Prop
  | plain {ds : List Char} : IsDigits ds → Signed ds (decimal ds)
  | plus {ds : List Char} : IsDigits ds → Signed ('+' :: ds) (decimal ds)
  | minus {ds : List Char} : IsDigits ds → Signed ('-' :: ds) (-decimal ds)

/-- The text is a number with an optional sign, and blanks around it. -/
def Numeral (cs : List Char) (v : Int) : Prop :=
  ∃ front core back, cs = front ++ core ++ back ∧ (∀ c ∈ front, isBlank c) ∧
    (∀ c ∈ back, isBlank c) ∧ Signed core v

/-! ## Blanks around a text -/

theorem dropBlanks_append {front cs : List Char} (hfront : ∀ c ∈ front, isBlank c)
    (hcs : ∀ c ∈ cs.head?, isBlank c = false) : dropBlanks (front ++ cs) = cs := by
  rw [dropBlanks, List.dropWhile_append_of_pos hfront]
  cases cs with
  | nil => rfl
  | cons c cs => exact List.dropWhile_cons_of_neg (by simp [hcs c rfl])

theorem trim_append {front core back : List Char} (hfront : ∀ c ∈ front, isBlank c)
    (hback : ∀ c ∈ back, isBlank c) (hne : core ≠ []) (hcore : ∀ c ∈ core, isBlank c = false) :
    trim (front ++ core ++ back) = core := by
  have hhead : ∀ c ∈ (core ++ back).head?, isBlank c = false := by
    intro c hc
    rw [List.head?_append, Option.or_of_isSome (List.isSome_head?.2 hne)] at hc
    exact hcore c (List.mem_of_mem_head? hc)
  have hlast : ∀ c ∈ core.reverse.head?, isBlank c = false := fun c hc =>
    hcore c (List.mem_reverse.1 (List.mem_of_mem_head? hc))
  have hback : ∀ c ∈ back.reverse, isBlank c := fun c hc => hback c (List.mem_reverse.1 hc)
  rw [trim, List.append_assoc, dropBlanks_append hfront hhead, List.reverse_append,
    dropBlanks_append hback hlast, List.reverse_reverse]

/-- A text is its trimmed part with blanks around it. -/
theorem exists_trim (cs : List Char) :
    ∃ front back, cs = front ++ trim cs ++ back ∧ (∀ c ∈ front, isBlank c) ∧
      ∀ c ∈ back, isBlank c := by
  refine ⟨cs.takeWhile isBlank, ((dropBlanks cs).reverse.takeWhile isBlank).reverse, ?_,
    fun c hc => List.mem_takeWhile_imp hc,
    fun c hc => List.mem_takeWhile_imp (List.mem_reverse.1 hc)⟩
  have hback : trim cs ++ ((dropBlanks cs).reverse.takeWhile isBlank).reverse = dropBlanks cs := by
    rw [trim, ← List.reverse_append, takeWhile_append_dropBlanks, List.reverse_reverse]
  rw [List.append_assoc, hback, takeWhile_append_dropBlanks]

/-! ## Reading a number -/

theorem natural?_of_isDigits {cs : List Char} (h : IsDigits cs) :
    natural? cs = some (decimal cs) :=
  if_pos ⟨h.1, List.all_eq_true.2 h.2⟩

theorem exists_of_natural? {cs : List Char} {n : Nat} (h : natural? cs = some n) :
    IsDigits cs ∧ n = decimal cs := by
  unfold natural? at h
  split_ifs at h with hcs
  exact ⟨⟨hcs.1, List.all_eq_true.1 hcs.2⟩, (Option.some.inj h).symm⟩

theorem signed?_of_signed {cs : List Char} {v : Int} (h : Signed cs v) : signed? cs = some v := by
  cases h with
  | @plain ds h =>
    have hn := natural?_of_isDigits h
    unfold signed?
    split
    · exact absurd (h.2 '+' List.mem_cons_self) (by decide)
    · exact absurd (h.2 '-' List.mem_cons_self) (by decide)
    · rw [hn]
      rfl
  | plus h => rw [signed?, natural?_of_isDigits h]; rfl
  | minus h => rw [signed?, natural?_of_isDigits h]; rfl

theorem signed_of_signed? {cs : List Char} {v : Int} (h : signed? cs = some v) : Signed cs v := by
  unfold signed? at h
  split at h <;>
    simp only [Option.map_eq_some_iff, Option.bind_eq_bind, Option.bind_eq_some_iff,
      Option.pure_def, Option.some.injEq] at h <;>
    obtain ⟨_, ⟨n, hn, rfl⟩, rfl⟩ := h <;> obtain ⟨hds, rfl⟩ := exists_of_natural? hn
  · exact .plus hds
  · exact .minus hds
  · exact .plain hds

theorem Signed.ne_nil {cs : List Char} {v : Int} (h : Signed cs v) : cs ≠ [] := by
  cases h with
  | plain h => exact h.1
  | plus h => exact List.cons_ne_nil _ _
  | minus h => exact List.cons_ne_nil _ _

theorem Signed.isBlank {cs : List Char} {v : Int} (h : Signed cs v) :
    ∀ c ∈ cs, isBlank c = false := by
  have hdigits : ∀ {ds : List Char}, IsDigits ds → ∀ c ∈ ds, Text.isBlank c = false :=
    fun h c hc => isBlank_of_isDigit (h.2 c hc)
  cases h with
  | plain h => exact hdigits h
  | plus h => exact List.forall_mem_cons.2 ⟨rfl, hdigits h⟩
  | minus h => exact List.forall_mem_cons.2 ⟨rfl, hdigits h⟩

/-- **A text is a numeral of the number** that its trimmed part is read as. -/
theorem numeral_iff {cs : List Char} {v : Int} : Numeral cs v ↔ signed? (trim cs) = some v := by
  constructor
  · rintro ⟨front, core, back, rfl, hfront, hback, h⟩
    rw [trim_append hfront hback h.ne_nil h.isBlank]
    exact signed?_of_signed h
  · intro h
    obtain ⟨front, back, hcs, hfront, hback⟩ := exists_trim cs
    exact ⟨front, trim cs, back, hcs, hfront, hback, signed_of_signed? h⟩

instance (cs : List Char) (v : Int) : Decidable (Numeral cs v) := decidable_of_iff' _ numeral_iff

theorem int64?_eq_some_iff {s : String} {v : Int} :
    int64? s = some v ↔ Numeral s.toList v ∧ isInt64 v := by
  rw [int64?, Option.filter_eq_some_iff, numeral_iff]

/-- Digits alone are a numeral of their value. -/
theorem numeral_of_isDigits {cs : List Char} (h : IsDigits cs) : Numeral cs (decimal cs) :=
  ⟨[], cs, [], by simp, List.forall_mem_nil _, List.forall_mem_nil _, .plain h⟩

theorem Numeral.eq {cs : List Char} {v w : Int} (hv : Numeral cs v) (hw : Numeral cs w) : v = w :=
  Option.some.inj ((numeral_iff.1 hv).symm.trans (numeral_iff.1 hw))

end Text

/-! ## Literals -/

/-- The literal stands for the number. -/
def Literal.Denotes : Literal → Int → Prop
  | .number w, v => w = v
  | .text s, v => Text.Numeral s.toList v

instance (l : Literal) (v : Int) : Decidable (l.Denotes v) :=
  match l with
  | .number w => inferInstanceAs (Decidable (w = v))
  | .text s => inferInstanceAs (Decidable (Text.Numeral s.toList v))

theorem Literal.Denotes.eq {l : Literal} {v w : Int} (hv : l.Denotes v) (hw : l.Denotes w) :
    v = w := by
  cases l with
  | number n => exact hv.symm.trans hw
  | text s => exact Text.Numeral.eq hv hw

example : (Literal.text " -07\n").Denotes (-7) ∧ ¬ (Literal.text "1 2").Denotes 12 := by decide

end Folio
