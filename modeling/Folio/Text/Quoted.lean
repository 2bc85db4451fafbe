import Folio.Text.Hidden

/-!
# Quoted text

A quotation shows a text on one line: between double quotes, with a backslash in front of the
quote and of the backslash itself, letters for the common controls, and hidden characters
(`isHidden`) by their number in braces. A single character is quoted the same way between
apostrophes; then the apostrophe is escaped and the double quote is not.

`newline_notMem_quoted` is the reason for the form: a quotation never breaks a line.
-/

namespace Folio.Text

/-- A character by its number, in lower-case hexadecimal digits without padding. -/
def numbered (c : Char) : List Char :=
  ['\\', 'u', '\x7b'] ++ Nat.toDigits 16 c.toNat ++ ['\x7d']

/-- One character of a quotation that ends at the character `mark`. -/
def escaped (mark : Char) (c : Char) : List Char :=
  if c = '\x00' then ['\\', '0']
  else if c = '\t' then ['\\', 't']
  else if c = '\r' then ['\\', 'r']
  else if c = '\n' then ['\\', 'n']
  else if c = '\\' ∨ c = mark then ['\\', c]
  else if isHidden c then numbered c
  else [c]

/-- The text between double quotes. -/
def quoted (s : String) : String :=
  String.ofList ('"' :: s.toList.flatMap (escaped '"') ++ ['"'])

/-- The character between apostrophes. -/
def quotedChar (c : Char) : String := String.ofList ('\'' :: escaped '\'' c ++ ['\''])

/-! ## No quotation breaks a line -/

theorem digitChar_ne_newline (n : Nat) : Nat.digitChar n ≠ '\n' := by
  by_cases h : n < 16
  · have : ∀ m < 16, Nat.digitChar m ≠ '\n' := by decide
    exact this n h
  · have : Nat.digitChar n = '*' := by
      unfold Nat.digitChar
      iterate 16 rw [if_neg (by omega)]
    rw [this]
    decide

theorem newline_notMem_toDigits (b n : Nat) : '\n' ∉ Nat.toDigits b n := by
  have core : ∀ fuel n (ds : List Char), '\n' ∉ ds → '\n' ∉ Nat.toDigitsCore b fuel n ds := by
    intro fuel
    induction fuel with
    | zero => intro n ds h; simpa [Nat.toDigitsCore] using h
    | succ fuel ih =>
      intro n ds h
      have h' : '\n' ∉ (n % b).digitChar :: ds := by
        simp only [List.mem_cons, not_or]
        exact ⟨(digitChar_ne_newline _).symm, h⟩
      simp only [Nat.toDigitsCore]
      split
      · exact h'
      · exact ih _ _ h'
  exact core _ _ _ (by simp)

theorem newline_notMem_escaped {mark : Char} (hm : mark ≠ '\n') (c : Char) :
    '\n' ∉ escaped mark c := by
  have hs := newline_notMem_toDigits 16 c.toNat
  have hm' := hm.symm
  unfold escaped
  grind [numbered]

/-- **A quotation is one line.** -/
theorem newline_notMem_quoted (s : String) : '\n' ∉ (quoted s).toList := by
  have h : '\n' ∉ s.toList.flatMap (escaped '"') := by
    simp only [List.mem_flatMap, not_exists, not_and]
    exact fun c _ => newline_notMem_escaped (by decide) c
  simp [quoted, h]

end Folio.Text
