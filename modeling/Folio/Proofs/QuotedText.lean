import Folio.Proofs.JsonText
import Folio.Text.Quoted

/-!
# Quotations are unambiguous

**Theorem (`quoted_append_inj`).** A quotation is told from what follows it, and the text can be
read from it.

Each escape is read back (`read?_escaped`): behind a backslash a letter stands for a control, and
the number of a character ends at the closing brace.
-/

namespace Folio.Text

open Data.Json

/-! ## Numbers of characters -/

/-- The value of hexadecimal digits of lower case. -/
def hexadecimal (cs : List Char) : Nat := cs.foldl (fun n c => 16 * n + hexValue c) 0

/-- Digits are read back. -/
theorem hexadecimal_toDigits (n : Nat) : hexadecimal (Nat.toDigits 16 n) = n := by
  induction n using Nat.strongRecOn with
  | ind n ih =>
    rw [Nat.toDigits_eq_if (by decide)]
    split_ifs with hn
    · simp [hexadecimal, hexValue_digitChar n hn]
    · have hlast := hexValue_digitChar (n % 16) (Nat.mod_lt n (by decide))
      have hfront := ih (n / 16) (Nat.div_lt_self (by omega) (by decide))
      rw [hexadecimal] at hfront ⊢
      rw [List.foldl_append, hfront, List.foldl_cons, List.foldl_nil, hlast]
      exact Nat.div_add_mod n 16

theorem closeBrace_notMem_toDigits (n : Nat) : '\x7d' ∉ Nat.toDigits 16 n := by
  have hdigit : ∀ m < 16, '\x7d' ≠ Nat.digitChar m := by decide
  induction n using Nat.strongRecOn with
  | ind n ih =>
    rw [Nat.toDigits_eq_if (by decide)]
    split_ifs with hn
    · simp [hdigit n hn]
    · have hfront := ih (n / 16) (Nat.div_lt_self (by omega) (by decide))
      have hlast := hdigit (n % 16) (Nat.mod_lt n (by decide))
      simp [hfront, hlast]

/-! ## Escapes -/

/-- The character that a backslash in front of another stands for. -/
def unescaped (c : Char) : Char :=
  if c = '0' then '\x00'
  else if c = 't' then '\t'
  else if c = 'r' then '\r'
  else if c = 'n' then '\n'
  else c

/-- The character that the front of a quotation stands for, with what follows it; none at the quote
that ends the quotation. -/
def read? : List Char → Option (Char × List Char)
  | [] => none
  | '"' :: _ => none
  | '\\' :: 'u' :: '\x7b' :: cs =>
    some (Char.ofNat (hexadecimal (cs.takeWhile (· ≠ '\x7d'))), (cs.dropWhile (· ≠ '\x7d')).tail)
  | '\\' :: c :: cs => some (unescaped c, cs)
  | c :: cs => some (c, cs)

theorem read?_cons {c : Char} {x : List Char} (hquote : c ≠ '"') (hslash : c ≠ '\\') :
    read? (c :: x) = some (c, x) := by
  unfold read?
  split <;> simp_all

theorem read?_numbered (c : Char) (x : List Char) : read? (numbered c ++ x) = some (c, x) := by
  have hdigits : ∀ d ∈ Nat.toDigits 16 c.toNat, decide (d ≠ '\x7d') := by
    intro d hd
    apply decide_eq_true
    rintro rfl
    exact closeBrace_notMem_toDigits c.toNat hd
  have hbrace : ∀ d ∈ ('\x7d' :: x).head?, decide (d ≠ '\x7d') = false := by simp
  have hnumber : ((Nat.toDigits 16 c.toNat ++ '\x7d' :: x).takeWhile (· ≠ '\x7d')) =
      Nat.toDigits 16 c.toNat := takeWhile_append_of_boundary hdigits hbrace
  have hrest : ((Nat.toDigits 16 c.toNat ++ '\x7d' :: x).dropWhile (· ≠ '\x7d')) = '\x7d' :: x := by
    rw [List.dropWhile_append_of_pos hdigits, List.dropWhile_cons_of_neg (by simp)]
  have hread : read? ('\\' :: 'u' :: '\x7b' :: (Nat.toDigits 16 c.toNat ++ '\x7d' :: x)) =
      some (c, x) := by
    rw [read?, hnumber, hrest, hexadecimal_toDigits, Char.ofNat_toNat]
    rfl
  simpa [numbered] using hread

/-- **An escape is read back.** -/
theorem read?_escaped (c : Char) (x : List Char) : read? (escaped '"' c ++ x) = some (c, x) := by
  unfold escaped
  split_ifs with h0 ht hr hn hmark hhidden
  any_goals
    subst c
    rfl
  · rcases hmark with rfl | rfl <;> rfl
  · exact read?_numbered c x
  · rw [not_or] at hmark
    exact read?_cons hmark.2 hmark.1

/-- **A quotation is told from what follows it.** -/
theorem quoted_append_inj {s t : String} {x y : List Char}
    (h : (quoted s).toList ++ x = (quoted t).toList ++ y) : s = t ∧ x = y := by
  have hbody : s.toList.flatMap (escaped '"') ++ '"' :: x =
      t.toList.flatMap (escaped '"') ++ '"' :: y := by
    simpa [quoted] using h
  obtain ⟨hs, rfl⟩ := flatMap_append_inj read?_escaped (fun _ => rfl) hbody
  exact ⟨String.toList_inj.1 hs, rfl⟩

theorem quoted_injective : Function.Injective quoted := by
  intro s t h
  have hchars : (quoted s).toList ++ [] = (quoted t).toList ++ [] := by rw [h]
  exact (quoted_append_inj hchars).1

end Folio.Text
