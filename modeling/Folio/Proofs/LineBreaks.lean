import Folio.Bounds
import Folio.Text.Quoted
import Mathlib.Data.List.Basic

/-!
# Line breaks

**One line** (`Unbroken`). A text without a line feed. Numbers are one line, and so are quoted texts
and characters.

**Lines** (`IsLines`). A text consists of lines if it is these, each unbroken and with a line feed
behind it. There is only one list of such lines (`IsLines.unique`). Pieces with a line feed behind
each are unbroken if there are as many lines as pieces (`IsLines.unbroken_of_length_eq`).

**Quoting** (`Quotes`). A message has a text in it, between pieces that are unbroken. So it is
unbroken just if the text is.
-/

namespace Folio

/-! ## One line -/

/-- The text has no line feed. -/
def Unbroken (s : String) : Prop := '\n' ∉ s.toList

instance (s : String) : Decidable (Unbroken s) := inferInstanceAs (Decidable ('\n' ∉ s.toList))

@[simp] theorem unbroken_append {s t : String} : Unbroken (s ++ t) ↔ Unbroken s ∧ Unbroken t := by
  simp [Unbroken]

theorem Unbroken.of_isInfix {s t : String} (ht : Unbroken t) (h : s.toList <:+: t.toList) :
    Unbroken s :=
  fun hmem => ht (h.subset hmem)

theorem unbroken_join {ss : List String} : Unbroken (String.join ss) ↔ ∀ s ∈ ss, Unbroken s := by
  simp [Unbroken]

theorem unbroken_intercalate {sep : String} {ss : List String} (hsep : Unbroken sep)
    (hss : ∀ s ∈ ss, Unbroken s) : Unbroken (sep.intercalate ss) := by
  induction ss with
  | nil => exact List.not_mem_nil
  | cons s ss ih =>
    obtain ⟨hs, hss⟩ := List.forall_mem_cons.1 hss
    cases ss with
    | nil => simpa using hs
    | cons t ts =>
      rw [String.intercalate_cons_cons, unbroken_append, unbroken_append]
      exact ⟨⟨hs, hsep⟩, ih hss⟩

@[simp] theorem unbroken_toString_nat (n : Nat) : Unbroken (toString n) := by
  show '\n' ∉ n.repr.toList
  rw [Nat.toList_repr]
  exact Text.newline_notMem_toDigits 10 n

@[simp] theorem unbroken_toString_int (n : Int) : Unbroken (toString n) := by
  cases n with
  | ofNat m => exact unbroken_toString_nat m
  | negSucc m =>
    show Unbroken ("-" ++ toString (m + 1))
    rw [unbroken_append]
    exact ⟨by decide, unbroken_toString_nat _⟩

@[simp] theorem unbroken_quoted (s : String) : Unbroken (Text.quoted s) :=
  Text.newline_notMem_quoted s

@[simp] theorem unbroken_quotedChar (c : Char) : Unbroken (Text.quotedChar c) := by
  have hescaped : '\n' ∉ Text.escaped '\'' c := Text.newline_notMem_escaped (by decide) c
  simp [Unbroken, Text.quotedChar, hescaped]

@[simp] theorem Bounds.unbroken_display (b : Bounds) : Unbroken b.display := by
  simp only [display, unbroken_append, unbroken_toString_nat, and_true]
  decide

/-! ## Lines -/

/-- The text consists of the lines, each with a line feed behind it. -/
structure IsLines (text : String) (lines : List String) : Prop where
  unbroken : ∀ l ∈ lines, Unbroken l
  text_eq : text = String.join (lines.map (· ++ "\n"))

theorem toList_join_lines (l : String) (ls : List String) :
    (String.join ((l :: ls).map (· ++ "\n"))).toList =
      l.toList ++ '\n' :: (String.join (ls.map (· ++ "\n"))).toList := by
  simp

/-- The first line feed ends the first line. -/
theorem takeWhile_ne_newline {cs rest : List Char} (h : '\n' ∉ cs) :
    (cs ++ '\n' :: rest).takeWhile (· ≠ '\n') = cs := by
  have hcs : ∀ c ∈ cs, decide (c ≠ '\n') := by
    intro c hc
    apply decide_eq_true
    rintro rfl
    exact h hc
  rw [List.takeWhile_append_of_pos hcs, List.takeWhile_cons_of_neg (by simp), List.append_nil]

/-- A text has its lines in one way only. -/
theorem IsLines.unique {text : String} {ls ms : List String} (hl : IsLines text ls)
    (hm : IsLines text ms) : ls = ms := by
  obtain ⟨hls, rfl⟩ := hl
  obtain ⟨hms, htext⟩ := hm
  induction ls generalizing ms with
  | nil =>
    cases ms with
    | nil => rfl
    | cons m ms => simp at htext
  | cons l ls ih =>
    obtain ⟨hl, hls⟩ := List.forall_mem_cons.1 hls
    cases ms with
    | nil => simp at htext
    | cons m ms =>
      obtain ⟨hm, hms⟩ := List.forall_mem_cons.1 hms
      have hchars := congrArg String.toList htext
      rw [toList_join_lines, toList_join_lines] at hchars
      have hfirst : l.toList = m.toList := by
        rw [← takeWhile_ne_newline hl, hchars, takeWhile_ne_newline hm]
      rw [hfirst] at hchars
      have hrest := (List.cons.inj (List.append_cancel_left hchars)).2
      rw [String.toList_inj.1 hfirst, ih hls hms (String.toList_inj.1 hrest)]

/-- Every line has a line feed behind it, and those inside come on top. -/
theorem count_newline_join (ls : List String) :
    (String.join (ls.map (· ++ "\n"))).toList.count '\n' =
      ls.length + (ls.flatMap String.toList).count '\n' := by
  induction ls with
  | nil => rfl
  | cons l ls ih =>
    rw [toList_join_lines, List.count_append, List.count_cons_self, ih, List.length_cons,
      List.flatMap_cons, List.count_append]
    omega

/-- If there are as many lines as pieces with a line feed behind each, no piece is broken. -/
theorem IsLines.unbroken_of_length_eq {pieces lines : List String}
    (h : IsLines (String.join (pieces.map (· ++ "\n"))) lines)
    (hlength : lines.length = pieces.length) : ∀ piece ∈ pieces, Unbroken piece := by
  have hlines : (lines.flatMap String.toList).count '\n' = 0 := by
    apply List.count_eq_zero_of_not_mem
    intro hmem
    obtain ⟨l, hl, hnewline⟩ := List.mem_flatMap.1 hmem
    exact h.unbroken l hl hnewline
  have hcount := count_newline_join pieces
  rw [h.text_eq, count_newline_join, hlines, hlength] at hcount
  have hpieces : (pieces.flatMap String.toList).count '\n' = 0 := by omega
  intro piece hpiece hnewline
  exact List.count_eq_zero.1 hpieces (List.mem_flatMap.2 ⟨piece, hpiece, hnewline⟩)

/-! ## Quoting -/

/-- The message has the text in it, and no line feed apart from those of the text. -/
def Quotes (message text : String) : Prop :=
  ∃ front back, Unbroken front ∧ Unbroken back ∧ message = front ++ text ++ back

namespace Quotes

variable {message text : String}

theorem isInfix (h : Quotes message text) : text.toList <:+: message.toList := by
  obtain ⟨front, back, -, -, rfl⟩ := h
  exact ⟨front.toList, back.toList, by simp⟩

theorem unbroken (h : Quotes message text) (ht : Unbroken text) : Unbroken message := by
  obtain ⟨front, back, hfront, hback, rfl⟩ := h
  rw [unbroken_append, unbroken_append]
  exact ⟨⟨hfront, ht⟩, hback⟩

theorem self (text : String) : Quotes text text :=
  ⟨"", "", by decide, by decide, by simp⟩

theorem prepend {ahead : String} (hahead : Unbroken ahead) (h : Quotes message text) :
    Quotes (ahead ++ message) text := by
  obtain ⟨front, back, hfront, hback, rfl⟩ := h
  refine ⟨ahead ++ front, back, unbroken_append.2 ⟨hahead, hfront⟩, hback, ?_⟩
  simp only [String.append_assoc]

theorem append {behind : String} (h : Quotes message text) (hbehind : Unbroken behind) :
    Quotes (message ++ behind) text := by
  obtain ⟨front, back, hfront, hback, rfl⟩ := h
  refine ⟨front, back ++ behind, hfront, unbroken_append.2 ⟨hback, hbehind⟩, ?_⟩
  simp only [String.append_assoc]

end Quotes

end Folio
