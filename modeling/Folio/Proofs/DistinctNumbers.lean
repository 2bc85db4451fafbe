import Folio.Proofs.Canonical
import Folio.Proofs.JsonText
import Mathlib.Data.List.Lex

/-!
# Title numbers never repeat

**Counters of a title** (`countersAt`). A title that is numbered gets the counters of the levels
from the start level to its own, as the items in front of it have left them, with dots between
(`dotted`).

**Theorem (`title_numbers_never_repeat`).** Two titles that are numbered have different numbers, and
of two on the same level the later one has the greater counters, in lexicographic order.

A title that is numbered makes the counters down to its own level greater, and those down to any
deeper level too: its own counter goes up, and what goes back to 1 stands behind it (`lex_count`).
The counters down to a shallower level stay (`upTo_count_of_lt`). So along a run they never become
smaller (`lex_pass`, `lex_foldl_pass`). Titles of different levels have different numbers of
counters, and the dots tell the counters apart (`dotted_inj`).
-/

namespace Folio

namespace TitleNumber

/-! ## Counters with dots between -/

/-- The numbers with dots between. -/
def dotted (ns : List Nat) : String := ".".intercalate (ns.map toString)

/-- The numbers with a dot in front of each. -/
def dotEach (ns : List Nat) : List Char := ns.flatMap fun n => '.' :: (toString n).toList

theorem dotEach_cons (n : Nat) (ns : List Nat) :
    dotEach (n :: ns) = '.' :: (dotted (n :: ns)).toList := by
  rw [dotted, List.map_cons, toList_intercalate_cons, List.flatMap_map]
  rfl

theorem endsNumber_dotEach (ns : List Nat) : Data.Json.EndsNumber (dotEach ns) := by
  intro c hc
  cases ns with
  | nil => cases hc
  | cons n ns =>
    obtain rfl : '.' = c := Option.some.inj hc
    rfl

theorem dotEach_inj {ms ns : List Nat} (h : dotEach ms = dotEach ns) : ms = ns := by
  induction ms generalizing ns with
  | nil =>
    cases ns with
    | nil => rfl
    | cons n ns => cases h
  | cons m ms ih =>
    cases ns with
    | nil => cases h
    | cons n ns =>
      have hnumbers : (toString m).toList ++ dotEach ms = (toString n).toList ++ dotEach ns :=
        (List.cons.inj h).2
      obtain ⟨rfl, hrest⟩ := Data.Json.nat_append_inj (endsNumber_dotEach ms)
        (endsNumber_dotEach ns) hnumbers
      rw [ih hrest]

theorem dotted_cons_ne (n : Nat) (ns : List Nat) : dotted (n :: ns) ≠ "" := by
  intro hempty
  have hlist := dotEach_cons n ns
  obtain ⟨c, cs, hcs, -⟩ := Data.Json.exists_digit n
  rw [hempty, dotEach, List.flatMap_cons, hcs] at hlist
  cases (List.cons.inj hlist).2

/-- The dots tell the numbers apart. -/
theorem dotted_inj {ms ns : List Nat} (h : dotted ms = dotted ns) : ms = ns := by
  cases ms with
  | nil =>
    cases ns with
    | nil => rfl
    | cons n ns => exact absurd h.symm (dotted_cons_ne n ns)
  | cons m ms =>
    cases ns with
    | nil => exact absurd h (dotted_cons_ne m ms)
    | cons n ns => exact dotEach_inj (by rw [dotEach_cons, dotEach_cons, h])

/-! ## One more title -/

namespace Counters

/-- The counters from the start level to the level. -/
def upTo (c : Counters) (start level : Nat) : List Nat :=
  ((List.range (level + 1)).drop start).map c.get

theorem number_eq_dotted (c : Counters) (start level : Nat) :
    c.number start level = dotted (c.upTo start level) := by
  rw [number, dotted, upTo, List.map_map]
  rfl

theorem length_upTo (c : Counters) (start level : Nat) :
    (c.upTo start level).length = level + 1 - start := by
  simp [upTo]

/-- The counters around one of the levels. -/
theorem upTo_eq_append (c : Counters) {start level deeper : Nat} (hstart : start ≤ level)
    (hdeeper : level ≤ deeper) :
    c.upTo start deeper = (List.range' start (level - start)).map c.get ++
      c.get level :: (List.range' (level + 1) (deeper - level)).map c.get := by
  have hrange : (List.range (deeper + 1)).drop start =
      List.range' start (level - start) ++ level :: List.range' (level + 1) (deeper - level) := by
    have hlevel : start + (level - start) = level := by omega
    have hlength : level - start + (deeper - level + 1) = deeper + 1 - start := by omega
    rw [List.range_eq_range', List.drop_range', Nat.mul_one, Nat.zero_add, ← hlength,
      ← List.range'_append_1, hlevel, List.range'_succ]
  rw [upTo, hrange, List.map_append, List.map_cons]

/-- A title makes the counters greater that reach down to its level. -/
theorem lex_count (c : Counters) {start level deeper : Nat} (hstart : start ≤ level)
    (hdeeper : level ≤ deeper) :
    List.Lex (· < ·) (c.upTo start deeper) ((c.count level).upTo start deeper) := by
  have hbefore : (List.range' start (level - start)).map (c.count level).get =
      (List.range' start (level - start)).map c.get := by
    refine List.map_congr_left fun l hl => ?_
    rw [List.mem_range'_1] at hl
    rw [get_count, if_pos (by omega)]
  have hown : (c.count level).get level = c.get level + 1 := by
    rw [get_count, if_neg (Nat.lt_irrefl level), if_pos rfl]
  rw [upTo_eq_append c hstart hdeeper, upTo_eq_append (c.count level) hstart hdeeper, hbefore, hown]
  exact .append_left _ (.rel (Nat.lt_succ_self _)) _

/-- A title leaves the counters that do not reach down to its level. -/
theorem upTo_count_of_lt (c : Counters) {start level shallower : Nat} (h : shallower < level) :
    (c.count level).upTo start shallower = c.upTo start shallower := by
  refine List.map_congr_left fun l hl => ?_
  have hl' := List.mem_range.1 (List.mem_of_mem_drop hl)
  rw [get_count, if_pos (by omega)]

end Counters

/-! ## A run -/

theorem le_of_isNumbered {start deepest : UInt32} {t : Title} (h : isNumbered start deepest t) :
    start.toNat ≤ t.level.toNat := by
  rw [isNumbered, Bool.and_eq_true, decide_eq_true_eq] at h
  exact UInt32.le_iff_toNat_le.1 h.1

namespace Counters

/-- Behind one more item. -/
def pass (start deepest : UInt32) (c : Counters) : Item → Counters
  | .title t => if isNumbered start deepest t then c.count t.level.toNat else c
  | .body _ => c

variable {start deepest : UInt32} {c : Counters} {ns : List Nat} {level : Nat}

/-- **One more item.** What is less than the counters stays less. -/
theorem lex_pass (h : List.Lex (· < ·) ns (c.upTo start.toNat level)) (item : Item) :
    List.Lex (· < ·) ns ((c.pass start deepest item).upTo start.toNat level) := by
  cases item with
  | body s => exact h
  | title t =>
    rw [Counters.pass]
    split_ifs with ht
    · rcases Nat.lt_or_ge level t.level.toNat with hlt | hge
      · rwa [upTo_count_of_lt c hlt]
      · exact List.lt_trans h (lex_count c (le_of_isNumbered ht) hge)
    · exact h

/-- **A run.** -/
theorem lex_foldl_pass (h : List.Lex (· < ·) ns (c.upTo start.toNat level)) (items : List Item) :
    List.Lex (· < ·) ns ((items.foldl (Counters.pass start deepest) c).upTo start.toNat level) := by
  induction items generalizing c with
  | nil => exact h
  | cons item items ih => exact ih (lex_pass h item)

end Counters

/-! ## Titles that are numbered -/

/-- The title stands at the place of the content and is numbered. -/
structure NumberedAt (start deepest : UInt32) (content : List Item) (i : Nat) (t : Title) :
    Prop where
  item : content[i]? = some (.title t)
  numbered : isNumbered start deepest t

/-- The counters that a title at the place is numbered with. -/
def countersAt (start deepest : UInt32) (content : List Item) (i : Nat) (t : Title) : List Nat :=
  ((content.take i).foldl (Counters.pass start deepest) .start).upTo start.toNat t.level.toNat

variable {start deepest : UInt32} {content : List Item}

theorem numberFrom_cons_pass (start deepest : UInt32) (c : Counters) (item : Item)
    (content : List Item) :
    ∃ item', numberFrom start deepest c (item :: content) =
        item' :: numberFrom start deepest (c.pass start deepest item) content ∧
      ∀ t, item = .title t → isNumbered start deepest t →
        item' = .title (numberTitle c start t) := by
  cases item with
  | body s => exact ⟨.body s, rfl, fun t ht => by cases ht⟩
  | title t =>
    by_cases hnumbered : isNumbered start deepest t
    · refine ⟨.title (numberTitle c start t), ?_, fun u hu _ => ?_⟩
      · rw [numberFrom, if_pos hnumbered, Counters.pass, if_pos hnumbered]
      · cases hu
        rfl
    · refine ⟨.title t, ?_, fun u hu hu' => ?_⟩
      · rw [numberFrom, if_neg hnumbered, Counters.pass, if_neg hnumbered]
      · cases hu
        exact absurd hu' hnumbered

/-- A title is numbered by what the items in front of it have left. -/
theorem getElem?_numberFrom (c : Counters) {i : Nat} {t : Title}
    (h : NumberedAt start deepest content i t) :
    (numberFrom start deepest c content)[i]? = some (.title
      (numberTitle ((content.take i).foldl (Counters.pass start deepest) c) start t)) := by
  obtain ⟨hitem, hnumbered⟩ := h
  induction content generalizing c i with
  | nil => cases hitem
  | cons item content ih =>
    obtain ⟨item', hcons, htitle⟩ := numberFrom_cons_pass start deepest c item content
    rw [hcons]
    cases i with
    | zero =>
      rw [List.getElem?_cons_zero, Option.some.injEq] at hitem
      rw [List.getElem?_cons_zero, htitle t hitem hnumbered]
      rfl
    | succ i =>
      rw [List.getElem?_cons_succ] at hitem ⊢
      exact ih _ hitem

/-- The counters of a title are less than those of a later one on its level. -/
theorem lex_countersAt {i j : Nat} {t u : Title} (ht : NumberedAt start deepest content i t)
    (hlevel : t.level = u.level) (hij : i < j) :
    List.Lex (· < ·) (countersAt start deepest content i t)
      (countersAt start deepest content j u) := by
  have hsplit : content.take j =
      content.take i ++ .title t :: (content.drop (i + 1)).take (j - (i + 1)) := by
    obtain ⟨hi, hitem⟩ := List.getElem?_eq_some_iff.1 ht.item
    have hj : j = i + 1 + (j - (i + 1)) := by omega
    rw [hj, List.take_add, List.take_succ_eq_append_getElem hi, hitem]
    simp
  rw [countersAt, countersAt, hsplit, List.foldl_append, List.foldl_cons, ← hlevel]
  refine Counters.lex_foldl_pass ?_ _
  rw [Counters.pass, if_pos ht.numbered]
  exact Counters.lex_count _ (le_of_isNumbered ht.numbered) le_rfl

/-- Titles on different levels have different numbers of counters. -/
theorem countersAt_ne_of_level_ne {i j : Nat} {t u : Title}
    (ht : NumberedAt start deepest content i t) (hu : NumberedAt start deepest content j u)
    (hlevel : t.level ≠ u.level) :
    countersAt start deepest content i t ≠ countersAt start deepest content j u := by
  intro heq
  have hlength := congrArg List.length heq
  rw [countersAt, countersAt, Counters.length_upTo, Counters.length_upTo] at hlength
  have ht' := le_of_isNumbered ht.numbered
  have hu' := le_of_isNumbered hu.numbered
  exact hlevel (UInt32.toNat_inj.1 (by omega))

theorem countersAt_ne {i j : Nat} {t u : Title} (ht : NumberedAt start deepest content i t)
    (hu : NumberedAt start deepest content j u) (hij : i ≠ j) :
    countersAt start deepest content i t ≠ countersAt start deepest content j u := by
  by_cases hlevel : t.level = u.level
  · intro heq
    rcases Nat.lt_or_gt_of_ne hij with hlt | hgt
    · exact List.lt_irrefl _ (heq ▸ lex_countersAt ht hlevel hlt)
    · exact List.lt_irrefl _ (heq ▸ lex_countersAt hu hlevel.symm hgt)
  · exact countersAt_ne_of_level_ne ht hu hlevel

end TitleNumber

open TitleNumber

/-- **Title numbers never repeat.** A title that is numbered gets its counters with dots between in
front of its text. No two titles get the same, and of two titles on one level the later one gets the
greater counters. -/
theorem title_numbers_never_repeat (start : UInt32) (levels : Bounds) (content : List Item) :
    let numbered := NumberedAt start levels.max content
    let counters := countersAt start levels.max content
    (∀ i t, numbered i t → (numberTitles start levels content)[i]? =
        some (.title { t with text := dotted (counters i t) ++ ". " ++ t.text })) ∧
      (∀ i j t u, numbered i t → numbered j u → i ≠ j →
        dotted (counters i t) ≠ dotted (counters j u)) ∧
      ∀ i j t u, numbered i t → numbered j u → t.level = u.level → i < j →
        List.Lex (· < ·) (counters i t) (counters j u) := by
  refine ⟨fun i t ht => ?_, fun i j t u ht hu hij heq => ?_, fun i j t u ht _ => lex_countersAt ht⟩
  · rw [numberTitles, getElem?_numberFrom .start ht, numberTitle, Counters.number_eq_dotted]
    rfl
  · exact countersAt_ne ht hu hij (dotted_inj heq)

/-- Titles of levels 1, 2, 1 and 2 are numbered 1, 2.1, 2 and 3.1. -/
theorem title_numbers_never_repeat_nested :
    let title (level : UInt32) : Item := .title ⟨"s", level, "A"⟩
    let content := [title 1, title 2, title 1, title 2]
    NumberedAt 1 6 content 1 ⟨"s", 2, "A"⟩ ∧ NumberedAt 1 6 content 3 ⟨"s", 2, "A"⟩ ∧
      (numberTitles 1 ⟨1, 6⟩ content)[3]? = some (.title ⟨"s", 2, "3.1. A"⟩) ∧
      dotted [2, 1] ≠ dotted [3, 1] ∧ List.Lex (· < ·) [2, 1] [3, 1] := by
  intro title content
  obtain ⟨hnumber, hne, hlex⟩ := title_numbers_never_repeat 1 ⟨1, 6⟩ content
  have h₁ : NumberedAt 1 6 content 1 ⟨"s", 2, "A"⟩ := ⟨rfl, by decide⟩
  have h₃ : NumberedAt 1 6 content 3 ⟨"s", 2, "A"⟩ := ⟨rfl, by decide⟩
  exact ⟨h₁, h₃, (hnumber 3 _ h₃).trans (by decide), hne 1 3 _ _ h₁ h₃ (by decide),
    hlex 1 3 _ _ h₁ h₃ rfl (by decide)⟩

end Folio
