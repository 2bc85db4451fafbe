import Folio.TitleNumber
import Mathlib.Data.List.DropRight

/-!
# Title numbers in closed form

The number of a title can be read off the items in front of it, without any counters.

**Ordinals** (`ordinal`). On each level, one more than the titles of just this level that were
numbered since the last one of a shallower level. Titles that are not numbered do not count.

**Theorem (`numberTitles_eq_mapIdx`).** Numbering writes in front of each title from the start level
down to the deepest its ordinals on these levels, from the start level to its own, and does nothing
else.

The counters are the ordinals of the titles passed (`Counters.Tracks`). A title ends what the
ordinals of deeper levels count, goes into that of its own level, and leaves those of shallower
levels as they are (`ordinal_concat`); so does its count.
-/

namespace Folio

namespace TitleNumber

/-! ## Ordinals -/

/-- The level of an item, if it is a title that is numbered. -/
def numberedLevel? (start deepest : UInt32) : Item → Option Nat
  | .title t => if start ≤ t.level ∧ t.level ≤ deepest then some t.level.toNat else none
  | .body _ => none

/-- The levels of the titles that are numbered, in order. -/
def numberedLevels (start deepest : UInt32) (content : List Item) : List Nat :=
  content.filterMap (numberedLevel? start deepest)

/-- One more than the titles of level `l` behind the last title of a shallower level. -/
def ordinal (levels : List Nat) (l : Nat) : Nat := 1 + (levels.rtakeWhile (l ≤ ·)).count l

/-- The number of a title behind numbered titles of the levels: its ordinals from the start level to
its own, with dots between. -/
def numberBehind (levels : List Nat) (start level : Nat) : String :=
  ".".intercalate
    ((List.range' start (level + 1 - start)).map fun l => toString (ordinal levels l))

@[simp] theorem ordinal_nil (l : Nat) : ordinal [] l = 1 := by simp [ordinal]

/-- What one more title does to the ordinals. -/
theorem ordinal_concat (levels : List Nat) (level l : Nat) :
    ordinal (levels ++ [level]) l =
      if l < level then ordinal levels l
      else if l = level then ordinal levels level + 1
      else 1 := by
  unfold ordinal
  rw [List.rtakeWhile_concat]
  rcases Nat.lt_trichotomy l level with hlt | rfl | hgt
  · have hne : level ≠ l := by omega
    simp [hlt, hlt.le, hne]
  · simp [Nat.add_assoc]
  · have h₁ : ¬ l ≤ level := by omega
    have h₂ : ¬ l < level := by omega
    have h₃ : l ≠ level := by omega
    simp [h₁, h₂, h₃]

/-- Shallower levels are not set back: behind titles of levels 1, 2 and 1 comes 3.1. -/
example : numberBehind [1, 2, 1] 1 2 = "3.1" := by decide

/-! ## Counters are ordinals -/

namespace Counters

/-- The counters stand as titles of these levels have left them. -/
def Tracks (c : Counters) (levels : List Nat) : Prop := ∀ l, c.get l = ordinal levels l

theorem tracks_start : Counters.start.Tracks [] := fun l => by rw [get_start, ordinal_nil]

variable {c : Counters} {levels : List Nat}

/-- **One more title** that is numbered. -/
theorem Tracks.count (h : c.Tracks levels) (level : Nat) :
    (c.count level).Tracks (levels ++ [level]) := fun l => by
  rw [get_count, ordinal_concat, h l, h level]

theorem Tracks.number_eq (h : c.Tracks levels) (start level : Nat) :
    c.number start level = numberBehind levels start level := by
  have hrange : (List.range (level + 1)).drop start = List.range' start (level + 1 - start) := by
    rw [List.range_eq_range', List.drop_range', Nat.mul_one, Nat.zero_add]
  rw [number, numberBehind, hrange]
  exact congrArg _ (List.map_congr_left fun l _ => by rw [h l])

end Counters

end TitleNumber

/-! ## Numbered items -/

open TitleNumber

/-- An item behind others, as numbering leaves it. -/
def Item.numberedBehind (start deepest : UInt32) (earlier : List Item) : Item → Item
  | title t =>
    if start ≤ t.level ∧ t.level ≤ deepest then
      .title { t with
        text := numberBehind (numberedLevels start deepest earlier) start.toNat t.level.toNat ++
          ". " ++ t.text }
    else .title t
  | body s => .body s

variable {start deepest : UInt32} {c : Counters} {earlier : List Item}

/-- **One more item.** It is numbered by what the counters track, and they go on tracking. -/
theorem numberFrom_cons (h : c.Tracks (numberedLevels start deepest earlier)) (item : Item)
    (content : List Item) :
    ∃ c', c'.Tracks (numberedLevels start deepest (earlier ++ [item])) ∧
      numberFrom start deepest c (item :: content) =
        item.numberedBehind start deepest earlier :: numberFrom start deepest c' content := by
  have hlevels : numberedLevels start deepest (earlier ++ [item]) =
      numberedLevels start deepest earlier ++ (numberedLevel? start deepest item).toList := by
    rw [numberedLevels, List.filterMap_append, ← numberedLevels]
    cases h : numberedLevel? start deepest item <;> simp [h]
  rw [hlevels]
  cases item with
  | body s => exact ⟨c, by simpa [numberedLevel?] using h, rfl⟩
  | title t =>
    by_cases ht : start ≤ t.level ∧ t.level ≤ deepest
    · have hnumbered : isNumbered start deepest t := by simpa [isNumbered] using ht
      refine ⟨c.count t.level.toNat, by simpa [numberedLevel?, ht] using h.count t.level.toNat, ?_⟩
      rw [numberFrom, if_pos hnumbered, Item.numberedBehind, if_pos ht, numberTitle, h.number_eq]
    · have hnumbered : ¬ isNumbered start deepest t := by simpa [isNumbered] using ht
      refine ⟨c, by simpa [numberedLevel?, ht] using h, ?_⟩
      rw [numberFrom, if_neg hnumbered, Item.numberedBehind, if_neg ht]

/-- **A run of numbering** behind the items that the counters track. -/
theorem numberFrom_eq_mapIdx (h : c.Tracks (numberedLevels start deepest earlier))
    (content : List Item) :
    numberFrom start deepest c content =
      content.mapIdx fun i => Item.numberedBehind start deepest (earlier ++ content.take i) := by
  induction content generalizing c earlier with
  | nil => rfl
  | cons item content ih =>
    obtain ⟨c', h', hcons⟩ := numberFrom_cons h item content
    rw [hcons, ih h', List.mapIdx_cons]
    simp

/-- **Title numbers in closed form.** Every item stays in its place. A title from the start level
down to the deepest level gets its number in front of its text, which depends on the items in front
of it alone; other titles and sections stay as they are. -/
theorem numberTitles_eq_mapIdx (start : UInt32) (levels : Bounds) (content : List Item) :
    numberTitles start levels content =
      content.mapIdx fun i => Item.numberedBehind start levels.max (content.take i) := by
  have hstart : Counters.start.Tracks (numberedLevels start levels.max []) :=
    Counters.tracks_start
  exact numberFrom_eq_mapIdx hstart content

end Folio
