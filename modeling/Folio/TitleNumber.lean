import Folio.Bounds
import Folio.Model

/-!
# Title numbers

One counter for each level, all at 1. A title from the start level on is numbered with the
counters from the start level down to its own; then its own counter goes up by one and every
deeper counter goes back to 1. Shallower counters stay, so titles of levels 1, 2, 1, 2 are
numbered 1, 2.1, 2, 3.1.

**The state** (`Counters`). The counters of the first levels; every level behind the list stands
at 1. So setting the deeper counters back means to end the list at the title's level
(`get_count`).
-/

namespace Folio

namespace TitleNumber

/-- The counters of levels 0, 1, … -/
structure Counters where
  values : List Nat
  deriving DecidableEq, Repr

namespace Counters

def start : Counters := ⟨[]⟩

def get (c : Counters) (level : Nat) : Nat := c.values.getD level 1

/-- Behind a title of this level. -/
def count (c : Counters) (level : Nat) : Counters :=
  ⟨(List.range level).map c.get ++ [c.get level + 1]⟩

theorem get_start (level : Nat) : start.get level = 1 := by simp [get, start]

/-- A title counts on its level, sets the deeper levels back and leaves the others. -/
theorem get_count (c : Counters) (level l : Nat) :
    (c.count level).get l =
      if l < level then c.get l else if l = level then c.get level + 1 else 1 := by
  have hl : ((List.range level).map c.get).length = level := by simp
  simp only [count, get, List.getD_eq_getElem?_getD]
  rcases Nat.lt_trichotomy l level with h | rfl | h
  · rw [List.getElem?_append_left (by omega)]
    simp [h, get]
  · rw [List.getElem?_append_right (by omega)]
    simp
  · rw [List.getElem?_eq_none (by simp; omega)]
    have h₁ : ¬ l < level := by omega
    have h₂ : l ≠ level := by omega
    simp [h₁, h₂]

/-- The number of a title: the counters from the start level to the title's, with dots between. -/
def number (c : Counters) (start level : Nat) : String :=
  ".".intercalate (((List.range (level + 1)).drop start).map fun l => toString (c.get l))

end Counters

/-- The title is numbered, given the start level and the deepest level. -/
def isNumbered (start deepest : UInt32) (t : Title) : Bool := start ≤ t.level && t.level ≤ deepest

/-- The title with its number in front. -/
def numberTitle (c : Counters) (start : UInt32) (t : Title) : Title :=
  { t with text := c.number start.toNat t.level.toNat ++ ". " ++ t.text }

/-- Number the titles of a content, from the given counters on. -/
def numberFrom (start deepest : UInt32) : Counters → List Item → List Item
  | _, [] => []
  | c, .body s :: items => .body s :: numberFrom start deepest c items
  | c, .title t :: items =>
    if isNumbered start deepest t then
      .title (numberTitle c start t) ::
        numberFrom start deepest (c.count t.level.toNat) items
    else .title t :: numberFrom start deepest c items

end TitleNumber

/-- Number the titles of a content from the start level down to the deepest allowed. -/
def numberTitles (start : UInt32) (levels : Bounds) (content : List Item) : List Item :=
  TitleNumber.numberFrom start levels.max .start content

example :
    (numberTitles 1 ⟨1, 6⟩
      [.title ⟨"s", 1, "A"⟩, .title ⟨"s", 2, "B"⟩, .title ⟨"s", 1, "C"⟩, .title ⟨"s", 2, "D"⟩]) =
      [.title ⟨"s", 1, "1. A"⟩, .title ⟨"s", 2, "2.1. B"⟩, .title ⟨"s", 1, "2. C"⟩,
        .title ⟨"s", 2, "3.1. D"⟩] := by
  decide

end Folio
