import Folio.Compilation
import Folio.Echo
import Folio.Proofs.Reading
import Folio.Proofs.Scanning
import Folio.Proofs.Validity

/-!
# What compiled models are like

A model that was compiled from a source can be written as a source again, because it is made of
what tokens hold.

**Printable models** (`Model.Printable`). Names, fonts and colours hold no quote, and the text of a
title or a run is free text as a scanner reads it. A title that is numbered has digits and dots in
front, which are free text too.

**Texts apart** (`Item.Apart`). Two plain runs follow each other in a section only if an illegal
character was skipped between them. `Item.merged` joins such runs.

Both are properties of the changes that instructions make, carried from the tokens over the
derivation into each change (`printable_of_accepts`, `apart_of_accepts`), and from there into the
state by one lemma about runs (`madeOf_foldl_step`).
-/

namespace Folio

/-! ## Printable parts -/

def Style.Printable (s : Style) : Prop := Unquoted s.name ∧ Unquoted s.font ∧ Unquoted s.fontColor

def PageNumber.Printable (n : PageNumber) : Prop := Unquoted n.font ∧ Unquoted n.fontColor

/-- A title may be empty; a run is not. -/
def Item.Printable : Item → Prop
  | title t => Unquoted t.style ∧ (t.text = "" ∨ IsPlain t.text)
  | body s => Unquoted s.style ∧ ∀ r ∈ s.content, IsPlain r.text

/-- The texts are free text. -/
def Item.Plain : Item → Prop
  | title t => t.text = "" ∨ IsPlain t.text
  | body s => ∀ r ∈ s.content, IsPlain r.text

def Change.Printable : Change → Prop
  | style s => s.Printable
  | pageNumber n => n.Printable
  | numberingStart _ => True
  | item i => i.Printable

def Change.Plain : Change → Prop
  | item i => i.Plain
  | _ => True

structure Model.Printable (m : Model) : Prop where
  styles : ∀ s ∈ m.declaredStyles, s.Printable
  pageNumber : m.pageNumber.Printable
  content : ∀ i ∈ m.content, i.Printable

/-- What the settings fall back to holds no quote. -/
structure Settings.Printable (settings : Settings) : Prop where
  styles : ∀ s ∈ settings.builtinStyles, s.Printable
  pageNumber : settings.pageNumber.Printable

/-! ## Plain runs apart, and merged -/

/-- At least one of the runs is emphasised. -/
def Run.Apart (r s : Run) : Prop := ¬ (r.emphasis = none ∧ s.emphasis = none)

/-- No two plain runs follow each other. -/
def Item.Apart : Item → Prop
  | title _ => True
  | body s => s.content.IsChain Run.Apart

def Change.Apart : Change → Prop
  | item i => i.Apart
  | _ => True

/-- The run in front of runs; two plain runs become one. -/
def Run.before (r : Run) : List Run → List Run
  | [] => [r]
  | s :: runs =>
    if r.emphasis = none ∧ s.emphasis = none then ⟨none, r.text ++ s.text⟩ :: runs
    else r :: s :: runs

/-- The runs with each stretch of plain ones joined. -/
def Run.merge (runs : List Run) : List Run := runs.foldr Run.before []

def Item.merged : Item → Item
  | title t => .title t
  | body s => .body { s with content := Run.merge s.content }

theorem Run.merge_cons (r : Run) (runs : List Run) :
    Run.merge (r :: runs) = r.before (Run.merge runs) := rfl

/-- Merging leaves runs as they are if none can be joined. -/
theorem Run.merge_of_apart {runs : List Run} (h : runs.IsChain Run.Apart) :
    Run.merge runs = runs := by
  induction runs with
  | nil => rfl
  | cons r runs ih =>
    obtain ⟨hhead, htail⟩ := List.isChain_cons.1 h
    rw [Run.merge_cons, ih htail]
    cases runs with
    | nil => rfl
    | cons s runs => exact if_neg (hhead s rfl)

theorem Run.apart_before {r : Run} {runs : List Run} (h : runs.IsChain Run.Apart) :
    (r.before runs).IsChain Run.Apart := by
  cases runs with
  | nil => exact .singleton r
  | cons s runs =>
    by_cases hplain : r.emphasis = none ∧ s.emphasis = none
    · obtain ⟨hhead, htail⟩ := List.isChain_cons.1 h
      rw [Run.before, if_pos hplain]
      refine List.isChain_cons.2 ⟨fun t ht hboth => hhead t ht ⟨hplain.2, hboth.2⟩, htail⟩
    · rw [Run.before, if_neg hplain]
      exact List.isChain_cons_cons.2 ⟨hplain, h⟩

theorem Run.apart_merge (runs : List Run) : (Run.merge runs).IsChain Run.Apart := by
  induction runs with
  | nil => exact .nil
  | cons r runs ih => exact Run.apart_before ih

/-- A property of runs that joining two plain ones keeps. -/
theorem Run.forall_merge {P : Run → Prop}
    (hjoin : ∀ r s, r.emphasis = none → s.emphasis = none → P r → P s → P ⟨none, r.text ++ s.text⟩)
    {runs : List Run} (h : ∀ r ∈ runs, P r) : ∀ r ∈ Run.merge runs, P r := by
  induction runs with
  | nil => exact List.forall_mem_nil _
  | cons r runs ih =>
    obtain ⟨hr, hruns⟩ := List.forall_mem_cons.1 h
    have hmerged := ih hruns
    rw [Run.merge_cons]
    cases hmerge : Run.merge runs with
    | nil => simpa [Run.before] using hr
    | cons s merged =>
      rw [hmerge] at hmerged
      obtain ⟨hs, hrest⟩ := List.forall_mem_cons.1 hmerged
      by_cases hplain : r.emphasis = none ∧ s.emphasis = none
      · rw [Run.before, if_pos hplain]
        exact List.forall_mem_cons.2 ⟨hjoin r s hplain.1 hplain.2 hr hs, hrest⟩
      · rw [Run.before, if_neg hplain]
        exact List.forall_mem_cons.2 ⟨hr, hmerged⟩

theorem Item.merged_of_apart {i : Item} (h : i.Apart) : i.merged = i := by
  cases i with
  | title t => rfl
  | body s => rw [Item.merged, Run.merge_of_apart h]

theorem Item.apart_merged (i : Item) : i.merged.Apart := by
  cases i with
  | title t => trivial
  | body s => exact Run.apart_merge s.content

/-! ## Plain texts -/

theorem isPlain_append {s t : String} (hs : IsPlain s) (ht : ∀ c ∈ t.toList, endsText c = false) :
    IsPlain (s ++ t) := by
  obtain ⟨⟨c, hc, hblank⟩, hplain⟩ := hs
  obtain ⟨cs, hcs⟩ := List.head?_eq_some_iff.1 hc
  refine ⟨⟨c, by simp [hcs], hblank⟩, fun d hd => ?_⟩
  rw [String.toList_append] at hd
  rcases List.mem_append.1 hd with hd | hd
  · exact hplain d hd
  · exact ht d hd

theorem isPlain_of_visible {s : String} (hs : s ≠ "")
    (h : ∀ c ∈ s.toList, Text.isBlank c = false ∧ endsText c = false) : IsPlain s := by
  cases hcs : s.toList with
  | nil => exact absurd (String.toList_eq_nil_iff.1 hcs) hs
  | cons c cs =>
    rw [hcs] at h
    refine ⟨⟨c, by simp [hcs], (h c List.mem_cons_self).1⟩, ?_⟩
    rw [hcs]
    exact fun d hd => (h d hd).2

theorem isPlain_join {ss : List String} (h : ∀ s ∈ ss, IsPlain s) :
    String.join ss = "" ∨ IsPlain (String.join ss) := by
  cases ss with
  | nil => exact .inl rfl
  | cons s ss =>
    obtain ⟨hs, hss⟩ := List.forall_mem_cons.1 h
    refine .inr ?_
    rw [String.join_cons]
    refine isPlain_append hs fun c hc => ?_
    rw [String.toList_join] at hc
    obtain ⟨t, ht, hct⟩ := List.mem_flatMap.1 hc
    exact (hss t ht).2 c hct

theorem Item.plain_merged {i : Item} (h : i.Plain) : i.merged.Plain := by
  cases i with
  | title t => exact h
  | body s =>
    have hjoin : ∀ r s : Run, r.emphasis = none → s.emphasis = none →
        IsPlain r.text → IsPlain s.text → IsPlain (r.text ++ s.text) :=
      fun _ _ _ _ hr hs => isPlain_append hr hs.2
    exact Run.forall_merge (P := fun r => IsPlain r.text) hjoin h

theorem Item.printable_merged {i : Item} (h : i.Printable) : i.merged.Printable := by
  cases i with
  | title t => exact h
  | body s => exact ⟨h.1, Item.plain_merged (i := .body s) h.2⟩

/-! ### Numbers of titles -/

/-- The first text, then each further one behind the separator. -/
theorem toList_intercalate_cons (sep s : String) (ss : List String) :
    (sep.intercalate (s :: ss)).toList =
      s.toList ++ ss.flatMap fun t => sep.toList ++ t.toList := by
  induction ss generalizing s with
  | nil => simp
  | cons t ss ih =>
    rw [String.intercalate_cons_cons, String.toList_append, String.toList_append, ih,
      List.flatMap_cons]
    simp

theorem toList_intercalate_append (sep : String) (ls : List String) (l : String)
    (ls' : List String) :
    (sep.intercalate (ls ++ l :: ls')).toList =
      (ls.flatMap fun l => l.toList ++ sep.toList) ++ (sep.intercalate (l :: ls')).toList := by
  induction ls with
  | nil => rfl
  | cons m ls ih =>
    have hne : ls ++ l :: ls' ≠ [] := by simp
    obtain ⟨m', ms, hms⟩ := List.exists_cons_of_ne_nil hne
    rw [List.cons_append, hms, String.intercalate_cons_cons, ← hms]
    simp [ih]

theorem mem_toList_intercalate {sep : String} {ss : List String} {c : Char}
    (h : c ∈ (sep.intercalate ss).toList) : c ∈ sep.toList ∨ ∃ s ∈ ss, c ∈ s.toList := by
  cases ss with
  | nil => simp at h
  | cons s ss =>
    rw [toList_intercalate_cons] at h
    simp only [List.mem_append, List.mem_flatMap] at h
    rcases h with h | ⟨t, ht, h | h⟩
    · exact .inr ⟨s, List.mem_cons_self, h⟩
    · exact .inl h
    · exact .inr ⟨t, List.mem_cons_of_mem s ht, h⟩

theorem isPlain_number (c : TitleNumber.Counters) (start level : Nat) :
    IsPlain (c.number start level ++ ".") := by
  refine isPlain_of_visible (fun h => by simpa using congrArg String.toList h) fun d hd => ?_
  have hdot : Text.isBlank '.' = false ∧ endsText '.' = false := by decide
  rw [String.toList_append] at hd
  rcases List.mem_append.1 hd with hd | hd
  · rcases mem_toList_intercalate hd with hd | ⟨s, hs, hd⟩
    · obtain rfl : d = '.' := by simpa using hd
      exact hdot
    · obtain ⟨l, -, rfl⟩ := List.mem_map.1 hs
      rw [show (toString (c.get l)).toList = Nat.toDigits 10 (c.get l) from Nat.toList_repr] at hd
      have hdigit := Nat.isDigit_of_mem_toDigits (by decide) (by decide) hd
      exact ⟨isBlank_of_isDigit hdigit, endsText_of_isDigit hdigit⟩
  · obtain rfl : d = '.' := by simpa using hd
    exact hdot

/-- The number of a title is free text, and so is the title behind it. -/
theorem plain_numberTitle {c : TitleNumber.Counters} {start : UInt32} {t : Title}
    (h : (Item.title t).Plain) : (Item.title (TitleNumber.numberTitle c start t)).Plain := by
  refine .inr ?_
  have hsplit : c.number start.toNat t.level.toNat ++ ". " ++ t.text =
      c.number start.toNat t.level.toNat ++ "." ++ (" " ++ t.text) := by
    rw [← String.toList_inj]
    simp
  have htext : ∀ d ∈ (" " ++ t.text).toList, endsText d = false := by
    intro d hd
    rw [String.toList_append] at hd
    rcases List.mem_append.1 hd with hd | hd
    · obtain rfl : d = ' ' := by simpa using hd
      decide
    · rcases h with htext | htext
      · simp [htext] at hd
      · exact htext.2 d hd
  show IsPlain (c.number start.toNat t.level.toNat ++ ". " ++ t.text)
  rw [hsplit]
  exact isPlain_append (isPlain_number c _ _) htext

theorem printable_numberTitle {c : TitleNumber.Counters} {start : UInt32} {t : Title}
    (h : (Item.title t).Printable) :
    (Item.title (TitleNumber.numberTitle c start t)).Printable :=
  ⟨h.1, plain_numberTitle h.2⟩

end Folio
