import Folio.Resolve.Signature
import Mathlib.Data.List.Nodup
import Mathlib.Data.List.Sort

/-!
# The faults of arguments

**Arguments by name.** Arguments are the values that they give to names: what a look-up finds is an
entry (`mem_entries_iff`), and arguments with the same look-ups are the same (`eq_of_get?`).

**Theorem (`faults_eq_nil_iff`).** Arguments have no fault just if the signature has each name and
no argument for a text is a number. If a name is unknown, all unknown names are faults, and nothing
else (`faults_of_unknown`); otherwise all numbers in place of texts are (`faults_of_known`).
-/

namespace Folio

/-! ## Arguments by name -/

section Lookup

variable {β : Type} {es : List (String × β)} {name : String} {v : β}

theorem mem_of_lookup_eq_some (h : es.lookup name = some v) : (name, v) ∈ es := by
  obtain ⟨front, back, rfl, -⟩ := List.lookup_eq_some_iff.1 h
  exact List.mem_append_right _ List.mem_cons_self

theorem lookup_eq_some_of_mem (hnodup : (es.map (·.1)).Nodup) (h : (name, v) ∈ es) :
    es.lookup name = some v := by
  obtain ⟨front, back, rfl⟩ := List.append_of_mem h
  rw [List.map_append, List.map_cons, List.nodup_middle, List.nodup_cons, List.mem_append,
    not_or] at hnodup
  refine List.lookup_eq_some_iff.2 ⟨front, back, rfl, fun e he => bne_iff_ne.2 fun heq => ?_⟩
  exact hnodup.1.1 (List.mem_map.2 ⟨e, he, heq.symm⟩)

end Lookup

namespace Arguments

variable (args : Arguments)

theorem nodup_names : args.names.Nodup :=
  List.pairwise_map.2 (args.sorted.imp fun h => String.ne_of_lt h)

theorem mem_entries_iff {name : String} {l : Literal} :
    (name, l) ∈ args.entries ↔ args.get? name = some l :=
  ⟨lookup_eq_some_of_mem args.nodup_names, mem_of_lookup_eq_some⟩

theorem mem_names_iff {name : String} : name ∈ args.names ↔ (args.get? name).isSome := by
  rw [Option.isSome_iff_exists, names, List.mem_map]
  constructor
  · rintro ⟨⟨_, l⟩, hmem, rfl⟩
    exact ⟨l, args.mem_entries_iff.1 hmem⟩
  · rintro ⟨l, hl⟩
    exact ⟨(name, l), args.mem_entries_iff.2 hl, rfl⟩

/-- Arguments that give each name the same value are the same. -/
theorem eq_of_get? {args args' : Arguments} (h : ∀ name, args.get? name = args'.get? name) :
    args = args' := by
  have : Std.Irrefl fun a b : String × Literal => a.1 < b.1 := ⟨fun a => String.lt_irrefl a.1⟩
  have : Std.Antisymm fun a b : String × Literal => a.1 < b.1 :=
    ⟨fun a b hab hba => absurd hba (String.lt_asymm hab)⟩
  have hentries : args.entries = args'.entries :=
    List.Pairwise.eq_of_mem_iff args.sorted args'.sorted fun e => by
      rw [mem_entries_iff, mem_entries_iff, h]
  cases args
  cases args'
  cases hentries
  rfl

/-- A new argument stands somewhere among the others. -/
theorem exists_entries_insert {name : String} {l : Literal} (h : args.get? name = none) :
    ∃ front back, args.entries = front ++ back ∧
      (args.insert name l).entries = front ++ (name, l) :: back := by
  obtain ⟨es, hsorted⟩ := args
  simp only [get?, insert] at h ⊢
  clear hsorted
  induction es with
  | nil => exact ⟨[], [], rfl, rfl⟩
  | cons e es ih =>
    rw [lookup_cons] at h
    split_ifs at h with hname
    obtain ⟨front, back, hes, hinsert⟩ := ih h
    unfold insertEntry
    split_ifs with hlt
    · exact ⟨[], e :: es, rfl, rfl⟩
    · exact ⟨e :: front, back, congrArg (e :: ·) hes, congrArg (e :: ·) hinsert⟩

end Arguments

/-! ## What is wrong with arguments -/

namespace Signature

variable {signature : Signature} {keyword : Keyword} {args : Arguments} {name : String}

theorem mem_unknownNames_iff :
    name ∈ signature.unknownNames args ↔ (args.get? name).isSome ∧ name ∉ signature.names := by
  rw [unknownNames, List.mem_filter, Arguments.mem_names_iff, mem_names_iff,
    Option.not_isSome_iff_eq_none, Option.isNone_iff_eq_none]

theorem mem_numbersForText_iff {e : String × Int} :
    e ∈ signature.numbersForText args ↔
      args.get? e.1 = some (.number e.2) ∧ signature.lookup e.1 = some .text := by
  obtain ⟨name, v⟩ := e
  rw [numbersForText, List.mem_filterMap, ← Arguments.mem_entries_iff]
  constructor
  · rintro ⟨⟨name', l⟩, hmem, hl⟩
    cases l with
    | text s => cases hl
    | number w =>
      obtain ⟨hlookup, heq⟩ := Option.ite_none_right_eq_some.1 hl
      cases heq
      exact ⟨hmem, hlookup⟩
  · rintro ⟨hmem, hlookup⟩
    exact ⟨_, hmem, if_pos hlookup⟩

theorem unknownNames_eq_nil_iff : signature.unknownNames args = [] ↔
    ∀ name, (args.get? name).isSome → name ∈ signature.names := by
  simp [List.eq_nil_iff_forall_not_mem, mem_unknownNames_iff]

theorem numbersForText_eq_nil_iff : signature.numbersForText args = [] ↔
    ∀ name v, args.get? name = some (.number v) → signature.lookup name ≠ some .text := by
  simp [List.eq_nil_iff_forall_not_mem, mem_numbersForText_iff]

theorem faults_of_unknown (keyword : Keyword) (h : signature.unknownNames args ≠ []) :
    signature.faults keyword args = (signature.unknownNames args).map fun name =>
      .unknownArgument keyword name signature.names := by
  unfold faults
  split
  · next hnil => exact absurd hnil h
  · rfl

theorem faults_of_known (keyword : Keyword)
    (h : ∀ name, (args.get? name).isSome → name ∈ signature.names) :
    signature.faults keyword args =
      (signature.numbersForText args).map fun e => .numberForText keyword e.1 e.2 := by
  rw [faults, unknownNames_eq_nil_iff.2 h]

/-- **No fault** means that each name is one of the signature, and that no text is a number. -/
theorem faults_eq_nil_iff : signature.faults keyword args = [] ↔
    (∀ name, (args.get? name).isSome → name ∈ signature.names) ∧
      ∀ name v, args.get? name = some (.number v) → signature.lookup name ≠ some .text := by
  constructor
  · intro h
    have hknown : signature.unknownNames args = [] := by
      by_contra hne
      rw [faults_of_unknown keyword hne] at h
      exact hne (List.map_eq_nil_iff.1 h)
    have hknown := unknownNames_eq_nil_iff.1 hknown
    rw [faults_of_known keyword hknown] at h
    exact ⟨hknown, numbersForText_eq_nil_iff.1 (List.map_eq_nil_iff.1 h)⟩
  · rintro ⟨hknown, hnumbers⟩
    rw [faults_of_known keyword hknown, numbersForText_eq_nil_iff.2 hnumbers]
    rfl

/-- A new argument that fits the signature changes no fault. -/
theorem faults_insert {kind : ArgumentKind} {l : Literal} (hnew : args.get? name = none)
    (hname : signature.lookup name = some kind) (hl : kind = .text → ∃ s, l = .text s) :
    signature.faults keyword (args.insert name l) = signature.faults keyword args := by
  obtain ⟨front, back, hentries, hinsert⟩ := args.exists_entries_insert (l := l) hnew
  have hunknown : signature.unknownNames (args.insert name l) = signature.unknownNames args := by
    rw [unknownNames, unknownNames, Arguments.names, Arguments.names, hinsert, hentries]
    simp [hname]
  have hnumbers : signature.numbersForText (args.insert name l) =
      signature.numbersForText args := by
    rw [numbersForText, numbersForText, hinsert, hentries]
    cases l with
    | text s => simp
    | number n =>
      have hkind : kind ≠ .text := fun hkind => by
        obtain ⟨s, hs⟩ := hl hkind
        cases hs
      simp [hname, hkind]
  rw [faults, faults, hunknown, hnumbers]

end Signature

end Folio
