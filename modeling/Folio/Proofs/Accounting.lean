import Folio.Proofs.Parameters

/-!
# Every argument is accounted for

**Carried** (`Change.Carries`). An argument is carried by a change if the field of its name holds
what the argument says.

**Theorem (`no_argument_ignored`).** With accepted settings, an instruction with an argument that
none of its parameters has is rejected. If it is accepted, each field holds what its argument says
or the default, the default if there is no such argument, and there are as many new warnings as
arguments that were not carried.

The warnings are counted by parameters and the arguments by entries. The two counts agree because
the entries of an accepted instruction are, up to order, the parameters that have an argument
(`Arguments.perm_entries`).
-/

namespace Folio

/-- The field of the argument's name holds what the argument says. -/
def Change.Carries (c : Change) (e : String × Literal) : Prop :=
  ∃ v, c.field? e.1 = some v ∧ e.2.Says v

instance (c : Change) (e : String × Literal) : Decidable (c.Carries e) :=
  match h : c.field? e.1 with
  | none => .isFalse (by rintro ⟨v, hv, -⟩; rw [h] at hv; cases hv)
  | some v => decidable_of_iff (e.2.Says v) ⟨fun hs => ⟨v, h, hs⟩, by
      rintro ⟨w, hw, hs⟩
      rw [h] at hw
      cases hw
      exact hs⟩

/-! ## Entries and look-ups -/

namespace Arguments

variable (args : Arguments)

/-- Entries under known names, looked up name by name. -/
theorem perm_entries {names : List String} (hnodup : names.Nodup)
    (h : ∀ e ∈ args.entries, e.1 ∈ names) :
    args.entries.Perm (names.filterMap fun name => (args.get? name).map (name, ·)) := by
  have hentries : args.entries.Nodup := args.nodup_names.of_map _
  have hfound : (names.filterMap fun name => (args.get? name).map (name, ·)).Nodup := by
    refine hnodup.filterMap fun a b e ha hb => ?_
    obtain ⟨l, -, rfl⟩ := Option.map_eq_some_iff.1 ha
    obtain ⟨l', -, heq⟩ := Option.map_eq_some_iff.1 hb
    exact (congrArg Prod.fst heq).symm
  rw [List.perm_ext_iff_of_nodup hentries hfound]
  rintro ⟨name, l⟩
  constructor
  · intro hmem
    have hget := args.mem_entries_iff.1 hmem
    exact List.mem_filterMap.2 ⟨name, h _ hmem, by rw [hget]; rfl⟩
  · intro hmem
    obtain ⟨a, -, ha⟩ := List.mem_filterMap.1 hmem
    obtain ⟨l', hget, heq⟩ := Option.map_eq_some_iff.1 ha
    cases heq
    exact args.mem_entries_iff.2 hget

end Arguments

/-! ## Warnings and arguments -/

theorem length_flatMap_eq_countP {α β : Type} {f : α → List β} {q : α → Bool} {l : List α}
    (h : ∀ a ∈ l, (f a).length = if q a then 1 else 0) : (l.flatMap f).length = l.countP q := by
  induction l with
  | nil => rfl
  | cons a l ih =>
    obtain ⟨ha, hl⟩ := List.forall_mem_cons.1 h
    rw [List.flatMap_cons, List.length_append, ha, ih hl, List.countP_cons, Nat.add_comm]

namespace Resolution

variable {settings : Settings} {r : Resolution} {i : Instruction} {c : Change}
  {corrections : List Correction}

/-- What becomes of the argument of a parameter. -/
theorem outcome_of_accepts (hs : settings.Sound) (ha : Accepts settings r i c corrections)
    {p : Parameter} (hp : p ∈ i.keyword.parameters settings) {l : Literal}
    (hl : i.arguments.get? p.name = some l) :
    ∃ v, p.read? settings i.arguments = some v ∧ c.field? p.name = some v.value ∧
      p.Outcome l v := by
  have htext : p.kind.argumentKind = .text → ∃ s, l = .text s := fun hkind => by
    have hlookup := Keyword.lookup_signature hp
    rw [hkind] at hlookup
    obtain ⟨s, hs, -⟩ := Arguments.text?_of_wellSigned (faults_of_accepts ha) hlookup hl
    exact ⟨s, hs⟩
  obtain ⟨v, hread, hout⟩ := Parameter.outcome_of_present (hs.parameters _ p hp) hl htext
  obtain ⟨w, hread', hfield⟩ := field?_of_accepts ha p hp
  rw [hread, Option.some.injEq] at hread'
  subst hread'
  exact ⟨v, hread, hfield, hout⟩

/-- A parameter is corrected once if its argument is not carried. -/
theorem length_corrections (hs : settings.Sound) (ha : Accepts settings r i c corrections) :
    ∀ p ∈ i.keyword.parameters settings, (p.corrections settings i.arguments).length =
      if (i.arguments.get? p.name).any fun l => !decide (c.Carries (p.name, l)) then 1 else 0 := by
  intro p hp
  cases hl : i.arguments.get? p.name with
  | none =>
    rw [Parameter.corrections, Parameter.read?_of_absent hl]
    cases p.kind.fallback? <;> rfl
  | some l =>
    obtain ⟨v, hread, hfield, hout⟩ := outcome_of_accepts hs ha hp hl
    have hcarries : c.Carries (p.name, l) ↔ l.Says v.value := by
      simp [Change.Carries, hfield]
    rw [Parameter.corrections, hread]
    rcases hout with ⟨hholds, hplain⟩ | ⟨hnot, -, fix, hfix⟩
    · simp [hplain, hcarries, hholds]
    · simp [hfix, hcarries, hnot]

/-- **The corrections count the arguments** that were not carried. -/
theorem length_corrections_of_accepts (hs : settings.Sound)
    (ha : Accepts settings r i c corrections) :
    corrections.length = i.arguments.entries.countP fun e => !decide (c.Carries e) := by
  have hnames : ∀ e ∈ i.arguments.entries, e.1 ∈ (i.keyword.parameters settings).map (·.name) := by
    intro e he
    rw [Keyword.names_parameters]
    exact (Signature.faults_eq_nil_iff.1 (faults_of_accepts ha)).1 _
      (i.arguments.mem_names_iff.1 (List.mem_map.2 ⟨e, he, rfl⟩))
  have hperm := i.arguments.perm_entries (i.keyword.nodup_names_parameters settings) hnames
  rw [corrections_of_accepts ha, length_flatMap_eq_countP (length_corrections hs ha),
    hperm.countP_eq, List.countP_filterMap, List.countP_map]
  refine List.countP_congr fun p _ => ?_
  cases hl : i.arguments.get? p.name <;> simp [hl]

/-- An argument that no parameter has. -/
theorem rejected_of_unread {name : String} (hname : (i.arguments.get? name).isSome)
    (hunread : name ∉ (i.keyword.parameters settings).map (·.name)) :
    r.Rejected (r.step settings i) := by
  cases hj : r.judge settings i with
  | rejected errors =>
    obtain ⟨hne, he⟩ := errors_of_judge_eq_rejected hj
    exact ⟨errors, hne, he, step_of_rejected hj⟩
  | accepted c warnings =>
    obtain ⟨corrections, ha, -⟩ := judge_eq_accepted_iff.1 hj
    rw [Keyword.names_parameters] at hunread
    exact absurd ((Signature.faults_eq_nil_iff.1 (faults_of_accepts ha)).1 name hname) hunread

theorem names_fields_of_accepts (ha : Accepts settings r i c corrections) :
    c.fields.map (·.1) = (i.keyword.parameters settings).map (·.name) := by
  cases ha <;> rfl

/-- What a field holds, and why. -/
theorem accounted_of_accepts (hs : settings.Sound) (ha : Accepts settings r i c corrections) :
    ∀ p ∈ i.keyword.parameters settings, ∃ v, c.field? p.name = some v ∧
      (∀ l, i.arguments.get? p.name = some l → l.Says v ∨ p.kind.fallback? = some v) ∧
      (i.arguments.get? p.name = none → p.kind.fallback? = some v) := by
  intro p hp
  cases hl : i.arguments.get? p.name with
  | none =>
    obtain ⟨v, hread, hfield⟩ := field?_of_accepts ha p hp
    rw [Parameter.read?_of_absent hl] at hread
    obtain ⟨w, hfallback, rfl⟩ := Option.map_eq_some_iff.1 hread
    exact ⟨w, hfield, nofun, fun _ => hfallback⟩
  | some l =>
    obtain ⟨v, -, hfield, hout⟩ := outcome_of_accepts hs ha hp hl
    refine ⟨v.value, hfield, ?_, nofun⟩
    rintro _ ⟨⟩
    rcases hout with ⟨hholds, -⟩ | ⟨-, hfallback, -⟩
    · exact .inl hholds
    · exact .inr hfallback

end Resolution

/-- **No argument is ignored.** With accepted settings and in any state, an instruction with an
argument that none of its parameters has is rejected. An accepted instruction has a field for each
parameter. It holds what the argument says or the default, and the default if there is no argument;
there are as many new warnings as arguments that were not carried. -/
theorem no_argument_ignored {layers : List Layer} {settings : Settings}
    (h : Settings.ofLayers layers = .ok settings) (r : Resolution) (i : Instruction) :
    (∀ name, (i.arguments.get? name).isSome →
      name ∉ (i.keyword.parameters settings).map (·.name) → r.Rejected (r.step settings i)) ∧
    ((r.step settings i).diagnostics.errors = r.diagnostics.errors →
      ∃ c warnings,
        r.step settings i = { r.change c with
          diagnostics := ⟨r.diagnostics.errors, r.diagnostics.warnings ++ warnings⟩ } ∧
        c.fields.map (·.1) = (i.keyword.parameters settings).map (·.name) ∧
        (∀ p ∈ i.keyword.parameters settings, ∃ v, c.field? p.name = some v ∧
          (∀ l, i.arguments.get? p.name = some l → l.Says v ∨ p.kind.fallback? = some v) ∧
          (i.arguments.get? p.name = none → p.kind.fallback? = some v)) ∧
        warnings.length = i.arguments.entries.countP fun e => !decide (c.Carries e)) := by
  have hs := Settings.sound_of_flaws (Settings.flaws_of_ofLayers h)
  refine ⟨fun _ => Resolution.rejected_of_unread, fun haccepted => ?_⟩
  obtain ⟨c, warnings, hj⟩ := Resolution.errors_step_eq_iff.1 haccepted
  obtain ⟨corrections, ha, hwarnings⟩ := Resolution.judge_eq_accepted_iff.1 hj
  refine ⟨c, warnings, Resolution.step_of_accepted hj, Resolution.names_fields_of_accepts ha,
    Resolution.accounted_of_accepts hs ha, ?_⟩
  rw [hwarnings, List.length_map]
  exact Resolution.length_corrections_of_accepts hs ha

/-- A size with a sign and blanks is carried, and a font that is not registered is not. -/
theorem no_argument_ignored_style :
    let read : Instruction := .directive .style (.ofList [("name", .text "s"),
      ("fontSize", .text " +14 "), ("font", .text "Papyrus")]) 1
    let unread : Instruction := .directive .style (.ofList [("weight", .number 7)]) 2
    let r := Resolution.start .standard
    Settings.ofLayers [] = .ok .standard ∧
      (unread.arguments.get? "weight").isSome ∧ r.Rejected (r.step .standard unread) ∧
      (r.step .standard read).diagnostics.errors = r.diagnostics.errors ∧
      ∃ c warnings,
        r.step .standard read = { r.change c with
          diagnostics := ⟨r.diagnostics.errors, r.diagnostics.warnings ++ warnings⟩ } ∧
        (∃ v, c.field? "fontSize" = some v ∧
          (Literal.Says (.text " +14 ") v ∨ v = .number 12)) ∧
        warnings.length = read.arguments.entries.countP fun e => !decide (c.Carries e) := by
  intro read unread r
  have haccepted : (r.step .standard read).diagnostics.errors = r.diagnostics.errors := by
    decide +kernel
  have hread := no_argument_ignored Settings.ofLayers_nil r read
  have hunread := no_argument_ignored Settings.ofLayers_nil r unread
  obtain ⟨c, warnings, hstep, -, hfields, hcount⟩ := hread.2 haccepted
  obtain ⟨v, hv, hholds, -⟩ := hfields
    ⟨"fontSize", .number Settings.standard.limits.fontSize 12⟩ (by decide +kernel)
  refine ⟨Settings.ofLayers_nil, by decide, hunread.1 "weight" (by decide) (by decide +kernel),
    haccepted, c, warnings, hstep, ⟨v, hv, ?_⟩, hcount⟩
  exact (hholds _ (by decide +kernel)).imp_right fun hfallback => (Option.some.inj hfallback).symm

end Folio
