import Folio.Proofs.Parameters
import Folio.Proofs.Reordering

/-!
# Defaults that are written out

**Filled in** (`Instruction.filled`). An instruction is filled in by an argument for each of its
parameters that has none, with the default of the parameter as the value.

**Theorem (`defaults_can_be_written_out`).** With accepted settings, an instruction and the same one
filled in lead from any state to the same state. A document whose only `$pageNumber` has no
arguments has the page numbers of the document without it.

A verdict depends on the arguments by their faults and by what is read for each parameter
(`judge_withArguments`). An argument that is added has a name of the signature and a value of its
kind, so it is no fault. Its value passes the check of its parameter, because the settings have been
checked for that (`read?_of_literal`), so it is read as if it were not there.
-/

namespace Folio

/-! ## Filling in -/

/-- The value of a field, written as an argument. -/
def FieldValue.literal : FieldValue → Literal
  | text s => .text s
  | number n => .number n.toNat
  | position p => .text p.name

namespace Arguments

/-- The default of a parameter that has no argument is added. -/
def supply (args : Arguments) (p : Parameter) : Arguments :=
  match args.get? p.name, p.kind.fallback? with
  | none, some v => args.insert p.name v.literal
  | _, _ => args

/-- The default is added for each parameter that has no argument. -/
def filled (args : Arguments) (parameters : List Parameter) : Arguments :=
  parameters.foldl supply args

end Arguments

namespace Instruction

/-- The instruction with its defaults written out. -/
def filled (settings : Settings) (i : Instruction) : Instruction :=
  i.withArguments (i.arguments.filled (i.keyword.parameters settings))

end Instruction

namespace Arguments

variable {args : Arguments} {p : Parameter}

theorem supply_of_absent {v : FieldValue} (h : args.get? p.name = none)
    (hv : p.kind.fallback? = some v) : args.supply p = args.insert p.name v.literal := by
  simp only [supply, h, hv]

theorem supply_of_present {l : Literal} (h : args.get? p.name = some l) : args.supply p = args := by
  simp only [supply, h]

theorem supply_of_required (h : p.kind.fallback? = none) : args.supply p = args := by
  unfold supply
  rw [h]
  cases args.get? p.name <;> rfl

theorem get?_supply (args : Arguments) (p : Parameter) (name : String) :
    (args.supply p).get? name = (args.get? name).or
      (if name = p.name then p.kind.fallback?.map (·.literal) else none) := by
  cases hl : args.get? p.name with
  | some l =>
    rw [supply_of_present hl]
    by_cases hname : name = p.name
    · subst hname
      simp [hl]
    · simp [hname]
  | none =>
    cases hv : p.kind.fallback? with
    | none =>
      rw [supply_of_required hv]
      simp
    | some v =>
      rw [supply_of_absent hl hv, get?_insert]
      by_cases hname : name = p.name
      · subst hname
        simp [hl]
      · simp [hname]

/-- What a look-up finds if the defaults are written out. -/
theorem get?_filled (args : Arguments) {parameters : List Parameter}
    (hnodup : (parameters.map (·.name)).Nodup) {p : Parameter} (hp : p ∈ parameters) :
    (args.filled parameters).get? p.name =
      (args.get? p.name).or (p.kind.fallback?.map (·.literal)) := by
  have hother : ∀ (ps : List Parameter) (args : Arguments), p.name ∉ ps.map (·.name) →
      (args.filled ps).get? p.name = args.get? p.name := by
    intro ps
    induction ps with
    | nil => exact fun _ _ => rfl
    | cons q ps ih =>
      intro args hnot
      obtain ⟨hne, hnot⟩ := not_or.1 (mt List.mem_cons.2 hnot)
      rw [filled, List.foldl_cons, ← filled, ih _ hnot, get?_supply, if_neg hne, Option.or_none]
  induction parameters generalizing args with
  | nil => cases hp
  | cons q ps ih =>
    obtain ⟨hfresh, hnodup⟩ := List.nodup_cons.1 hnodup
    rw [filled, List.foldl_cons, ← filled]
    rcases List.mem_cons.1 hp with rfl | hp
    · rw [hother ps _ hfresh, get?_supply, if_pos rfl]
    · have hne : p.name ≠ q.name := fun heq => hfresh (List.mem_map.2 ⟨p, hp, heq⟩)
      rw [ih (args.supply q) hnodup hp, get?_supply, if_neg hne, Option.or_none]

end Arguments

/-! ## What is read for a default -/

namespace Parameter

variable {settings : Settings} {args args' : Arguments} {p : Parameter}

theorem read?_congr (h : args.get? p.name = args'.get? p.name) :
    p.read? settings args = p.read? settings args' := by
  obtain ⟨name, kind⟩ := p
  cases kind <;>
    simp_all [read?, Arguments.text?, Arguments.font, Arguments.color, Arguments.position,
      Arguments.number]

/-- A default that is written out is read as it is. -/
theorem read?_of_literal {v : FieldValue} (hs : p.kind.Sound settings)
    (hv : p.kind.fallback? = some v) (hl : args.get? p.name = some v.literal) :
    p.read? settings args = some (.plain v) := by
  obtain ⟨name, kind⟩ := p
  have htext : ∀ {s}, v.literal = .text s → args.text? name = some s := fun h => by
    rw [Arguments.text?, hl, h]
  cases kind <;> cases hv
  case text => simp [read?, htext rfl]
  case font => simp [read?, Arguments.font_of_text? (htext rfl) hs, Corrected.map, Corrected.plain]
  case color =>
    simp [read?, Arguments.color_of_text? (htext rfl) hs, Corrected.map, Corrected.plain]
  case position =>
    simp [read?, Arguments.position_of_text? (htext rfl), Corrected.map, Corrected.plain]
  case number => simp [read?, Arguments.number_of_get? hl hs, Corrected.map, Corrected.plain]

theorem literal_fits {v : FieldValue} (hv : p.kind.fallback? = some v)
    (hkind : p.kind.argumentKind = .text) : ∃ s, v.literal = .text s := by
  obtain ⟨name, kind⟩ := p
  cases kind <;> cases hv <;> first | exact ⟨_, rfl⟩ | cases hkind

end Parameter

namespace Resolution

variable {settings : Settings} {r : Resolution}

/-! ## Defaults that are added -/

/-- **One default** that is added leaves the verdict as it is. -/
theorem judge_supply (hs : settings.Sound) {i : Instruction} {p : Parameter}
    (hp : p ∈ i.keyword.parameters settings) (args : Arguments) :
    r.judge settings (i.withArguments (args.supply p)) =
      r.judge settings (i.withArguments args) := by
  cases hl : args.get? p.name with
  | some l => rw [Arguments.supply_of_present hl]
  | none =>
    cases hv : p.kind.fallback? with
    | none => rw [Arguments.supply_of_required hv]
    | some v =>
      rw [Arguments.supply_of_absent hl hv]
      refine judge_withArguments ?_ fun q hq => ?_
      · exact Signature.faults_insert hl (Keyword.lookup_signature hp) (Parameter.literal_fits hv)
      · by_cases hname : q.name = p.name
        · obtain rfl : q = p := List.inj_on_of_nodup_map
            (i.keyword.nodup_names_parameters settings) hq hp hname
          rw [Parameter.read?_of_literal (hs.parameters _ q hp) hv
            ((args.get?_insert ..).trans (if_pos rfl)), Parameter.read?_of_absent hl, hv]
          rfl
        · exact Parameter.read?_congr ((args.get?_insert ..).trans (if_neg hname))

/-- **Any number of defaults** that are added. -/
theorem judge_filled (hs : settings.Sound) {i : Instruction} {parameters : List Parameter}
    (h : ∀ p ∈ parameters, p ∈ i.keyword.parameters settings) (args : Arguments) :
    r.judge settings (i.withArguments (args.filled parameters)) =
      r.judge settings (i.withArguments args) := by
  induction parameters generalizing args with
  | nil => rfl
  | cons p ps ih =>
    obtain ⟨hp, hps⟩ := List.forall_mem_cons.1 h
    rw [Arguments.filled, List.foldl_cons, ← Arguments.filled, ih hps, judge_supply hs hp]

theorem step_filled (hs : settings.Sound) (r : Resolution) (i : Instruction) :
    r.step settings (i.filled settings) = r.step settings i := by
  rw [step, Instruction.filled, judge_filled hs fun _ hp => hp, Instruction.withArguments_arguments]
  rfl

end Resolution

/-! ## Page numbers without arguments -/

namespace Instruction

variable {settings : Settings}

theorem pageNumber?_eq_none {i : Instruction} (h : i.keyword ≠ .directive .pageNumber) :
    i.pageNumber? settings = none := by
  cases hn : i.pageNumber? settings with
  | none => rfl
  | some n =>
    obtain ⟨args, line, rfl⟩ := Resolution.exists_of_pageNumber? hn
    exact absurd rfl h

/-- Without arguments, `$pageNumber` gives the page numbers of the settings. -/
theorem pageNumber?_empty (settings : Settings) (line : Nat) :
    (directive .pageNumber .empty line).pageNumber? settings = some settings.pageNumber := rfl

end Instruction

theorem Model.pageNumber_ofInstructions (settings : Settings) (is : List Instruction) :
    (ofInstructions settings is).pageNumber =
      (is.filterMap (Instruction.pageNumber? settings)).head?.getD settings.pageNumber :=
  congrArg (·.getD settings.pageNumber) (Resolution.settled_foldl_step settings is).pageNumber

/-- **Defaults can be written out.** With accepted settings and in any state, an instruction and the
same one with its defaults as further arguments lead to the same state. If the only `$pageNumber` of
a document has no arguments, the document without it has the same page numbers. -/
theorem defaults_can_be_written_out {layers : List Layer} {settings : Settings}
    (h : Settings.ofLayers layers = .ok settings) :
    (∀ (r : Resolution) (i : Instruction),
      r.step settings (i.filled settings) = r.step settings i) ∧
    ∀ (front back : List Instruction) (line : Nat),
      (∀ j ∈ front ++ back, j.keyword ≠ .directive .pageNumber) →
      (Model.ofInstructions settings
        (front ++ .directive .pageNumber .empty line :: back)).pageNumber =
      (Model.ofInstructions settings (front ++ back)).pageNumber := by
  have hs := Settings.sound_of_flaws (Settings.flaws_of_ofLayers h)
  refine ⟨Resolution.step_filled hs, fun front back line hother => ?_⟩
  have hnone : ∀ j ∈ front ++ back, j.pageNumber? settings = none := fun j hj =>
    Instruction.pageNumber?_eq_none (hother j hj)
  have hfront := List.filterMap_eq_nil_iff.2 fun j hj => hnone j (List.mem_append_left back hj)
  have hback := List.filterMap_eq_nil_iff.2 fun j hj => hnone j (List.mem_append_right front hj)
  rw [Model.pageNumber_ofInstructions, Model.pageNumber_ofInstructions, List.filterMap_append,
    List.filterMap_append, List.filterMap_cons, Instruction.pageNumber?_empty, hfront, hback]
  rfl

theorem defaults_can_be_written_out_style :
    let i : Instruction :=
      .directive .style (.ofList [("name", .text "s"), ("font", .text "Papyrus")]) 1
    let j : Instruction := .directive .style (.ofList [("fontSize", .number 900)]) 2
    Settings.ofLayers [] = .ok .standard ∧
      (i.filled .standard).arguments.entries = [("font", .text "Papyrus"),
        ("fontColor", .text "black"), ("fontSize", .number 12), ("name", .text "s")] ∧
      (∀ r : Resolution, r.step .standard (i.filled .standard) = r.step .standard i ∧
        r.step .standard (j.filled .standard) = r.step .standard j) ∧
      (∀ k ∈ [i] ++ [j], k.keyword ≠ .directive .pageNumber) ∧
      (Model.ofInstructions .standard
        ([i] ++ .directive .pageNumber .empty 3 :: [j])).pageNumber =
      (Model.ofInstructions .standard ([i] ++ [j])).pageNumber := by
  intro i j
  have hkeywords : ∀ k ∈ [i] ++ [j], k.keyword ≠ .directive .pageNumber := by
    rintro k (_ | ⟨_, _ | ⟨_, ⟨⟩⟩⟩) <;> decide
  obtain ⟨hstep, hpages⟩ := defaults_can_be_written_out Settings.ofLayers_nil
  exact ⟨Settings.ofLayers_nil, by decide +kernel, fun r => ⟨hstep r i, hstep r j⟩, hkeywords,
    hpages [i] [j] 3 hkeywords⟩

end Folio
