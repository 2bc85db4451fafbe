import Folio.Proofs.Denotation
import Folio.Proofs.Growth
import Folio.Proofs.Roundtrip

/-!
# Parameters

What an instruction can be told by its arguments, and what comes of it.

**Parameters** (`Keyword.parameters`). A keyword has a parameter for each name of its signature. It
says how the argument of that name is read, and with which default.

**Fields** (`Change.fields`). What an accepted instruction makes, by the names of the arguments that
give it.

**Theorem (`field?_of_accepts`, `corrections_of_accepts`).** The change of an accepted instruction
holds what is read for each parameter, and its corrections are those of the parameters in order.
So whatever is to be said of arguments is said of one parameter (`Parameter.read?`): a missing
argument is its default (`read?_of_absent`), and one that is there is taken over, or corrected once
to the default (`outcome_of_present`).

**Theorem (`outcome_judge_withArguments`, `judge_withArguments`).** Other arguments with the same
faults lead to the same outcome if each parameter has the same value, and to the same verdict if it
has the same corrections too.
-/

namespace Folio

/-! ## Fields -/

inductive FieldValue where
  | text (s : String)
  | number (n : UInt32)
  | position (p : PagePosition)
  deriving DecidableEq, Repr

/-- The literal says what the field holds. -/
def Literal.Says (l : Literal) : FieldValue → Prop
  | .text s => l = .text s
  | .number n => l.Denotes n.toNat
  | .position p => l = .text p.name

instance (l : Literal) (v : FieldValue) : Decidable (l.Says v) :=
  match v with
  | .text s => inferInstanceAs (Decidable (l = .text s))
  | .number n => inferInstanceAs (Decidable (l.Denotes n.toNat))
  | .position p => inferInstanceAs (Decidable (l = .text p.name))

namespace Change

/-- What a change holds, each with the name of the argument that gives it. -/
def fields : Change → List (String × FieldValue)
  | style s =>
    [("name", .text s.name), ("font", .text s.font), ("fontSize", .number s.fontSize),
      ("fontColor", .text s.fontColor)]
  | pageNumber n =>
    [("pageNumberPosition", .position n.position), ("pageNumberFont", .text n.font),
      ("pageNumberFontSize", .number n.fontSize), ("pageNumberFontColor", .text n.fontColor),
      ("pageNumberStart", .number n.start)]
  | numberingStart level => [("numberizeTitleStart", .number level)]
  | item (.title t) => [("style", .text t.style), ("level", .number t.level)]
  | item (.body s) => [("style", .text s.style)]

def field? (c : Change) (name : String) : Option FieldValue := c.fields.lookup name

end Change

/-! ## Parameters -/

/-- How an argument is read, with its default. -/
inductive ParameterKind where
  /-- A text that has to be there. -/
  | required
  | text (fallback : String)
  | font (fallback : String)
  | color (fallback : String)
  | position (fallback : PagePosition)
  | number (bounds : Bounds) (fallback : UInt32)
  deriving DecidableEq

namespace ParameterKind

def fallback? : ParameterKind → Option FieldValue
  | required => none
  | text s | font s | color s => some (.text s)
  | position p => some (.position p)
  | number _ n => some (.number n)

/-- What the signature asks of a value. -/
def argumentKind : ParameterKind → ArgumentKind
  | number _ _ => .number
  | _ => .text

/-- The default is one that the settings allow. -/
def Sound (settings : Settings) : ParameterKind → Prop
  | font s => settings.isRegisteredFont s
  | color s => settings.isKnownColor s
  | number bounds n => bounds.contains n.toNat
  | required | text _ | position _ => True

end ParameterKind

structure Parameter where
  name : String
  kind : ParameterKind
  deriving DecidableEq

def Corrected.map {α β : Type} (f : α → β) (v : Corrected α) : Corrected β :=
  ⟨f v.value, v.corrections⟩

namespace Parameter

/-- What the arguments say for a parameter; nothing if it has to be there and is not. -/
def read? (settings : Settings) (args : Arguments) (p : Parameter) :
    Option (Corrected FieldValue) :=
  match p.kind with
  | .required => (args.text? p.name).map fun s => .plain (.text s)
  | .text fallback => some (.plain (.text ((args.text? p.name).getD fallback)))
  | .font fallback => some ((args.font settings p.name fallback).map .text)
  | .color fallback => some ((args.color settings p.name fallback).map .text)
  | .position fallback => some ((args.position p.name fallback).map .position)
  | .number bounds fallback => some ((args.number p.name bounds fallback).map .number)

def corrections (settings : Settings) (args : Arguments) (p : Parameter) : List Correction :=
  (p.read? settings args).elim [] (·.corrections)

end Parameter

namespace Keyword

def signature : Keyword → Signature
  | directive kind => .ofDirective kind
  | block kind => .ofBlock kind
  | emphasis _ => []

/-- The parameters of a keyword, in the order in which they are read. -/
def parameters (settings : Settings) : Keyword → List Parameter
  | directive .style =>
    let base := settings.styles.body
    [⟨"name", .required⟩, ⟨"font", .font base.font⟩,
      ⟨"fontSize", .number settings.limits.fontSize base.fontSize⟩,
      ⟨"fontColor", .color base.fontColor⟩]
  | directive .pageNumber =>
    let base := settings.pageNumber
    [⟨"pageNumberPosition", .position base.position⟩, ⟨"pageNumberFont", .font base.font⟩,
      ⟨"pageNumberFontSize", .number settings.limits.fontSize base.fontSize⟩,
      ⟨"pageNumberFontColor", .color base.fontColor⟩,
      ⟨"pageNumberStart", .number settings.limits.pageStart base.start⟩]
  | directive .numberizeTitle =>
    [⟨"numberizeTitleStart", .number settings.limits.titleLevel settings.numberingStart⟩]
  | block .title =>
    [⟨"style", .text settings.styles.title.name⟩,
      ⟨"level", .number settings.limits.titleLevel settings.titleLevel⟩]
  | block .body => [⟨"style", .text settings.styles.body.name⟩]
  | emphasis _ => []

/-- The signature says the same of names and kinds. -/
theorem signature_eq (settings : Settings) (k : Keyword) :
    k.signature = (k.parameters settings).map fun p => (p.name, p.kind.argumentKind) := by
  rcases k with k | k | k <;> cases k <;> rfl

theorem names_parameters (settings : Settings) (k : Keyword) :
    (k.parameters settings).map (·.name) = k.signature.names := by
  rw [signature_eq settings, Signature.names, List.map_map]
  rfl

theorem nodup_names_parameters (settings : Settings) (k : Keyword) :
    ((k.parameters settings).map (·.name)).Nodup := by
  rw [names_parameters]
  rcases k with k | k | k <;> cases k <;> decide

end Keyword

theorem Keyword.lookup_signature {settings : Settings} {k : Keyword} {p : Parameter}
    (hp : p ∈ k.parameters settings) : k.signature.lookup p.name = some p.kind.argumentKind := by
  have hnames := k.nodup_names_parameters settings
  rw [names_parameters] at hnames
  refine lookup_eq_some_of_mem hnames ?_
  rw [k.signature_eq settings]
  exact List.mem_map.2 ⟨p, hp, rfl⟩

/-- Accepted settings have sound defaults. -/
theorem Settings.Sound.parameters {settings : Settings} (h : settings.Sound) (k : Keyword) :
    ∀ p ∈ k.parameters settings, p.kind.Sound settings := by
  have hbody := h.styles settings.styles.body.style (by simp [builtinStyles])
  obtain ⟨hlook, hstart⟩ := h.pageNumber
  have hnone := List.forall_mem_nil fun p : Parameter => p.kind.Sound settings
  rcases k with (_ | _ | _) | (_ | _) | k <;> simp only [Keyword.parameters, List.forall_mem_cons]
  · exact ⟨trivial, hbody.font, hbody.size, hbody.color, hnone⟩
  · exact ⟨trivial, hlook.font, hlook.size, hlook.color, hstart, hnone⟩
  · exact ⟨h.numberingStart, hnone⟩
  · exact ⟨trivial, h.titleLevel, hnone⟩
  · exact ⟨trivial, hnone⟩
  · exact hnone

/-! ## What is read for a parameter -/

/-- A number within bounds has 64 bits. -/
theorem Bounds.isInt64_of_contains {b : Bounds} {v : Int} (h : b.contains v) :
    Text.isInt64 v := by
  obtain ⟨hmin, hmax⟩ := contains_iff.1 h
  have := b.max.toNat_lt
  have hlow : -Text.maxInt64 - 1 ≤ v := by simp only [Text.maxInt64]; omega
  have hhigh : v ≤ Text.maxInt64 := by simp only [Text.maxInt64]; omega
  simp [Text.isInt64, hlow, hhigh]

section Reads

variable {settings : Settings} {args : Arguments} {name : String} {l : Literal}

namespace Arguments

variable {bounds : Bounds} {fallback : UInt32}

theorem number_of_denotes {v : Int} (hl : args.get? name = some l) (hv : l.Denotes v)
    (hb : bounds.contains v) :
    args.number name bounds fallback = .plain (UInt32.ofNat v.toNat) := by
  cases l with
  | number w =>
    obtain rfl : w = v := hv
    simp [number, hl, numberWithin, hb]
  | text s =>
    have hread := Text.int64?_eq_some_iff.2 ⟨hv, Bounds.isInt64_of_contains hb⟩
    simp [number, hl, hread, numberWithin, hb]

theorem number_of_not_contains (hl : args.get? name = some l)
    (h : ∀ v, l.Denotes v → bounds.contains v = false) :
    ∃ c, args.number name bounds fallback = .replaced fallback c := by
  cases l with
  | number w => simp [number, hl, numberWithin, h w rfl, Corrected.replaced]
  | text s =>
    cases hread : Text.int64? s with
    | none => simp [number, hl, hread, Corrected.replaced]
    | some v =>
      have hv := h v (Text.int64?_eq_some_iff.1 hread).1
      simp [number, hl, hread, numberWithin, hv, Corrected.replaced]

end Arguments

namespace Parameter

variable {p : Parameter}

/-- A missing argument is its default. -/
theorem read?_of_absent (h : args.get? p.name = none) :
    p.read? settings args = p.kind.fallback?.map .plain := by
  have htext : args.text? p.name = none := by rw [Arguments.text?, h]
  obtain ⟨name, kind⟩ := p
  cases kind <;>
    simp_all [read?, ParameterKind.fallback?, Arguments.font, Arguments.color,
      Arguments.position, Arguments.number, Corrected.map, Corrected.plain]

/-- The literal is taken over, or corrected once to the default. -/
def Outcome (p : Parameter) (l : Literal) (v : Corrected FieldValue) : Prop :=
  l.Says v.value ∧ v.corrections = [] ∨
    ¬ l.Says v.value ∧ p.kind.fallback? = some v.value ∧ ∃ c, v.corrections = [c]

/-- A text that is taken over if it passes a check. -/
theorem outcome_checked {check : String → Bool} {correction : Correction}
    {fallback s : String} (hp : p.kind.fallback? = some (.text fallback))
    (hs : check fallback) :
    p.Outcome (.text s)
      (Corrected.map .text (if check s then .plain s else .replaced fallback correction)) := by
  by_cases hcheck : check s
  · rw [if_pos hcheck]
    exact .inl ⟨rfl, rfl⟩
  · have hne : s ≠ fallback := by
      rintro rfl
      exact hcheck hs
    rw [if_neg hcheck]
    exact .inr ⟨fun h => hne (Literal.text.inj h), hp, _, rfl⟩

theorem outcome_position {fallback : PagePosition} {s : String} (h : args.text? name = some s) :
    Outcome ⟨name, .position fallback⟩ (.text s) ((args.position name fallback).map .position) := by
  cases hread : PagePosition.ofName? s with
  | some q =>
    have hq : q.name = s := by simpa using List.find?_some hread
    have hplain : args.position name fallback = .plain q := by simp [Arguments.position, h, hread]
    rw [hplain]
    exact .inl ⟨congrArg Literal.text hq.symm, rfl⟩
  | none =>
    have hreplaced : args.position name fallback =
        .replaced fallback (.unknownPosition name s fallback) := by
      simp [Arguments.position, h, hread]
    rw [hreplaced]
    refine .inr ⟨fun hholds => ?_, rfl, _, rfl⟩
    obtain rfl : s = fallback.name := Literal.text.inj hholds
    rw [PagePosition.ofName?_name] at hread
    cases hread

theorem outcome_number {bounds : Bounds} {fallback : UInt32} (hs : bounds.contains fallback.toNat)
    (hl : args.get? name = some l) :
    Outcome ⟨name, .number bounds fallback⟩ l ((args.number name bounds fallback).map .number) := by
  by_cases h : ∃ v, l.Denotes v ∧ bounds.contains v
  · obtain ⟨v, hv, hb⟩ := h
    rw [Arguments.number_of_denotes hl hv hb]
    refine .inl ⟨?_, rfl⟩
    show l.Denotes ((UInt32.ofNat v.toNat).toNat : Int)
    rwa [Bounds.toNat_ofInt_of_contains hb]
  · have hout : ∀ v, l.Denotes v → bounds.contains v = false := fun v hv =>
      Bool.eq_false_iff.2 fun hb => h ⟨v, hv, hb⟩
    obtain ⟨c, hread⟩ : ∃ c, args.number name bounds fallback = .replaced fallback c :=
      Arguments.number_of_not_contains hl hout
    rw [hread]
    refine .inr ⟨fun hholds => ?_, rfl, c, rfl⟩
    exact absurd hs (Bool.eq_false_iff.1 (hout fallback.toNat hholds))

/-- An argument that is there is taken over or corrected. -/
theorem outcome_of_present (hs : p.kind.Sound settings) (hl : args.get? p.name = some l)
    (hkind : p.kind.argumentKind = .text → ∃ s, l = .text s) :
    ∃ v, p.read? settings args = some v ∧ p.Outcome l v := by
  obtain ⟨name, kind⟩ := p
  have htext : ∀ {s}, l = .text s → args.text? name = some s := by
    rintro s rfl
    rw [Arguments.text?, hl]
  cases kind with
  | required =>
    obtain ⟨s, rfl⟩ := hkind rfl
    exact ⟨.plain (.text s), by rw [read?, htext rfl]; rfl, .inl ⟨rfl, rfl⟩⟩
  | text fallback =>
    obtain ⟨s, rfl⟩ := hkind rfl
    exact ⟨.plain (.text s), by rw [read?, htext rfl]; rfl, .inl ⟨rfl, rfl⟩⟩
  | font fallback =>
    obtain ⟨s, rfl⟩ := hkind rfl
    have hread : args.font settings name fallback = if settings.isRegisteredFont s
        then .plain s else .replaced fallback (.unregisteredFont name s fallback) := by
      simp [Arguments.font, htext rfl]
    exact ⟨_, rfl, hread ▸ outcome_checked (p := ⟨name, .font fallback⟩) rfl hs⟩
  | color fallback =>
    obtain ⟨s, rfl⟩ := hkind rfl
    have hread : args.color settings name fallback = if settings.isKnownColor s
        then .plain s else .replaced fallback (.unknownColor name s fallback) := by
      simp [Arguments.color, htext rfl]
    exact ⟨_, rfl, hread ▸ outcome_checked (p := ⟨name, .color fallback⟩) rfl hs⟩
  | position fallback =>
    obtain ⟨s, rfl⟩ := hkind rfl
    exact ⟨_, rfl, outcome_position (htext rfl)⟩
  | number bounds fallback => exact ⟨_, rfl, outcome_number hs hl⟩

end Parameter

end Reads

/-! ## What an accepted instruction makes -/

namespace Resolution

variable {settings : Settings} {r : Resolution} {i : Instruction} {c : Change}
  {corrections : List Correction}

theorem faults_of_accepts (ha : Accepts settings r i c corrections) :
    i.keyword.signature.faults i.keyword i.arguments = [] := by
  cases ha <;> assumption

/-- **The change holds what is read** for each parameter. -/
theorem field?_of_accepts (ha : Accepts settings r i c corrections) :
    ∀ p ∈ i.keyword.parameters settings,
      ∃ v, p.read? settings i.arguments = some v ∧ c.field? p.name = some v.value := by
  cases ha with
  | @style args line name hsigned hname hnew =>
    have hread : (Parameter.mk "name" .required).read? settings args =
        some (.plain (.text name)) := by
      simp [Parameter.read?, hname]
    simp only [Instruction.keyword, Keyword.parameters, List.forall_mem_cons]
    exact ⟨⟨_, hread, rfl⟩, ⟨_, rfl, rfl⟩, ⟨_, rfl, rfl⟩, ⟨_, rfl, rfl⟩, List.forall_mem_nil _⟩
  | pageNumber hsigned hnone =>
    simp only [Instruction.keyword, Keyword.parameters, List.forall_mem_cons]
    exact ⟨⟨_, rfl, rfl⟩, ⟨_, rfl, rfl⟩, ⟨_, rfl, rfl⟩, ⟨_, rfl, rfl⟩, ⟨_, rfl, rfl⟩,
      List.forall_mem_nil _⟩
  | numberizeTitle hsigned => exact List.forall_mem_singleton.2 ⟨_, rfl, rfl⟩
  | title hsigned hstyle hcontent =>
    simp only [Instruction.keyword, Keyword.parameters, List.forall_mem_cons]
    exact ⟨⟨_, rfl, rfl⟩, ⟨_, rfl, rfl⟩, List.forall_mem_nil _⟩
  | body hsigned hstyle hcontent => exact List.forall_mem_singleton.2 ⟨_, rfl, rfl⟩

/-- **The corrections** are those of the parameters in order. -/
theorem corrections_of_accepts (ha : Accepts settings r i c corrections) :
    corrections =
      (i.keyword.parameters settings).flatMap (·.corrections settings i.arguments) := by
  cases ha with
  | style hsigned hname hnew =>
    simp [Keyword.parameters, Instruction.keyword, Parameter.corrections, Parameter.read?,
      Arguments.style, hname, Corrected.map, Corrected.plain, Instruction.arguments]
  | _ =>
    simp [Keyword.parameters, Instruction.keyword, Parameter.corrections, Parameter.read?,
      Arguments.pageNumber, Arguments.numberingStart, Arguments.titleLevel, Corrected.map,
      Corrected.plain, Instruction.arguments]

end Resolution

/-! ## What a verdict depends on -/

namespace Instruction

def withArguments : Instruction → Arguments → Instruction
  | directive kind _ line, args => directive kind args line
  | block kind _ content line, args => block kind args content line
  | i@(emphasis _ _ _), _ => i

@[simp] theorem withArguments_arguments (i : Instruction) : i.withArguments i.arguments = i := by
  cases i <;> rfl

@[simp] theorem keyword_withArguments (i : Instruction) (args : Arguments) :
    (i.withArguments args).keyword = i.keyword := by
  cases i <;> rfl

end Instruction

/-- What becomes of an instruction, its warnings aside. -/
def Verdict.outcome : Verdict → Except (List Diagnostic) Change
  | rejected errors => .error errors
  | accepted c _ => .ok c

theorem Verdict.eq_of_outcome_error {errors : List Diagnostic} {v : Verdict}
    (h : v.outcome = .error errors) : v = .rejected errors := by
  cases v <;> cases h
  rfl

theorem Verdict.exists_of_outcome_ok {c : Change} {v : Verdict} (h : v.outcome = .ok c) :
    ∃ warnings, v = .accepted c warnings := by
  cases v <;> cases h
  exact ⟨_, rfl⟩

theorem Verdict.outcome_ofErrors {errors errors' : List Diagnostic} {v w : Verdict}
    (he : errors = errors') (hv : v.outcome = w.outcome) :
    (ofErrors errors v).outcome = (ofErrors errors' w).outcome := by
  subst he
  unfold ofErrors
  split
  · exact hv
  · rfl

namespace Resolution

variable {settings : Settings} {r : Resolution} {i : Instruction} {args args' : Arguments}

/-- **The outcome depends on the arguments** by their faults and the value of each parameter. -/
theorem outcome_judge_withArguments
    (hfaults : i.keyword.signature.faults i.keyword args =
      i.keyword.signature.faults i.keyword args')
    (hvalue : ∀ p ∈ i.keyword.parameters settings,
      (p.read? settings args).map (·.value) = (p.read? settings args').map (·.value)) :
    (r.judge settings (i.withArguments args)).outcome =
      (r.judge settings (i.withArguments args')).outcome := by
  have htext : Function.Injective FieldValue.text := fun _ _ => FieldValue.text.inj
  rcases i with ⟨kind, args₀, line⟩ | ⟨kind, args₀, content, line⟩ | ⟨kind, text, line⟩
  · refine Verdict.outcome_ofErrors (congrArg (List.map _) hfaults) ?_
    cases kind <;>
      simp only [Instruction.keyword, Keyword.parameters, List.forall_mem_cons, Parameter.read?,
        Corrected.map, Corrected.plain, Option.map_map, Function.comp_def, Option.map_some,
        (Option.map_injective htext).eq_iff, Option.some.injEq, FieldValue.text.injEq,
        FieldValue.number.injEq, FieldValue.position.injEq] at hvalue
    · obtain ⟨hname, hfont, hsize, hcolor, -⟩ := hvalue
      simp only [judgeStyle, hname, hfont, hsize, hcolor]
      split
      · rfl
      · split <;> rfl
    · obtain ⟨hposition, hfont, hsize, hcolor, hstart, -⟩ := hvalue
      simp only [judgePageNumber, hposition, hfont, hsize, hcolor, hstart]
      split <;> rfl
    · obtain ⟨hstart, -⟩ := hvalue
      exact congrArg (Except.ok <| Change.numberingStart ·) hstart
  · refine Verdict.outcome_ofErrors (congrArg (List.map _) hfaults) ?_
    cases kind <;>
      simp only [Instruction.keyword, Keyword.parameters, List.forall_mem_cons, Parameter.read?,
        Corrected.map, Corrected.plain, Option.map_some, Option.some.injEq, FieldValue.text.injEq,
        FieldValue.number.injEq] at hvalue
    · obtain ⟨hstyle, hlevel, -⟩ := hvalue
      simp only [judgeTitle, hstyle, hlevel]
      exact Verdict.outcome_ofErrors rfl rfl
    · obtain ⟨hstyle, -⟩ := hvalue
      simp only [judgeSection, hstyle]
  · rfl

/-- The warnings are those of the parameters in order. -/
theorem warnings_of_judge {c : Change} {warnings : List Diagnostic}
    (h : r.judge settings (i.withArguments args) = .accepted c warnings) :
    warnings = ((i.keyword.parameters settings).flatMap (·.corrections settings args)).map
      (·.diagnostic i.keyword i.line) := by
  obtain ⟨corrections, ha, rfl⟩ := judge_eq_accepted_iff.1 h
  rw [corrections_of_accepts ha]
  cases i with
  | emphasis kind text line => cases ha
  | _ => rfl

/-- **A verdict depends on the arguments** by their faults and what is read for each parameter. -/
theorem judge_withArguments
    (hfaults : i.keyword.signature.faults i.keyword args =
      i.keyword.signature.faults i.keyword args')
    (hread : ∀ p ∈ i.keyword.parameters settings,
      p.read? settings args = p.read? settings args') :
    r.judge settings (i.withArguments args) = r.judge settings (i.withArguments args') := by
  have houtcome := outcome_judge_withArguments (r := r) hfaults fun p hp =>
    congrArg (Option.map (·.value)) (hread p hp)
  have hcorrections : (i.keyword.parameters settings).flatMap (·.corrections settings args) =
      (i.keyword.parameters settings).flatMap (·.corrections settings args') :=
    List.flatMap_congr fun p hp => by rw [Parameter.corrections, hread p hp, Parameter.corrections]
  cases hj : r.judge settings (i.withArguments args) with
  | rejected errors =>
    rw [hj] at houtcome
    exact (Verdict.eq_of_outcome_error houtcome.symm).symm
  | accepted c warnings =>
    rw [hj] at houtcome
    obtain ⟨warnings', hj'⟩ := Verdict.exists_of_outcome_ok houtcome.symm
    rw [hj', warnings_of_judge hj, warnings_of_judge hj', hcorrections]

end Resolution
end Folio
