import Folio.Proofs.Parameters
import Folio.Proofs.SourceOrder

/-!
# What an instruction can be told

**Faults** (`Instruction.MayHave`) and **corrections** (`Parameter.Corrects`). The faults that an
instruction can have, and the corrections that a parameter can get from arguments, each with what is
behind it.

**Theorem (`complaint_of_mem_diagnostics`).** All that a document is told is such a fault or such a
correction of one of its instructions.
-/

namespace Folio

/-! ## Corrections -/

/-- The parameter can be corrected so, with these arguments. -/
inductive Parameter.Corrects (args : Arguments) : Parameter → Correction → Prop
  | font {name s fallback : String} : args.text? name = some s →
      Corrects args ⟨name, .font fallback⟩ (.unregisteredFont name s fallback)
  | color {name s fallback : String} : args.text? name = some s →
      Corrects args ⟨name, .color fallback⟩ (.unknownColor name s fallback)
  | position {name s : String} {fallback : PagePosition} : args.text? name = some s →
      Corrects args ⟨name, .position fallback⟩ (.unknownPosition name s fallback)
  | notNumber {name s : String} {bounds : Bounds} {fallback : UInt32} :
      args.text? name = some s →
      Corrects args ⟨name, .number bounds fallback⟩ (.notNumber name s fallback)
  | outOfRange {name : String} {l : Literal} {v : Int} {bounds : Bounds} {fallback : UInt32} :
      args.get? name = some l → l.Denotes v → bounds.contains v = false →
      Corrects args ⟨name, .number bounds fallback⟩ (.outOfRange name v bounds fallback)

/-- A value that is checked is corrected in one way, if at all. -/
theorem Corrected.eq_of_mem_checked {α : Type} {p : Prop} [Decidable p] {v fallback : α}
    {fix c : Correction} (h : c ∈ (if p then plain v else replaced fallback fix).corrections) :
    c = fix := by
  split at h
  · cases h
  · exact List.mem_singleton.1 h

namespace Parameter

variable {settings : Settings} {args : Arguments} {name : String} {c : Correction}

theorem corrects_number {bounds : Bounds} {fallback : UInt32}
    (h : c ∈ (args.number name bounds fallback).corrections) :
    Corrects args ⟨name, .number bounds fallback⟩ c := by
  have hwithin : ∀ {l : Literal} {v : Int}, args.get? name = some l → l.Denotes v →
      c ∈ (Arguments.numberWithin name bounds fallback v).corrections →
        Corrects args ⟨name, .number bounds fallback⟩ c := by
    intro l v hl hv hc
    unfold Arguments.numberWithin at hc
    split at hc
    · cases hc
    · next hout =>
      obtain rfl := List.mem_singleton.1 hc
      exact .outOfRange hl hv (Bool.eq_false_iff.2 hout)
  unfold Arguments.number at h
  split at h
  · cases h
  · next v hl => exact hwithin hl rfl h
  · next s hl =>
    split at h
    · next v hv => exact hwithin hl (Text.int64?_eq_some_iff.1 hv).1 h
    · obtain rfl := List.mem_singleton.1 h
      exact .notNumber (by rw [Arguments.text?, hl])

/-- Whatever is corrected is corrected so. -/
theorem corrects_of_mem {p : Parameter} (h : c ∈ p.corrections settings args) :
    p.Corrects args c := by
  obtain ⟨name, kind⟩ := p
  cases kind with
  | required => cases hs : args.text? name <;> simp [corrections, read?, hs, Corrected.plain] at h
  | text fallback => cases h
  | font fallback =>
    change c ∈ (args.font settings name fallback).corrections at h
    unfold Arguments.font at h
    split at h
    · cases h
    · next s hs =>
      rw [Corrected.eq_of_mem_checked h]
      exact .font hs
  | color fallback =>
    change c ∈ (args.color settings name fallback).corrections at h
    unfold Arguments.color at h
    split at h
    · cases h
    · next s hs =>
      rw [Corrected.eq_of_mem_checked h]
      exact .color hs
  | position fallback =>
    change c ∈ (args.position name fallback).corrections at h
    unfold Arguments.position at h
    split at h
    · cases h
    · next s hs =>
      split at h
      · cases h
      · obtain rfl := List.mem_singleton.1 h
        exact .position hs
  | number bounds fallback => exact corrects_number h

end Parameter

/-! ## Faults -/

/-- The instruction can have the fault. -/
inductive Instruction.MayHave (settings : Settings) : Instruction → Fault → Prop
  | unknownArgument {i : Instruction} {name : String} : (i.arguments.get? name).isSome →
      MayHave settings i (.unknownArgument i.keyword name i.keyword.signature.names)
  | numberForText {i : Instruction} {name : String} {v : Int} :
      i.arguments.get? name = some (.number v) →
      MayHave settings i (.numberForText i.keyword name v)
  | styleWithoutName {args : Arguments} {line : Nat} : args.text? "name" = none →
      MayHave settings (.directive .style args line) .styleWithoutName
  | duplicateStyle {args : Arguments} {line : Nat} {name : String} :
      args.text? "name" = some name →
      MayHave settings (.directive .style args line) (.duplicateStyle name)
  | secondPageNumber {args : Arguments} {line : Nat} :
      MayHave settings (.directive .pageNumber args line) .secondPageNumber
  | unknownStyle {kind : BlockKind} {args : Arguments} {content : List Node} {line : Nat} :
      MayHave settings (.block kind args content line)
        (.unknownStyle (.block kind) (args.blockStyle settings kind))
  | nestedInTitle {args : Arguments} {content : List Node} {line : Nat} {i : Instruction} :
      .instruction i ∈ content →
      MayHave settings (.block .title args content line) (.nestedInTitle i.keyword)
  | nestedInSection {args : Arguments} {content : List Node} {line : Nat} {i : Instruction} :
      .instruction i ∈ content →
      MayHave settings (.block .body args content line) (.nestedInSection i.keyword)
  | emptyEmphasis {args : Arguments} {content : List Node} {line line' : Nat}
      {kind : EmphasisKind} {s : String} :
      .instruction (.emphasis kind s line') ∈ content → s.isEmpty →
      MayHave settings (.block .body args content line) (.emptyEmphasis kind)
  | misplacedEmphasis {kind : EmphasisKind} {s : String} {line : Nat} :
      MayHave settings (.emphasis kind s line) (.misplacedEmphasis kind)

/-- The diagnostic is an error about a fault that the instruction can have. -/
def Instruction.Charged (settings : Settings) (i : Instruction) (d : Diagnostic) : Prop :=
  ∃ line f, d = Fault.diagnostic line f ∧ i.MayHave settings f

namespace Resolution

variable {settings : Settings} {r : Resolution} {i : Instruction} {errors : List Diagnostic}

theorem charged_of_mem_signatureErrors {line : Nat} {d : Diagnostic}
    (h : d ∈ signatureErrors i.keyword.signature i.keyword i.arguments line) :
    i.Charged settings d := by
  obtain ⟨f, hf, rfl⟩ := List.mem_map.1 h
  refine ⟨line, f, rfl, ?_⟩
  unfold Signature.faults at hf
  split at hf
  · obtain ⟨⟨name, v⟩, hv, rfl⟩ := List.mem_map.1 hf
    exact .numberForText (Signature.mem_numbersForText_iff.1 hv).1
  · obtain ⟨name, hname, rfl⟩ := List.mem_map.1 hf
    exact .unknownArgument (Signature.mem_unknownNames_iff.1 hname).1

theorem charged_of_mem_styleErrors {kind : BlockKind} {args : Arguments} {content : List Node}
    {line : Nat} {d : Diagnostic}
    (h : d ∈ r.styleErrors kind (args.blockStyle settings kind) line) :
    (Instruction.block kind args content line).Charged settings d := by
  unfold styleErrors at h
  split at h
  · cases h
  · obtain rfl := List.mem_singleton.1 h
    exact ⟨_, _, rfl, .unknownStyle⟩

theorem charged_of_titleError? {args : Arguments} {content : List Node} {line : Nat} {n : Node}
    {d : Diagnostic} (hn : n ∈ content) (h : n.titleError? = some d) :
    (Instruction.block .title args content line).Charged settings d := by
  cases n with
  | text s => cases h
  | instruction i =>
    cases h
    exact ⟨_, _, rfl, .nestedInTitle hn⟩

theorem charged_of_sectionError? {args : Arguments} {content : List Node} {line : Nat} {n : Node}
    {d : Diagnostic} (hn : n ∈ content) (h : n.sectionError? = some d) :
    (Instruction.block .body args content line).Charged settings d := by
  cases n with
  | text s => cases h
  | instruction i =>
    cases i with
    | emphasis kind s line =>
      rw [Node.sectionError?] at h
      split at h
      · next hs =>
        cases h
        exact ⟨_, _, rfl, .emptyEmphasis hn hs⟩
      · cases h
    | _ =>
      cases h
      exact ⟨_, _, rfl, .nestedInSection hn⟩

/-- **The errors of a rejected instruction** are about faults that it can have. -/
theorem charged_of_judge_eq_rejected (h : r.judge settings i = .rejected errors) :
    ∀ d ∈ errors, i.Charged settings d := by
  intro d hd
  cases i with
  | directive kind args line =>
    rcases ofErrors_eq_rejected h with rfl | h
    · exact charged_of_mem_signatureErrors (i := .directive kind args line) hd
    · cases kind with
      | style =>
        change r.judgeStyle settings args line = _ at h
        unfold judgeStyle at h
        split at h
        · next hname =>
          cases h
          obtain rfl := List.mem_singleton.1 hd
          exact ⟨_, _, rfl, .styleWithoutName hname⟩
        · next name hname =>
          split at h
          · cases h
            obtain rfl := List.mem_singleton.1 hd
            exact ⟨_, _, rfl, .duplicateStyle hname⟩
          · cases h
      | pageNumber =>
        change r.judgePageNumber settings args line = _ at h
        unfold judgePageNumber at h
        split at h
        · cases h
          obtain rfl := List.mem_singleton.1 hd
          exact ⟨_, _, rfl, .secondPageNumber⟩
        · cases h
      | numberizeTitle => cases h
  | block kind args content line =>
    rcases ofErrors_eq_rejected h with rfl | h
    · exact charged_of_mem_signatureErrors (i := .block kind args content line) hd
    · cases kind with
      | title =>
        rcases ofErrors_eq_rejected h with rfl | h
        · rcases List.mem_append.1 hd with hd | hd
          · exact charged_of_mem_styleErrors hd
          · obtain ⟨n, hn, hd⟩ := List.mem_filterMap.1 hd
            exact charged_of_titleError? hn hd
        · cases h
      | body =>
        rcases ofErrors_eq_rejected h with rfl | h
        · rcases List.mem_append.1 hd with hd | hd
          · exact charged_of_mem_styleErrors hd
          · obtain ⟨n, hn, hd⟩ := List.mem_filterMap.1 hd
            exact charged_of_sectionError? hn hd
        · cases h
  | emphasis kind s line =>
    cases h
    obtain rfl := List.mem_singleton.1 hd
    exact ⟨_, _, rfl, .misplacedEmphasis⟩

end Resolution

/-! ## Complaints -/

/-- The diagnostic is about a fault of the instruction or a correction of one of its parameters. -/
inductive Complaint (settings : Settings) (i : Instruction) : Diagnostic → Prop
  | fault {line : Nat} {f : Fault} : i.MayHave settings f →
      Complaint settings i (f.diagnostic line)
  | correction {p : Parameter} {c : Correction} : p ∈ i.keyword.parameters settings →
      p.Corrects i.arguments c → Complaint settings i (c.diagnostic i.keyword i.line)

namespace Resolution

variable {settings : Settings}

/-- **All that an instruction is told** is about a fault or a correction. -/
theorem complaint_of_mem_judge (r : Resolution) (i : Instruction) :
    ∀ d ∈ (r.judge settings i).diagnostics, Complaint settings i d := by
  intro d hd
  cases hj : r.judge settings i with
  | rejected errors =>
    rw [hj] at hd
    obtain ⟨line, f, rfl, hf⟩ := charged_of_judge_eq_rejected hj d hd
    exact .fault hf
  | accepted change warnings =>
    rw [hj] at hd
    obtain ⟨corrections, ha, rfl⟩ := judge_eq_accepted_iff.1 hj
    obtain ⟨c, hc, rfl⟩ := List.mem_map.1 hd
    rw [corrections_of_accepts ha] at hc
    obtain ⟨p, hp, hc⟩ := List.mem_flatMap.1 hc
    exact .correction hp (Parameter.corrects_of_mem hc)

end Resolution

theorem Diagnostics.mem_all_extend {ds : Diagnostics} {more : List Diagnostic} {d : Diagnostic}
    (h : d ∈ (ds.extend more).all) : d ∈ ds.all ∨ d ∈ more := by
  unfold all at h ⊢
  rw [errors_extend, warnings_extend] at h
  simp only [List.mem_append, List.mem_filter] at h ⊢
  tauto

/-- **A run adds complaints** about its instructions, and nothing else. -/
theorem Resolution.complaint_foldl_step {settings : Settings} {r : Resolution}
    {is : List Instruction} {d : Diagnostic}
    (hd : d ∈ (is.foldl (step settings) r).diagnostics.all) :
    d ∈ r.diagnostics.all ∨ ∃ i ∈ is, Complaint settings i d := by
  induction is generalizing r with
  | nil => exact .inl hd
  | cons i is ih =>
    rcases ih hd with hd | ⟨j, hj, hcomplaint⟩
    · rw [diagnostics_step] at hd
      rcases Diagnostics.mem_all_extend hd with hd | hd
      · exact .inl hd
      · exact .inr ⟨i, List.mem_cons_self, complaint_of_mem_judge r i d hd⟩
    · exact .inr ⟨j, List.mem_cons_of_mem i hj, hcomplaint⟩

/-- **All that a document is told** is a complaint about one of its instructions. -/
theorem complaint_of_mem_diagnostics {settings : Settings} {is : List Instruction}
    {d : Diagnostic} (hd : d ∈ (Model.ofInstructions settings is).diagnostics.all) :
    ∃ i ∈ is, Complaint settings i d := by
  rcases Resolution.complaint_foldl_step hd with hd | h
  · cases hd
  · exact h

end Folio
