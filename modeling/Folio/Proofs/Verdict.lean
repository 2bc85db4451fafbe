import Folio.Resolve

/-!
# What a verdict can be

**Acceptance** (`Resolution.Accepts`). All that is behind an accepted instruction: the checks that
it passed, the change read from it and the corrections made on the way, one rule for each keyword
that can be accepted. `judge_eq_accepted_iff` says that these are exactly the accepting verdicts;
whatever a step can do is read off this relation.

**Theorem (`step_all_or_nothing`).** A step either appends errors and nothing else, or makes the
one change of its keyword and appends warnings. So the instructions that were rejected can be left
out of a document, and its model loses the errors only.

The second half is a simulation between the two runs: their states differ in errors, and no verdict
looks at diagnostics.
-/

namespace Folio

/-! ## What arguments describe -/

/-- The style that a list of arguments describes. -/
def Arguments.style (args : Arguments) (settings : Settings) (name : String) : Corrected Style :=
  let base := settings.styles.body
  let font := args.font settings "font" base.font
  let size := args.number "fontSize" settings.limits.fontSize base.fontSize
  let color := args.color settings "fontColor" base.fontColor
  ⟨⟨name, font.value, size.value, color.value, false⟩,
    font.corrections ++ size.corrections ++ color.corrections⟩

/-- The page numbers that a list of arguments describes. -/
def Arguments.pageNumber (args : Arguments) (settings : Settings) : Corrected PageNumber :=
  let base := settings.pageNumber
  let position := args.position "pageNumberPosition" base.position
  let font := args.font settings "pageNumberFont" base.font
  let size := args.number "pageNumberFontSize" settings.limits.fontSize base.fontSize
  let color := args.color settings "pageNumberFontColor" base.fontColor
  let start := args.number "pageNumberStart" settings.limits.pageStart base.start
  ⟨⟨position.value, font.value, size.value, color.value, start.value⟩,
    position.corrections ++ font.corrections ++ size.corrections ++ color.corrections ++
      start.corrections⟩

/-- The level at which numbering is to start. -/
def Arguments.numberingStart (args : Arguments) (settings : Settings) : Corrected UInt32 :=
  args.number "numberizeTitleStart" settings.limits.titleLevel settings.numberingStart

def Arguments.titleLevel (args : Arguments) (settings : Settings) : Corrected UInt32 :=
  args.number "level" settings.limits.titleLevel settings.titleLevel

/-- The style that a block of a kind is set in. -/
def Arguments.blockStyle (args : Arguments) (settings : Settings) (kind : BlockKind) : String :=
  (args.text? "style").getD
    (match kind with
    | .title => settings.styles.title.name
    | .body => settings.styles.body.name)

/-! ## Acceptance -/

/-- The arguments fit the signature of the keyword. -/
def Instruction.WellSigned : Instruction → Prop
  | .directive kind args _ => (Signature.ofDirective kind).faults (.directive kind) args = []
  | .block kind args _ _ => (Signature.ofBlock kind).faults (.block kind) args = []
  | .emphasis _ _ _ => False

namespace Resolution

/-- An instruction is accepted with a change and corrections. -/
inductive Accepts (settings : Settings) (r : Resolution) :
    Instruction → Change → List Correction → Prop
  | style {args : Arguments} {line : Nat} {name : String} :
      (Instruction.directive .style args line).WellSigned →
      args.text? "name" = some name → r.hasStyle name = false →
      Accepts settings r (.directive .style args line)
        (.style (args.style settings name).value) (args.style settings name).corrections
  | pageNumber {args : Arguments} {line : Nat} :
      (Instruction.directive .pageNumber args line).WellSigned → r.pageNumber = none →
      Accepts settings r (.directive .pageNumber args line)
        (.pageNumber (args.pageNumber settings).value) (args.pageNumber settings).corrections
  | numberizeTitle {args : Arguments} {line : Nat} :
      (Instruction.directive .numberizeTitle args line).WellSigned →
      Accepts settings r (.directive .numberizeTitle args line)
        (.numberingStart (args.numberingStart settings).value)
        (args.numberingStart settings).corrections
  | title {args : Arguments} {content : List Node} {line : Nat} :
      (Instruction.block .title args content line).WellSigned →
      r.hasStyle (args.blockStyle settings .title) → (∀ n ∈ content, n.titleError? = none) →
      Accepts settings r (.block .title args content line)
        (.item (.title ⟨args.blockStyle settings .title, (args.titleLevel settings).value,
          String.join (content.filterMap Node.text?)⟩))
        (args.titleLevel settings).corrections
  | body {args : Arguments} {content : List Node} {line : Nat} :
      (Instruction.block .body args content line).WellSigned →
      r.hasStyle (args.blockStyle settings .body) → (∀ n ∈ content, n.sectionError? = none) →
      Accepts settings r (.block .body args content line)
        (.item (.body ⟨args.blockStyle settings .body, content.filterMap Node.run?⟩)) []

theorem ofErrors_eq_accepted_iff {errors : List Diagnostic} {v : Verdict} {c : Change}
    {warnings : List Diagnostic} :
    Verdict.ofErrors errors v = .accepted c warnings ↔ errors = [] ∧ v = .accepted c warnings := by
  cases errors <;> simp [Verdict.ofErrors]

theorem signatureErrors_eq_nil_iff {signature : Signature} {keyword : Keyword}
    {args : Arguments} {line : Nat} :
    signatureErrors signature keyword args line = [] ↔ signature.faults keyword args = [] := by
  simp [signatureErrors]

theorem styleErrors_eq_nil_iff {r : Resolution} {kind : BlockKind} {name : String} {line : Nat} :
    r.styleErrors kind name line = [] ↔ r.hasStyle name := by
  unfold styleErrors
  split <;> simp_all

variable {settings : Settings} {r : Resolution}

theorem judgeStyle_eq_accepted_iff {args : Arguments} {line : Nat} {c : Change}
    {warnings : List Diagnostic} :
    r.judgeStyle settings args line = .accepted c warnings ↔
      ∃ name, args.text? "name" = some name ∧ r.hasStyle name = false ∧
        Verdict.corrected (.directive .style) line (.style (args.style settings name).value)
          (args.style settings name).corrections = .accepted c warnings := by
  unfold judgeStyle
  cases args.text? "name" with
  | none => simp
  | some name => by_cases h : r.hasStyle name <;> simp [h, Arguments.style]

theorem judgePageNumber_eq_accepted_iff {args : Arguments} {line : Nat} {c : Change}
    {warnings : List Diagnostic} :
    r.judgePageNumber settings args line = .accepted c warnings ↔
      r.pageNumber = none ∧
        Verdict.corrected (.directive .pageNumber) line
          (.pageNumber (args.pageNumber settings).value) (args.pageNumber settings).corrections =
            .accepted c warnings := by
  unfold judgePageNumber
  cases h : r.pageNumber <;> simp [Arguments.pageNumber]

theorem judgeTitle_eq_accepted_iff {args : Arguments} {content : List Node} {line : Nat}
    {c : Change} {warnings : List Diagnostic} :
    r.judgeTitle settings args content line = .accepted c warnings ↔
      r.hasStyle (args.blockStyle settings .title) ∧ (∀ n ∈ content, n.titleError? = none) ∧
        Verdict.corrected (.block .title) line
          (.item (.title ⟨args.blockStyle settings .title, (args.titleLevel settings).value,
            String.join (content.filterMap Node.text?)⟩))
          (args.titleLevel settings).corrections = .accepted c warnings := by
  unfold judgeTitle
  rw [ofErrors_eq_accepted_iff, List.append_eq_nil_iff, styleErrors_eq_nil_iff,
    List.filterMap_eq_nil_iff, and_assoc]
  rfl

theorem judgeSection_eq_accepted_iff {args : Arguments} {content : List Node} {line : Nat}
    {c : Change} {warnings : List Diagnostic} :
    r.judgeSection settings args content line = .accepted c warnings ↔
      r.hasStyle (args.blockStyle settings .body) ∧ (∀ n ∈ content, n.sectionError? = none) ∧
        Verdict.accepted
          (.item (.body ⟨args.blockStyle settings .body, content.filterMap Node.run?⟩)) [] =
            .accepted c warnings := by
  unfold judgeSection
  rw [ofErrors_eq_accepted_iff, List.append_eq_nil_iff, styleErrors_eq_nil_iff,
    List.filterMap_eq_nil_iff, and_assoc]
  rfl

/-- **Exactly the accepting verdicts.** -/
theorem judge_eq_accepted_iff {i : Instruction} {c : Change} {warnings : List Diagnostic} :
    r.judge settings i = .accepted c warnings ↔
      ∃ corrections, Accepts settings r i c corrections ∧
        warnings = corrections.map (·.diagnostic i.keyword i.line) := by
  constructor
  · intro h
    cases i with
    | directive kind args line =>
      obtain ⟨hs, h⟩ := ofErrors_eq_accepted_iff.1 h
      have hs := signatureErrors_eq_nil_iff.1 hs
      cases kind with
      | style =>
        obtain ⟨name, hname, hnew, h⟩ := judgeStyle_eq_accepted_iff.1 h
        cases h
        exact ⟨_, .style hs hname hnew, rfl⟩
      | pageNumber =>
        obtain ⟨hnone, h⟩ := judgePageNumber_eq_accepted_iff.1 h
        cases h
        exact ⟨_, .pageNumber hs hnone, rfl⟩
      | numberizeTitle =>
        cases h
        exact ⟨_, .numberizeTitle hs, rfl⟩
    | block kind args content line =>
      obtain ⟨hs, h⟩ := ofErrors_eq_accepted_iff.1 h
      have hs := signatureErrors_eq_nil_iff.1 hs
      cases kind with
      | title =>
        obtain ⟨hstyle, hcontent, h⟩ := judgeTitle_eq_accepted_iff.1 h
        cases h
        exact ⟨_, .title hs hstyle hcontent, rfl⟩
      | body =>
        obtain ⟨hstyle, hcontent, h⟩ := judgeSection_eq_accepted_iff.1 h
        cases h
        exact ⟨_, .body hs hstyle hcontent, rfl⟩
    | emphasis kind text line => cases h
  · rintro ⟨corrections, h, rfl⟩
    cases h with
    | style hs hname hnew =>
      exact ofErrors_eq_accepted_iff.2 ⟨signatureErrors_eq_nil_iff.2 hs,
        judgeStyle_eq_accepted_iff.2 ⟨_, hname, hnew, rfl⟩⟩
    | pageNumber hs hnone =>
      exact ofErrors_eq_accepted_iff.2 ⟨signatureErrors_eq_nil_iff.2 hs,
        judgePageNumber_eq_accepted_iff.2 ⟨hnone, rfl⟩⟩
    | numberizeTitle hs =>
      exact ofErrors_eq_accepted_iff.2 ⟨signatureErrors_eq_nil_iff.2 hs, rfl⟩
    | title hs hstyle hcontent =>
      exact ofErrors_eq_accepted_iff.2 ⟨signatureErrors_eq_nil_iff.2 hs,
        judgeTitle_eq_accepted_iff.2 ⟨hstyle, hcontent, rfl⟩⟩
    | body hs hstyle hcontent =>
      exact ofErrors_eq_accepted_iff.2 ⟨signatureErrors_eq_nil_iff.2 hs,
        judgeSection_eq_accepted_iff.2 ⟨hstyle, hcontent, rfl⟩⟩

end Resolution

/-! ## Rejection -/

/-- A verdict that rejects does so with at least one error, and with errors only. -/
def Verdict.RejectsSoundly : Verdict → Prop
  | rejected errors => errors ≠ [] ∧ ∀ e ∈ errors, e.severity = .error
  | accepted _ _ => True

/-- Something is given for a second time. -/
def Fault.isDuplicate : Fault → Bool
  | duplicateStyle _ | secondPageNumber => true
  | _ => false

/-- The diagnostic reports a fault, other than that something is given for a second time. -/
def Diagnostic.ReportsFault (d : Diagnostic) : Prop :=
  ∃ line f, d = Fault.diagnostic line f ∧ f.isDuplicate = false

@[simp] theorem Fault.severity_diagnostic (line : Nat) (fault : Fault) :
    (fault.diagnostic line).severity = .error := rfl

@[simp] theorem Correction.severity_diagnostic (keyword : Keyword) (line : Nat)
    (c : Correction) : (c.diagnostic keyword line).severity = .warning := rfl

theorem Diagnostic.ReportsFault.severity {d : Diagnostic} (h : d.ReportsFault) :
    d.severity = .error := by
  obtain ⟨line, f, rfl, -⟩ := h
  rfl

namespace Resolution

variable {settings : Settings} {r : Resolution}

theorem ofErrors_of_ne_nil {errors : List Diagnostic} {v : Verdict} (h : errors ≠ []) :
    Verdict.ofErrors errors v = .rejected errors :=
  if_neg (by simpa using h)

theorem ofErrors_eq_rejected {errors es : List Diagnostic} {v : Verdict}
    (h : Verdict.ofErrors es v = .rejected errors) : errors = es ∨ v = .rejected errors := by
  cases es with
  | nil => exact .inr h
  | cons e es =>
    cases h
    exact .inl rfl

theorem rejectsSoundly_ofErrors {errors : List Diagnostic} {v : Verdict}
    (he : ∀ e ∈ errors, e.severity = .error) (hv : v.RejectsSoundly) :
    (Verdict.ofErrors errors v).RejectsSoundly := by
  cases errors with
  | nil => exact hv
  | cons e es => exact ⟨by simp, he⟩

theorem reportsFault_of_mem_signatureErrors {signature : Signature} {keyword : Keyword}
    {args : Arguments} {line : Nat} {e : Diagnostic}
    (h : e ∈ signatureErrors signature keyword args line) : e.ReportsFault := by
  obtain ⟨f, hf, rfl⟩ := List.mem_map.1 h
  refine ⟨line, f, rfl, ?_⟩
  unfold Signature.faults at hf
  split at hf
  · obtain ⟨v, -, rfl⟩ := List.mem_map.1 hf
    rfl
  · obtain ⟨name, -, rfl⟩ := List.mem_map.1 hf
    rfl

theorem reportsFault_of_mem_styleErrors {kind : BlockKind} {name : String} {line : Nat}
    {e : Diagnostic} (h : e ∈ r.styleErrors kind name line) : e.ReportsFault := by
  unfold styleErrors at h
  split at h
  · cases h
  · obtain rfl := List.mem_singleton.1 h
    exact ⟨_, _, rfl, rfl⟩

theorem reportsFault_of_titleError? {n : Node} {e : Diagnostic} (h : n.titleError? = some e) :
    e.ReportsFault := by
  cases n with
  | text s => cases h
  | instruction i =>
    cases h
    exact ⟨_, _, rfl, rfl⟩

theorem reportsFault_of_sectionError? {n : Node} {e : Diagnostic} (h : n.sectionError? = some e) :
    e.ReportsFault := by
  cases n with
  | text s => cases h
  | instruction i =>
    cases i with
    | emphasis kind s line =>
      rw [Node.sectionError?] at h
      split at h
      · cases h
        exact ⟨_, _, rfl, rfl⟩
      · cases h
    | _ =>
      cases h
      exact ⟨_, _, rfl, rfl⟩

theorem reportsFault_of_mem_blockErrors {kind : BlockKind} {name : String} {line : Nat}
    {content : List Node} {error? : Node → Option Diagnostic}
    (herror : ∀ {n e}, error? n = some e → e.ReportsFault) {e : Diagnostic}
    (h : e ∈ r.styleErrors kind name line ++ content.filterMap error?) : e.ReportsFault := by
  rcases List.mem_append.1 h with h | h
  · exact reportsFault_of_mem_styleErrors h
  · obtain ⟨n, -, hn⟩ := List.mem_filterMap.1 h
    exact herror hn

theorem rejectsSoundly_judge (settings : Settings) (r : Resolution) (i : Instruction) :
    (r.judge settings i).RejectsSoundly := by
  have hsingle : ∀ line (fault : Fault),
      (Verdict.rejected [fault.diagnostic line]).RejectsSoundly :=
    fun line fault => ⟨by simp, by simp⟩
  cases i with
  | directive kind args line =>
    refine rejectsSoundly_ofErrors
      (fun e he => (reportsFault_of_mem_signatureErrors he).severity) ?_
    cases kind with
    | style =>
      show (r.judgeStyle settings args line).RejectsSoundly
      unfold judgeStyle
      cases args.text? "name" with
      | none => exact hsingle line .styleWithoutName
      | some name =>
        by_cases h : r.hasStyle name
        · simpa [h] using hsingle line (.duplicateStyle name)
        · simp [h, Verdict.corrected, Verdict.RejectsSoundly]
    | pageNumber =>
      show (r.judgePageNumber settings args line).RejectsSoundly
      unfold judgePageNumber
      by_cases h : r.pageNumber.isSome
      · simpa [h] using hsingle line .secondPageNumber
      · simp [h, Verdict.corrected, Verdict.RejectsSoundly]
    | numberizeTitle => trivial
  | block kind args content line =>
    refine rejectsSoundly_ofErrors
      (fun e he => (reportsFault_of_mem_signatureErrors he).severity) ?_
    cases kind with
    | title =>
      exact rejectsSoundly_ofErrors
        (fun e he => (reportsFault_of_mem_blockErrors reportsFault_of_titleError? he).severity)
        trivial
    | body =>
      exact rejectsSoundly_ofErrors
        (fun e he => (reportsFault_of_mem_blockErrors reportsFault_of_sectionError? he).severity)
        trivial
  | emphasis kind text line => exact hsingle line (.misplacedEmphasis kind)

/-- The errors of a rejecting verdict. -/
theorem errors_of_judge_eq_rejected {i : Instruction} {errors : List Diagnostic}
    (h : r.judge settings i = .rejected errors) :
    errors ≠ [] ∧ ∀ e ∈ errors, e.severity = .error := by
  have hj := rejectsSoundly_judge settings r i
  rw [h] at hj
  exact hj

/-! ## A step changes one thing or reports errors -/

/-- Behind a rejected instruction there are more errors, and nothing else is different. -/
def Rejected (r t : Resolution) : Prop :=
  ∃ errors ≠ [], (∀ e ∈ errors, e.severity = .error) ∧
    t = { r with diagnostics := ⟨r.diagnostics.errors ++ errors, r.diagnostics.warnings⟩ }

/-- `s` differs from `r` in the one change that a keyword makes. -/
def Changed (r s : Resolution) : Keyword → Prop
  | .directive .style =>
    ∃ style, s = { r with styles := r.styles ++ [style], names := r.names.insert style.name }
  | .directive .pageNumber => r.pageNumber = none ∧ ∃ n, s = { r with pageNumber := some n }
  | .directive .numberizeTitle => ∃ level, s = { r with numberingStart := some level }
  | .block .title => ∃ t, s = { r with content := r.content ++ [.title t] }
  | .block .body => ∃ b, s = { r with content := r.content ++ [.body b] }
  | .emphasis _ => False

/-- Behind an accepted instruction there is the change of its keyword, and more warnings. -/
def Accepted (r : Resolution) (keyword : Keyword) (t : Resolution) : Prop :=
  ∃ s warnings, r.Changed s keyword ∧ (∀ w ∈ warnings, w.severity = .warning) ∧
    t = { s with diagnostics := ⟨r.diagnostics.errors, r.diagnostics.warnings ++ warnings⟩ }

theorem report_errors {ds : List Diagnostic} (h : ∀ d ∈ ds, d.severity = .error) :
    r.report ds =
      { r with diagnostics := ⟨r.diagnostics.errors ++ ds, r.diagnostics.warnings⟩ } := by
  have he := Diagnostics.errors_extend r.diagnostics ds
  have hw := Diagnostics.warnings_extend r.diagnostics ds
  rw [List.filter_eq_self.2 (by simpa using h)] at he
  rw [List.filter_eq_nil_iff.2 (by simp +contextual [h]), List.append_nil] at hw
  rw [report, ← he, ← hw]

theorem report_warnings {ds : List Diagnostic} (h : ∀ d ∈ ds, d.severity = .warning) :
    r.report ds =
      { r with diagnostics := ⟨r.diagnostics.errors, r.diagnostics.warnings ++ ds⟩ } := by
  have he := Diagnostics.errors_extend r.diagnostics ds
  have hw := Diagnostics.warnings_extend r.diagnostics ds
  rw [List.filter_eq_nil_iff.2 (by simp +contextual [h]), List.append_nil] at he
  rw [List.filter_eq_self.2 (by simpa using h)] at hw
  rw [report, ← he, ← hw]

theorem severity_of_mem_corrections {corrections : List Correction} {keyword : Keyword}
    {line : Nat} : ∀ w ∈ corrections.map (·.diagnostic keyword line), w.severity = .warning := by
  intro w hw
  obtain ⟨c, -, rfl⟩ := List.mem_map.1 hw
  rfl

theorem step_of_rejected {i : Instruction} {errors : List Diagnostic}
    (h : r.judge settings i = .rejected errors) :
    r.step settings i =
      { r with diagnostics := ⟨r.diagnostics.errors ++ errors, r.diagnostics.warnings⟩ } := by
  rw [step, h]
  exact report_errors (errors_of_judge_eq_rejected h).2

theorem step_of_accepted {i : Instruction} {c : Change} {warnings : List Diagnostic}
    (h : r.judge settings i = .accepted c warnings) :
    r.step settings i =
      { r.change c with
        diagnostics := ⟨r.diagnostics.errors, r.diagnostics.warnings ++ warnings⟩ } := by
  obtain ⟨corrections, -, rfl⟩ := judge_eq_accepted_iff.1 h
  rw [step, h, apply, report_warnings severity_of_mem_corrections]
  cases c <;> rfl

/-- Just an accepted instruction adds no error. -/
theorem errors_step_eq_iff {i : Instruction} :
    (r.step settings i).diagnostics.errors = r.diagnostics.errors ↔
      ∃ c warnings, r.judge settings i = .accepted c warnings := by
  constructor
  · intro h
    cases hj : r.judge settings i with
    | rejected errors =>
      rw [step_of_rejected hj] at h
      exact absurd (List.append_right_eq_self.1 h) (errors_of_judge_eq_rejected hj).1
    | accepted c warnings => exact ⟨c, warnings, rfl⟩
  · rintro ⟨c, warnings, hj⟩
    rw [step_of_accepted hj]

theorem changed_of_accepts {i : Instruction} {c : Change} {corrections : List Correction}
    (h : Accepts settings r i c corrections) : r.Changed (r.change c) i.keyword := by
  cases h with
  | style => exact ⟨_, rfl⟩
  | pageNumber _ hnone => exact ⟨hnone, _, rfl⟩
  | numberizeTitle => exact ⟨_, rfl⟩
  | title => exact ⟨_, rfl⟩
  | body => exact ⟨_, rfl⟩

theorem rejected_or_accepted (settings : Settings) (r : Resolution) (i : Instruction) :
    r.Rejected (r.step settings i) ∨ r.Accepted i.keyword (r.step settings i) := by
  cases h : r.judge settings i with
  | rejected errors =>
    obtain ⟨hne, he⟩ := errors_of_judge_eq_rejected h
    exact .inl ⟨errors, hne, he, step_of_rejected h⟩
  | accepted c warnings =>
    obtain ⟨corrections, ha, rfl⟩ := judge_eq_accepted_iff.1 h
    exact .inr ⟨_, _, changed_of_accepts ha, severity_of_mem_corrections, step_of_accepted h⟩

/-! ## Leaving out what was rejected -/

/-- The instructions that add no error when a document is resolved from a state on. -/
def survivors (settings : Settings) : Resolution → List Instruction → List Instruction
  | _, [] => []
  | r, i :: is =>
    let s := r.step settings i
    if s.diagnostics.errors = r.diagnostics.errors then i :: survivors settings s is
    else survivors settings s is

/-- The state with its errors forgotten. -/
def withoutErrors (r : Resolution) : Resolution :=
  { r with diagnostics := ⟨[], r.diagnostics.warnings⟩ }

/-- No verdict looks at diagnostics. -/
theorem judge_withoutErrors (settings : Settings) (r : Resolution) (i : Instruction) :
    r.withoutErrors.judge settings i = r.judge settings i := by
  cases i with
  | directive kind args line => cases kind <;> rfl
  | block kind args content line => cases kind <;> rfl
  | emphasis kind text line => rfl

theorem step_withoutErrors_of_accepted {i : Instruction} {c : Change}
    {warnings : List Diagnostic} (h : r.judge settings i = .accepted c warnings) :
    r.withoutErrors.step settings i = (r.step settings i).withoutErrors := by
  have h' : r.withoutErrors.judge settings i = .accepted c warnings := by
    rw [judge_withoutErrors, h]
  rw [step_of_accepted h, step_of_accepted h']
  cases c <;> rfl

/-- The survivors lead where the whole document leads, without its errors. -/
theorem foldl_survivors (settings : Settings) (r : Resolution) (is : List Instruction) :
    (survivors settings r is).foldl (step settings) r.withoutErrors =
      (is.foldl (step settings) r).withoutErrors := by
  induction is generalizing r with
  | nil => rfl
  | cons i is ih =>
    simp only [survivors, List.foldl_cons]
    cases h : r.judge settings i with
    | rejected errors =>
      have hgrow : (r.step settings i).diagnostics.errors ≠ r.diagnostics.errors := by
        rw [Ne, errors_step_eq_iff, h]
        exact nofun
      have hsame : (r.step settings i).withoutErrors = r.withoutErrors := by
        rw [step_of_rejected h]
        rfl
      rw [if_neg hgrow, ← hsame]
      exact ih _
    | accepted c warnings =>
      rw [if_pos (errors_step_eq_iff.2 ⟨c, warnings, h⟩), List.foldl_cons, step_withoutErrors_of_accepted h]
      exact ih _

end Resolution

/-- **A step is all or nothing.** A rejected instruction leaves its errors only and an accepted one
makes the one change of its keyword. A document without its rejected instructions has the same
model without the errors. -/
theorem step_all_or_nothing (settings : Settings) :
    (∀ (r : Resolution) (i : Instruction),
      r.Rejected (r.step settings i) ∨ r.Accepted i.keyword (r.step settings i)) ∧
    ∀ is : List Instruction,
      let m := Model.ofInstructions settings is
      Model.ofInstructions settings (Resolution.survivors settings (.start settings) is) =
        { m with diagnostics := ⟨[], m.diagnostics.warnings⟩ } := by
  refine ⟨Resolution.rejected_or_accepted settings, fun is => ?_⟩
  have h := Resolution.foldl_survivors settings (.start settings) is
  rw [show (Resolution.start settings).withoutErrors = .start settings from rfl] at h
  simp only [Model.ofInstructions, h]
  rfl

end Folio
