import Folio.Proofs.Validity
import Mathlib.Data.List.Induction

/-!
# What counts of several directives

A directive counts only if its arguments fit its signature. Of those that do,

- the first style of each name counts, unless a built-in style has the name;
- the first page numbers count;
- the last start of title numbering counts.

Every style and all page numbers that do not count are an error.

**Theorem (`resolves_directives`).** So it is for every document, whatever else stands in it.

What a directive asks for is read off it alone (`Instruction.asks?`). A step looks at nothing more
of the instruction to move styles, page numbers and numbering (`turn_step`). So each of these has an
equation for a step, and the run follows by induction on the document from its end.
-/

namespace Folio

/-! ## What a directive asks for -/

instance (i : Instruction) : Decidable i.WellSigned :=
  match i with
  | .directive _ _ _ => inferInstanceAs (Decidable (_ = []))
  | .block _ _ _ _ => inferInstanceAs (Decidable (_ = []))
  | .emphasis _ _ _ => inferInstanceAs (Decidable False)

namespace Change

def style? : Change → Option Style
  | style s => some s
  | _ => none

def pageNumber? : Change → Option PageNumber
  | pageNumber n => some n
  | _ => none

def numberingStart? : Change → Option UInt32
  | numberingStart level => some level
  | _ => none

end Change

/-- The change that the arguments of a directive describe. A style without a name is none. -/
def Arguments.change? (args : Arguments) (settings : Settings) : DirectiveKind → Option Change
  | .style => (args.text? "name").map fun name => .style (args.style settings name).value
  | .pageNumber => some (.pageNumber (args.pageNumber settings).value)
  | .numberizeTitle => some (.numberingStart (args.numberingStart settings).value)

namespace Instruction

/-- The change that a well-signed directive asks for. -/
def asks? (settings : Settings) : Instruction → Option Change
  | directive kind args line =>
    if (directive kind args line).WellSigned then args.change? settings kind else none
  | block _ _ _ _ => none
  | emphasis _ _ _ => none

/-- The style that a well-signed `$style` with a name describes. -/
def style? (settings : Settings) (i : Instruction) : Option Style :=
  (i.asks? settings).bind Change.style?

/-- The page numbers that a well-signed `$pageNumber` describes. -/
def pageNumber? (settings : Settings) (i : Instruction) : Option PageNumber :=
  (i.asks? settings).bind Change.pageNumber?

/-- The start that a well-signed `$numberizeTitle` gives. -/
def numberingStart? (settings : Settings) (i : Instruction) : Option UInt32 :=
  (i.asks? settings).bind Change.numberingStart?

variable {settings : Settings} {kind : DirectiveKind} {args : Arguments} {line : Nat}

theorem asks?_of_wellSigned (h : (directive kind args line).WellSigned) :
    (directive kind args line).asks? settings = args.change? settings kind :=
  if_pos h

theorem asks?_of_not_wellSigned (h : ¬ (directive kind args line).WellSigned) :
    (directive kind args line).asks? settings = none :=
  if_neg h

end Instruction

/-- How many errors have the code. -/
def Diagnostics.errorCount (ds : Diagnostics) (code : Diagnostic.Code) : Nat :=
  ds.errors.countP fun e => e.code = code

/-! ## What a step does -/

namespace Resolution

variable {settings : Settings} {r t : Resolution}

theorem code_of_reportsFault {e : Diagnostic} (h : e.ReportsFault) :
    e.code ≠ .duplicateStyle ∧ e.code ≠ .duplicatePageNumber := by
  obtain ⟨line, f, rfl, hf⟩ := h
  cases f with
  | duplicateStyle | secondPageNumber => cases hf
  | _ => exact ⟨nofun, nofun⟩

/-- Other faults do not count as duplicates. -/
theorem countP_of_reportsFault {errors : List Diagnostic} (h : ∀ e ∈ errors, e.ReportsFault) :
    errors.countP (fun e => e.code = .duplicateStyle) = 0 ∧
      errors.countP (fun e => e.code = .duplicatePageNumber) = 0 := by
  constructor
  · exact List.countP_eq_zero.2 fun e he => by simpa using (code_of_reportsFault (h e he)).1
  · exact List.countP_eq_zero.2 fun e he => by simpa using (code_of_reportsFault (h e he)).2

theorem reportsFault_of_block {kind : BlockKind} {args : Arguments} {content : List Node}
    {line : Nat} {errors : List Diagnostic}
    (h : r.judge settings (.block kind args content line) = .rejected errors) :
    ∀ e ∈ errors, e.ReportsFault := by
  intro e he
  obtain rfl | h := ofErrors_eq_rejected h
  · exact reportsFault_of_mem_signatureErrors he
  · cases kind with
    | title =>
      obtain rfl | h := ofErrors_eq_rejected h
      · exact reportsFault_of_mem_blockErrors reportsFault_of_titleError? he
      · cases h
    | body =>
      obtain rfl | h := ofErrors_eq_rejected h
      · exact reportsFault_of_mem_blockErrors reportsFault_of_sectionError? he
      · cases h

/-- What a step can lead to, by the change that the instruction asks for as a directive. -/
inductive Turn (r : Resolution) : Option Change → Resolution → Prop
  | style {s : Style} (warnings : List Diagnostic) : r.hasStyle s.name = false →
      Turn r (some (.style s))
        { r.change (.style s) with diagnostics := ⟨r.diagnostics.errors, warnings⟩ }
  | duplicateStyle {s : Style} (line : Nat) : r.hasStyle s.name →
      Turn r (some (.style s)) { r with diagnostics :=
        ⟨r.diagnostics.errors ++ [Fault.diagnostic line (.duplicateStyle s.name)],
          r.diagnostics.warnings⟩ }
  | pageNumber (n : PageNumber) (warnings : List Diagnostic) : r.pageNumber = none →
      Turn r (some (.pageNumber n))
        { r.change (.pageNumber n) with diagnostics := ⟨r.diagnostics.errors, warnings⟩ }
  | secondPageNumber (n : PageNumber) (line : Nat) : r.pageNumber.isSome →
      Turn r (some (.pageNumber n)) { r with diagnostics :=
        ⟨r.diagnostics.errors ++ [Fault.diagnostic line .secondPageNumber],
          r.diagnostics.warnings⟩ }
  | numberingStart (level : UInt32) (warnings : List Diagnostic) :
      Turn r (some (.numberingStart level))
        { r.change (.numberingStart level) with diagnostics := ⟨r.diagnostics.errors, warnings⟩ }
  | item (i : Item) (warnings : List Diagnostic) :
      Turn r none { r.change (.item i) with diagnostics := ⟨r.diagnostics.errors, warnings⟩ }
  | rejected {errors : List Diagnostic} : (∀ e ∈ errors, e.ReportsFault) →
      Turn r none { r with diagnostics :=
        ⟨r.diagnostics.errors ++ errors, r.diagnostics.warnings⟩ }

theorem turn_style {args : Arguments} {line : Nat}
    (hs : (Instruction.directive .style args line).WellSigned) :
    r.Turn ((Instruction.directive .style args line).asks? settings)
      (r.step settings (.directive .style args line)) := by
  have hjudge : r.judge settings (.directive .style args line) =
      r.judgeStyle settings args line := by
    rw [judge, signatureErrors_eq_nil_iff.2 hs]
    rfl
  rw [Instruction.asks?_of_wellSigned hs, Arguments.change?]
  cases hname : args.text? "name" with
  | none =>
    have hj : r.judgeStyle settings args line =
        .rejected [Fault.diagnostic line .styleWithoutName] := by
      rw [judgeStyle, hname]
    rw [step_of_rejected (hjudge.trans hj)]
    exact .rejected (List.forall_mem_singleton.2 ⟨_, _, rfl, rfl⟩)
  | some name =>
    cases hnew : r.hasStyle name with
    | false =>
      rw [step_of_accepted (judge_eq_accepted_iff.2 ⟨_, .style hs hname hnew, rfl⟩)]
      exact .style _ hnew
    | true =>
      have hj : r.judgeStyle settings args line =
          .rejected [Fault.diagnostic line (.duplicateStyle name)] := by
        rw [judgeStyle, hname]
        exact if_pos hnew
      rw [step_of_rejected (hjudge.trans hj)]
      exact .duplicateStyle (s := (args.style settings name).value) line hnew

theorem turn_pageNumber {args : Arguments} {line : Nat}
    (hs : (Instruction.directive .pageNumber args line).WellSigned) :
    r.Turn ((Instruction.directive .pageNumber args line).asks? settings)
      (r.step settings (.directive .pageNumber args line)) := by
  rw [Instruction.asks?_of_wellSigned hs]
  cases hn : r.pageNumber with
  | none =>
    rw [step_of_accepted (judge_eq_accepted_iff.2 ⟨_, .pageNumber hs hn, rfl⟩)]
    exact .pageNumber _ _ hn
  | some n =>
    have hsome : r.pageNumber.isSome := by rw [hn]; rfl
    have hj : r.judge settings (.directive .pageNumber args line) =
        .rejected [Fault.diagnostic line .secondPageNumber] := by
      rw [judge, signatureErrors_eq_nil_iff.2 hs]
      exact if_pos hsome
    rw [step_of_rejected hj]
    exact .secondPageNumber _ line hsome

/-- **What an instruction asks for decides** what a step does to styles, page numbers and numbering,
and which of them were given twice. -/
theorem turn_step (settings : Settings) (r : Resolution) (i : Instruction) :
    r.Turn (i.asks? settings) (r.step settings i) := by
  cases i with
  | directive kind args line =>
    by_cases hs : (Instruction.directive kind args line).WellSigned
    · cases kind with
      | style => exact turn_style hs
      | pageNumber => exact turn_pageNumber hs
      | numberizeTitle =>
        rw [Instruction.asks?_of_wellSigned hs,
          step_of_accepted (judge_eq_accepted_iff.2 ⟨_, .numberizeTitle hs, rfl⟩)]
        exact .numberingStart _ _
    · have hne : signatureErrors (.ofDirective kind) (.directive kind) args line ≠ [] :=
        fun h => hs (signatureErrors_eq_nil_iff.1 h)
      have hj : r.judge settings (.directive kind args line) =
          .rejected (signatureErrors (.ofDirective kind) (.directive kind) args line) :=
        ofErrors_of_ne_nil hne
      rw [Instruction.asks?_of_not_wellSigned hs, step_of_rejected hj]
      exact .rejected fun e => reportsFault_of_mem_signatureErrors
  | block kind args content line =>
    cases hj : r.judge settings (.block kind args content line) with
    | rejected errors =>
      rw [step_of_rejected hj]
      exact .rejected (reportsFault_of_block hj)
    | accepted c warnings =>
      obtain ⟨corrections, ha, -⟩ := judge_eq_accepted_iff.1 hj
      rw [step_of_accepted hj]
      cases ha with
      | title => exact .item _ _
      | body => exact .item _ _
  | emphasis kind text line =>
    rw [step_of_rejected (r := r) (i := .emphasis kind text line) rfl]
    exact .rejected (List.forall_mem_singleton.2 ⟨_, _, rfl, rfl⟩)

namespace Turn

variable {asked : Option Change}

theorem styles_eq (h : r.Turn asked t) :
    t.styles =
      r.styles ++ ((asked.bind Change.style?).filter fun s => !r.hasStyle s.name).toList := by
  cases h <;> simp [Change.style?, change, Option.filter_some, *]

theorem hasStyle_eq (h : r.Turn asked t) (name : String) :
    t.hasStyle name = (r.hasStyle name || (asked.bind Change.style?).any (name == ·.name)) := by
  cases h with
  | @style s warnings hnew =>
    have hmem : name ∈ r.names.insert s.name ↔ name ∈ r.names ∨ name = s.name := by
      rw [List.mem_insert_iff, or_comm]
    rw [Bool.eq_iff_iff]
    simpa [hasStyle, change, Change.style?] using hmem
  | @duplicateStyle s line hold =>
    by_cases hname : name = s.name
    · subst hname
      rw [hold, Bool.true_or]
      exact hold
    · simp [Change.style?, hasStyle, hname]
  | _ => simp [Change.style?, hasStyle, change]

theorem pageNumber_eq (h : r.Turn asked t) :
    t.pageNumber = r.pageNumber.or (asked.bind Change.pageNumber?) := by
  cases h with
  | secondPageNumber n line hn =>
    obtain ⟨m, hm⟩ := Option.isSome_iff_exists.1 hn
    simp [hm]
  | _ => simp [Change.pageNumber?, change, *]

theorem numberingStart_eq (h : r.Turn asked t) :
    t.numberingStart = (asked.bind Change.numberingStart?).or r.numberingStart := by
  cases h <;> simp [Change.numberingStart?, change]

theorem count_duplicateStyle (h : r.Turn asked t) :
    t.diagnostics.errorCount .duplicateStyle = r.diagnostics.errorCount .duplicateStyle +
      ((asked.bind Change.style?).filter fun s => r.hasStyle s.name).toList.length := by
  unfold Diagnostics.errorCount
  cases h with
  | rejected hfaults =>
    rw [List.countP_append, (countP_of_reportsFault hfaults).1]
    rfl
  | _ => simp [Change.style?, Fault.diagnostic, Fault.code, Option.filter_some, *]

theorem count_duplicatePageNumber (h : r.Turn asked t) :
    t.diagnostics.errorCount .duplicatePageNumber =
      r.diagnostics.errorCount .duplicatePageNumber +
        ((asked.bind Change.pageNumber?).filter fun _ => r.pageNumber.isSome).toList.length := by
  unfold Diagnostics.errorCount
  cases h with
  | rejected hfaults =>
    rw [List.countP_append, (countP_of_reportsFault hfaults).2]
    rfl
  | _ => simp [Change.pageNumber?, Fault.diagnostic, Fault.code, Option.filter_some, *]

end Turn

/-! ### Each part of the state -/

theorem styles_step (settings : Settings) (r : Resolution) (i : Instruction) :
    (r.step settings i).styles =
      r.styles ++ ((i.style? settings).filter fun s => !r.hasStyle s.name).toList :=
  (turn_step settings r i).styles_eq

theorem hasStyle_step (settings : Settings) (r : Resolution) (i : Instruction) (name : String) :
    (r.step settings i).hasStyle name =
      (r.hasStyle name || (i.style? settings).any (name == ·.name)) :=
  (turn_step settings r i).hasStyle_eq name

theorem pageNumber_step (settings : Settings) (r : Resolution) (i : Instruction) :
    (r.step settings i).pageNumber = r.pageNumber.or (i.pageNumber? settings) :=
  (turn_step settings r i).pageNumber_eq

theorem numberingStart_step (settings : Settings) (r : Resolution) (i : Instruction) :
    (r.step settings i).numberingStart = (i.numberingStart? settings).or r.numberingStart :=
  (turn_step settings r i).numberingStart_eq

theorem duplicateStyles_step (settings : Settings) (r : Resolution) (i : Instruction) :
    (r.step settings i).diagnostics.errorCount .duplicateStyle =
      r.diagnostics.errorCount .duplicateStyle +
        ((i.style? settings).filter fun s => r.hasStyle s.name).toList.length :=
  (turn_step settings r i).count_duplicateStyle

theorem duplicatePageNumbers_step (settings : Settings) (r : Resolution) (i : Instruction) :
    (r.step settings i).diagnostics.errorCount .duplicatePageNumber =
      r.diagnostics.errorCount .duplicatePageNumber +
        ((i.pageNumber? settings).filter fun _ => r.pageNumber.isSome).toList.length :=
  (turn_step settings r i).count_duplicatePageNumber

end Resolution

/-! ## The first style of each name -/

namespace Settings

/-- A style of a list has a new name if no built-in style has it and none in front of it. -/
def IsNew (settings : Settings) (front : List Style) (s : Style) : Prop :=
  s.name ∉ (settings.builtinStyles ++ front).map (·.name)

instance (settings : Settings) (front : List Style) (s : Style) :
    Decidable (settings.IsNew front s) :=
  inferInstanceAs (Decidable (_ ∉ _))

/-- The styles with a new name. -/
def firstStyles (settings : Settings) (styles : List Style) : List Style :=
  (styles.zipIdx.filter fun e => settings.IsNew (styles.take e.2) e.1).map (·.1)

theorem firstStyles_concat (settings : Settings) (styles : List Style) (s : Style) :
    settings.firstStyles (styles ++ [s]) =
      settings.firstStyles styles ++ if settings.IsNew styles s then [s] else [] := by
  have hfront : ∀ e ∈ styles.zipIdx, (styles ++ [s]).take e.2 = styles.take e.2 := by
    intro e he
    have hlt := List.snd_lt_of_mem_zipIdx he
    exact List.take_append_of_le_length (by omega)
  unfold firstStyles
  rw [List.zipIdx_append, List.filter_append, List.map_append,
    List.filter_congr fun e he => by rw [hfront e he]]
  by_cases h : settings.IsNew styles s <;> simp [h]

end Settings

theorem filterMap_concat {α β : Type} (f : α → Option β) (l : List α) (a : α) :
    (l ++ [a]).filterMap f = l.filterMap f ++ (f a).toList := by
  cases h : f a <;> simp [h]

namespace Resolution

variable {settings : Settings} {r : Resolution} {is : List Instruction}

/-- What the directives of the instructions so far have made of a state. -/
structure Settled (settings : Settings) (is : List Instruction) (r : Resolution) : Prop where
  styles : r.styles = settings.builtinStyles ++
    settings.firstStyles (is.filterMap (Instruction.style? settings))
  names : ∀ name, r.hasStyle name ↔ name ∈
    (settings.builtinStyles ++ is.filterMap (Instruction.style? settings)).map (·.name)
  pageNumber : r.pageNumber = (is.filterMap (Instruction.pageNumber? settings)).head?
  numberingStart :
    r.numberingStart = (is.filterMap (Instruction.numberingStart? settings)).getLast?
  duplicateStyles : r.diagnostics.errorCount .duplicateStyle +
      (settings.firstStyles (is.filterMap (Instruction.style? settings))).length =
    (is.filterMap (Instruction.style? settings)).length
  duplicatePageNumbers : r.diagnostics.errorCount .duplicatePageNumber =
    (is.filterMap (Instruction.pageNumber? settings)).length - 1

theorem settled_start (settings : Settings) : (start settings).Settled settings [] where
  styles := rfl
  names := fun _ => List.contains_iff_mem
  pageNumber := rfl
  numberingStart := rfl
  duplicateStyles := rfl
  duplicatePageNumbers := rfl

/-- **A step** settles one more instruction. -/
theorem settled_step (h : r.Settled settings is) (i : Instruction) :
    (r.step settings i).Settled settings (is ++ [i]) := by
  have hnew : ∀ s : Style, r.hasStyle s.name = false ↔
      settings.IsNew (is.filterMap (Instruction.style? settings)) s := by
    intro s
    rw [← Bool.not_eq_true, h.names]
    rfl
  constructor
  · rw [styles_step, h.styles, filterMap_concat]
    cases i.style? settings with
    | none => simp
    | some s =>
      rw [Option.toList_some, Settings.firstStyles_concat, List.append_assoc]
      by_cases hname : r.hasStyle s.name
      · simp [hname, ← hnew, Option.filter_some]
      · simp [hname, ← hnew, Option.filter_some]
  · intro name
    rw [hasStyle_step, Bool.or_eq_true, h.names, filterMap_concat, ← List.append_assoc]
    generalize settings.builtinStyles ++ is.filterMap _ = front
    cases i.style? settings <;> simp
  · rw [pageNumber_step, h.pageNumber, filterMap_concat, List.head?_append, Option.head?_toList]
  · rw [numberingStart_step, h.numberingStart, filterMap_concat, List.getLast?_append]
    cases i.numberingStart? settings <;> rfl
  · rw [duplicateStyles_step, filterMap_concat]
    have hcount := h.duplicateStyles
    cases i.style? settings with
    | none => simpa using hcount
    | some s =>
      rw [Option.toList_some, Settings.firstStyles_concat]
      by_cases hname : r.hasStyle s.name
      · simp [hname, ← hnew, Option.filter_some]
        omega
      · simp [hname, ← hnew, Option.filter_some]
        omega
  · rw [duplicatePageNumbers_step, h.duplicatePageNumbers, filterMap_concat, h.pageNumber]
    cases is.filterMap (Instruction.pageNumber? settings) <;> cases i.pageNumber? settings <;> simp

/-- **A run** settles its instructions. -/
theorem settled_foldl_step (settings : Settings) (is : List Instruction) :
    (is.foldl (step settings) (start settings)).Settled settings is := by
  induction is using List.reverseRecOn with
  | nil => exact settled_start settings
  | append_singleton is i ih =>
    rw [List.foldl_append]
    exact settled_step ih i

end Resolution

/-- **What counts of several directives.** The first style of each name counts and the first page
numbers do, the others are an error each. The last start of title numbering counts. -/
theorem resolves_directives (settings : Settings) (is : List Instruction) :
    let m := Model.ofInstructions settings is
    let styles := is.filterMap (Instruction.style? settings)
    let pageNumbers := is.filterMap (Instruction.pageNumber? settings)
    m.styles = settings.builtinStyles ++ settings.firstStyles styles ∧
      m.diagnostics.errorCount .duplicateStyle + (settings.firstStyles styles).length =
        styles.length ∧
      m.pageNumber = pageNumbers.head?.getD settings.pageNumber ∧
      m.diagnostics.errorCount .duplicatePageNumber = pageNumbers.length - 1 ∧
      m.numberingStart = (is.filterMap (Instruction.numberingStart? settings)).getLast? := by
  intro m styles pageNumbers
  have h := Resolution.settled_foldl_step settings is
  exact ⟨h.styles, h.duplicateStyles, congrArg (·.getD settings.pageNumber) h.pageNumber,
    h.duplicatePageNumbers, h.numberingStart⟩

end Folio
