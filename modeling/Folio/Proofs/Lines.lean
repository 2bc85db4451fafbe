import Folio.Instruction.Reader
import Folio.Resolve

/-!
# Lines only travel

The line of a keyword goes into its instruction, and from there into the diagnostics about it.
Nothing on the way compares lines or computes with them. So if the lines of the tokens are
renamed by any function `f`, the lines of the instructions and of the diagnostics are renamed by
`f`, and nothing else changes.

**Reading** (`readFrom_mapLine`) and **resolution** (`ofInstructions_mapLine`) each commute with
renaming; both are carried by one lemma about a step.
-/

namespace Folio

variable (f : Nat → Nat)

/-! ## Renaming lines -/

def Token.mapLine (t : Token) : Token := { t with line := f t.line }

mutual

def Instruction.mapLine : Instruction → Instruction
  | .directive kind args line => .directive kind args (f line)
  | .block kind args content line => .block kind args (Node.mapLines content) (f line)
  | .emphasis kind text line => .emphasis kind text (f line)

def Node.mapLines : List Node → List Node
  | [] => []
  | .text s :: content => .text s :: Node.mapLines content
  | .instruction i :: content => .instruction i.mapLine :: Node.mapLines content

end

def Node.mapLine : Node → Node
  | .text s => .text s
  | .instruction i => .instruction (i.mapLine f)

theorem Node.mapLines_eq_map (content : List Node) :
    Node.mapLines f content = content.map (Node.mapLine f) := by
  induction content with
  | nil => rfl
  | cons n content ih => cases n <;> simp [Node.mapLines, Node.mapLine, ih]

@[simp] theorem Instruction.line_mapLine (i : Instruction) : (i.mapLine f).line = f i.line := by
  cases i <;> rfl

@[simp] theorem Instruction.keyword_mapLine (i : Instruction) :
    (i.mapLine f).keyword = i.keyword := by
  cases i <;> rfl

/-! ## Reading -/

def Head.mapLine : Head → Head
  | .directive kind line => .directive kind (f line)
  | .block kind line => .block kind (f line)

def Phase.mapLine : Phase → Phase
  | .between => .between
  | .openList head => .openList (head.mapLine f)
  | .firstName head => .firstName (head.mapLine f)
  | .nextName head args => .nextName (head.mapLine f) args
  | .equals head args name => .equals (head.mapLine f) args name
  | .value head args name => .value (head.mapLine f) args name
  | .separator head args => .separator (head.mapLine f) args
  | .openContent kind line args => .openContent kind (f line) args
  | .emphasisList kind line => .emphasisList kind (f line)
  | .emphasisListEnd kind line => .emphasisListEnd kind (f line)
  | .emphasisOpen kind line => .emphasisOpen kind (f line)
  | .emphasisText kind line => .emphasisText kind (f line)
  | .emphasisClose kind line s => .emphasisClose kind (f line) s

def Frame.mapLine (fr : Frame) : Frame :=
  ⟨fr.kind, f fr.line, fr.arguments, fr.content.map (Node.mapLine f)⟩

def Reader.mapLine (r : Reader) : Reader :=
  ⟨r.finished.map (Instruction.mapLine f), r.frames.map (Frame.mapLine f), r.phase.mapLine f⟩

def SyntaxError.mapLine (e : SyntaxError) : SyntaxError :=
  ⟨e.found.map (Token.mapLine f), f e.line, e.context⟩

theorem Phase.context_mapLine (p : Phase) : (p.mapLine f).context = p.context := by
  cases p <;> rfl

namespace Reader

theorem finish_mapLine (r : Reader) (i : Instruction) :
    (r.mapLine f).finish (i.mapLine f) = (r.finish i).mapLine f := by
  obtain ⟨finished, frames, phase⟩ := r
  cases frames <;> rfl

theorem close_mapLine (fr : Frame) : (fr.mapLine f).close = fr.close.mapLine f := by
  simp [Frame.close, Frame.mapLine, Instruction.mapLine, Node.mapLines_eq_map]

theorem closeList_mapLine (r : Reader) (args : Arguments) (head : Head) :
    (r.mapLine f).closeList args (head.mapLine f) = (r.closeList args head).mapLine f := by
  cases head with
  | directive kind line => exact finish_mapLine f r (.directive kind args line)
  | block kind line => rfl

theorem between?_mapLine (r : Reader) (t : Token) :
    (r.mapLine f).between? (t.mapLine f) = (r.between? t).map (mapLine f) := by
  obtain ⟨finished, frames, phase⟩ := r
  have hk : (t.mapLine f).kind = t.kind := rfl
  unfold between?
  rw [hk]
  split
  · rfl
  · rfl
  · rfl
  · cases frames <;> rfl
  · cases frames with
    | nil => rfl
    | cons fr fs =>
      show some (finish ⟨_, _, _⟩ (fr.mapLine f).close) = _
      rw [close_mapLine]
      exact congrArg some (finish_mapLine f ⟨finished, fs, .between⟩ fr.close)
  · rfl

/-- **A step of the reader.** -/
theorem step?_mapLine (r : Reader) (t : Token) :
    (r.mapLine f).step? (t.mapLine f) = (r.step? t).map (mapLine f) := by
  have hk : (t.mapLine f).kind = t.kind := rfl
  have hp : (r.mapLine f).phase = r.phase.mapLine f := rfl
  have hclose := closeList_mapLine f r
  have hfinish := finish_mapLine f r
  unfold step?
  rw [hk, hp]
  cases hphase : r.phase with
  | between => exact between?_mapLine f r t
  | firstName head | separator head args =>
    cases t.kind with
    | closeParen => exact congrArg some (hclose _ _)
    | _ => rfl
  | emphasisText kind line =>
    cases t.kind with
    | closeBrace => exact congrArg some (hfinish (.emphasis kind "" line))
    | _ => rfl
  | emphasisClose kind line s =>
    cases t.kind with
    | closeBrace => exact congrArg some (hfinish (.emphasis kind s line))
    | _ => rfl
  | _ => cases t.kind <;> rfl

theorem document?_mapLine (r : Reader) :
    (r.mapLine f).document? = r.document?.map (List.map (Instruction.mapLine f)) := by
  obtain ⟨finished, frames, phase⟩ := r
  cases phase <;> cases frames <;> cases finished <;>
    simp [document?, mapLine, Phase.mapLine]

/-- **A run of the reader.** -/
theorem readFrom_mapLine (r : Reader) (line : Nat) (ts : List Token) :
    (r.mapLine f).readFrom (f line) (ts.map (Token.mapLine f)) =
      ((r.readFrom line ts).map (List.map (Instruction.mapLine f))).mapError
        (SyntaxError.mapLine f) := by
  induction ts generalizing r line with
  | nil =>
    simp only [List.map_nil, readFrom, document?_mapLine]
    cases r.document? with
    | none =>
      rw [show (r.mapLine f).phase = r.phase.mapLine f from rfl, Phase.context_mapLine]
      rfl
    | some is => rfl
  | cons t ts ih =>
    simp only [List.map_cons, readFrom, step?_mapLine]
    cases r.step? t with
    | none =>
      rw [show (r.mapLine f).phase = r.phase.mapLine f from rfl, Phase.context_mapLine]
      rfl
    | some r' => exact ih r' t.line

end Reader

/-- The renamed tokens of a document are read as its renamed instructions, and only if the
document is read itself. -/
theorem read_mapLine_eq_ok_iff {ts : List Token} {js : List Instruction} :
    Instruction.read (ts.map (Token.mapLine f)) = .ok js ↔
      ∃ is, Instruction.read ts = .ok is ∧ is.map (Instruction.mapLine f) = js := by
  cases ts with
  | nil =>
    have h : Instruction.read [] = .error ⟨none, 1, .instruction⟩ := rfl
    simp [h]
  | cons t ts =>
    have h : Instruction.read ((t :: ts).map (Token.mapLine f)) =
        ((Instruction.read (t :: ts)).map (List.map (Instruction.mapLine f))).mapError
          (SyntaxError.mapLine f) :=
      Reader.readFrom_mapLine f .start 1 (t :: ts)
    rw [h]
    cases Instruction.read (t :: ts) with
    | error e =>
      show Except.error (e.mapLine f) = .ok js ↔ _
      simp
    | ok is =>
      show Except.ok (is.map (Instruction.mapLine f)) = .ok js ↔ _
      simp

/-! ## Resolution -/

def Diagnostic.mapLine (d : Diagnostic) : Diagnostic := { d with line := f d.line }

def Diagnostics.mapLine (ds : Diagnostics) : Diagnostics :=
  ⟨ds.errors.map (Diagnostic.mapLine f), ds.warnings.map (Diagnostic.mapLine f)⟩

def Verdict.mapLine : Verdict → Verdict
  | .rejected errors => .rejected (errors.map (Diagnostic.mapLine f))
  | .accepted change warnings => .accepted change (warnings.map (Diagnostic.mapLine f))

def Resolution.mapLine (r : Resolution) : Resolution :=
  { r with diagnostics := r.diagnostics.mapLine f }

def Model.mapLine (m : Model) : Model := { m with diagnostics := m.diagnostics.mapLine f }

theorem Diagnostics.extend_mapLine (ds : Diagnostics) (more : List Diagnostic) :
    (ds.mapLine f).extend (more.map (Diagnostic.mapLine f)) = (ds.extend more).mapLine f := by
  induction more generalizing ds with
  | nil => rfl
  | cons d more ih =>
    have hpush : (ds.mapLine f).push (d.mapLine f) = (ds.push d).mapLine f := by
      unfold push
      rw [show (d.mapLine f).severity = d.severity from rfl]
      cases d.severity <;> simp [mapLine]
    simp only [extend, List.map_cons, List.foldl_cons, hpush] at ih ⊢
    exact ih (ds.push d)

theorem Verdict.ofErrors_mapLine (errors : List Diagnostic) (v : Verdict) :
    Verdict.ofErrors (errors.map (Diagnostic.mapLine f)) (v.mapLine f) =
      (Verdict.ofErrors errors v).mapLine f := by
  cases errors <;> rfl

theorem Verdict.corrected_mapLine (keyword : Keyword) (line : Nat) (change : Change)
    (corrections : List Correction) :
    Verdict.corrected keyword (f line) change corrections =
      (Verdict.corrected keyword line change corrections).mapLine f := by
  simp [corrected, mapLine, Correction.diagnostic, Diagnostic.mapLine]

theorem Node.text?_mapLine (n : Node) : (n.mapLine f).text? = n.text? := by cases n <;> rfl

theorem Node.titleError?_mapLine (n : Node) :
    (n.mapLine f).titleError? = n.titleError?.map (Diagnostic.mapLine f) := by
  cases n with
  | text s => rfl
  | instruction i =>
    simp [titleError?, Node.mapLine, Fault.diagnostic, Diagnostic.mapLine]

theorem Node.sectionError?_mapLine (n : Node) :
    (n.mapLine f).sectionError? = n.sectionError?.map (Diagnostic.mapLine f) := by
  cases n with
  | text s => rfl
  | instruction i =>
    cases i with
    | emphasis kind s line => by_cases h : s.isEmpty <;>
        simp [sectionError?, Node.mapLine, Instruction.mapLine, h, Fault.diagnostic,
          Diagnostic.mapLine]
    | _ => rfl

theorem Node.run?_mapLine (n : Node) : (n.mapLine f).run? = n.run? := by
  cases n with
  | text s => rfl
  | instruction i => cases i <;> rfl

namespace Resolution

theorem signatureErrors_mapLine (signature : Signature) (keyword : Keyword) (args : Arguments)
    (line : Nat) :
    signatureErrors signature keyword args (f line) =
      (signatureErrors signature keyword args line).map (Diagnostic.mapLine f) := by
  simp [signatureErrors, Fault.diagnostic, Diagnostic.mapLine]

theorem styleErrors_mapLine (r : Resolution) (kind : BlockKind) (name : String) (line : Nat) :
    (r.mapLine f).styleErrors kind name (f line) =
      (r.styleErrors kind name line).map (Diagnostic.mapLine f) := by
  unfold styleErrors
  rw [show (r.mapLine f).hasStyle name = r.hasStyle name from rfl]
  split <;> rfl

variable (settings : Settings)

theorem judgeStyle_mapLine (r : Resolution) (args : Arguments) (line : Nat) :
    (r.mapLine f).judgeStyle settings args (f line) =
      (r.judgeStyle settings args line).mapLine f := by
  unfold judgeStyle
  cases args.text? "name" with
  | none => rfl
  | some name =>
    simp only [show (r.mapLine f).hasStyle name = r.hasStyle name from rfl]
    split
    · rfl
    · exact Verdict.corrected_mapLine f _ _ _ _

theorem judgePageNumber_mapLine (r : Resolution) (args : Arguments) (line : Nat) :
    (r.mapLine f).judgePageNumber settings args (f line) =
      (r.judgePageNumber settings args line).mapLine f := by
  unfold judgePageNumber
  rw [show (r.mapLine f).pageNumber = r.pageNumber from rfl]
  split
  · rfl
  · exact Verdict.corrected_mapLine f _ _ _ _

theorem judgeNumbering_mapLine (args : Arguments) (line : Nat) :
    judgeNumbering settings args (f line) = (judgeNumbering settings args line).mapLine f :=
  Verdict.corrected_mapLine f _ _ _ _

theorem judgeTitle_mapLine (r : Resolution) (args : Arguments) (content : List Node)
    (line : Nat) :
    (r.mapLine f).judgeTitle settings args (content.map (Node.mapLine f)) (f line) =
      (r.judgeTitle settings args content line).mapLine f := by
  have herrors : (content.map (Node.mapLine f)).filterMap Node.titleError? =
      (content.filterMap Node.titleError?).map (Diagnostic.mapLine f) := by
    rw [List.filterMap_map, List.map_filterMap]
    congr 1
    funext n
    exact Node.titleError?_mapLine f n
  have htexts : (content.map (Node.mapLine f)).filterMap Node.text? =
      content.filterMap Node.text? := by
    rw [List.filterMap_map]
    congr 1
    funext n
    exact Node.text?_mapLine f n
  simp only [judgeTitle]
  rw [styleErrors_mapLine, herrors, htexts, ← List.map_append, Verdict.corrected_mapLine,
    Verdict.ofErrors_mapLine]

theorem judgeSection_mapLine (r : Resolution) (args : Arguments) (content : List Node)
    (line : Nat) :
    (r.mapLine f).judgeSection settings args (content.map (Node.mapLine f)) (f line) =
      (r.judgeSection settings args content line).mapLine f := by
  have herrors : (content.map (Node.mapLine f)).filterMap Node.sectionError? =
      (content.filterMap Node.sectionError?).map (Diagnostic.mapLine f) := by
    rw [List.filterMap_map, List.map_filterMap]
    congr 1
    funext n
    exact Node.sectionError?_mapLine f n
  have hruns : (content.map (Node.mapLine f)).filterMap Node.run? =
      content.filterMap Node.run? := by
    rw [List.filterMap_map]
    congr 1
    funext n
    exact Node.run?_mapLine f n
  simp only [judgeSection]
  rw [styleErrors_mapLine, herrors, hruns, ← List.map_append, ← Verdict.ofErrors_mapLine]
  rfl

theorem judge_mapLine (r : Resolution) (i : Instruction) :
    (r.mapLine f).judge settings (i.mapLine f) = (r.judge settings i).mapLine f := by
  cases i with
  | directive kind args line =>
    unfold judge Instruction.mapLine
    simp only
    rw [signatureErrors_mapLine, ← Verdict.ofErrors_mapLine]
    cases kind with
    | style => simp only [judgeStyle_mapLine]
    | pageNumber => simp only [judgePageNumber_mapLine]
    | numberizeTitle => simp only [judgeNumbering_mapLine]
  | block kind args content line =>
    unfold judge Instruction.mapLine
    simp only
    rw [signatureErrors_mapLine, Node.mapLines_eq_map, ← Verdict.ofErrors_mapLine]
    cases kind with
    | title => simp only [judgeTitle_mapLine]
    | body => simp only [judgeSection_mapLine]
  | emphasis kind text line => rfl

/-- **A step of resolution.** -/
theorem step_mapLine (r : Resolution) (i : Instruction) :
    (r.mapLine f).step settings (i.mapLine f) = (r.step settings i).mapLine f := by
  unfold step
  rw [judge_mapLine]
  cases r.judge settings i with
  | rejected errors => simp [Verdict.mapLine, apply, report, mapLine, Diagnostics.extend_mapLine]
  | accepted c warnings =>
    cases c <;> simp [Verdict.mapLine, apply, change, report, mapLine, Diagnostics.extend_mapLine]

theorem foldl_step_mapLine (r : Resolution) (is : List Instruction) :
    (is.map (Instruction.mapLine f)).foldl (step settings) (r.mapLine f) =
      (is.foldl (step settings) r).mapLine f := by
  induction is generalizing r with
  | nil => rfl
  | cons i is ih =>
    simp only [List.map_cons, List.foldl_cons, step_mapLine]
    exact ih _

end Resolution

/-- **A document with renamed lines** has the same model up to the lines of its diagnostics. -/
theorem ofInstructions_mapLine (settings : Settings) (is : List Instruction) :
    Model.ofInstructions settings (is.map (Instruction.mapLine f)) =
      (Model.ofInstructions settings is).mapLine f := by
  unfold Model.ofInstructions
  have h := Resolution.foldl_step_mapLine f settings (.start settings) is
  rw [show (Resolution.start settings).mapLine f = .start settings from rfl] at h
  rw [h]
  rfl

end Folio
