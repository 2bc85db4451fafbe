import Folio.Instruction
import Folio.Model
import Folio.Resolve.Correction
import Folio.Resolve.Signature
import Folio.TitleNumber

/-!
# Resolution

A document is resolved one instruction after the other against the settings.

**The state** (`Resolution`). The styles and the set of their names, the page numbers if they are
set, the start of title numbering if it is set, the items, and the diagnostics so far.

**A verdict** (`Verdict`). An instruction is rejected with errors, or accepted with one change to
the state and the warnings of its corrections. `Resolution.judge` gives the verdict and
`Resolution.apply` carries it out, so an instruction that is rejected leaves nothing but its
errors.

The checks run in this order, and the first that fails decides: the signature, then what is
particular to the keyword; corrections come last. Once all instructions are in, `finish` fills in
the page numbers and numbers the titles.
-/

namespace Folio

def StyleSettings.style (s : StyleSettings) : Style :=
  ⟨s.name, s.font, s.fontSize, s.fontColor, true⟩

/-! ## What a block holds -/

namespace Node

def text? : Node → Option String
  | text s => some s
  | instruction _ => none

/-- The error of a node that a title may not hold. -/
def titleError? : Node → Option Diagnostic
  | text _ => none
  | instruction i => some (Fault.diagnostic i.line (.nestedInTitle i.keyword))

/-- The error of a node that a section may not hold. -/
def sectionError? : Node → Option Diagnostic
  | text _ => none
  | instruction (.emphasis kind s line) =>
    if s.isEmpty then some (Fault.diagnostic line (.emptyEmphasis kind)) else none
  | instruction i => some (Fault.diagnostic i.line (.nestedInSection i.keyword))

/-- The run of text that a node stands for. -/
def run? : Node → Option Run
  | text s => some ⟨none, s⟩
  | instruction (.emphasis kind s _) => some ⟨some kind, s⟩
  | instruction _ => none

end Node

/-! ## Verdicts -/

inductive Change where
  | style (s : Style)
  | pageNumber (n : PageNumber)
  | numberingStart (level : UInt32)
  | item (i : Item)
  deriving DecidableEq, Repr

inductive Verdict where
  | rejected (errors : List Diagnostic)
  | accepted (change : Change) (warnings : List Diagnostic)
  deriving DecidableEq, Repr

/-- The verdict on an instruction that could make `change` if it had no errors. -/
def Verdict.ofErrors (errors : List Diagnostic) (accepted : Verdict) : Verdict :=
  if errors.isEmpty then accepted else rejected errors

/-- Accept a change read from the arguments of an instruction. -/
def Verdict.corrected (keyword : Keyword) (line : Nat) (change : Change)
    (corrections : List Correction) : Verdict :=
  accepted change (corrections.map (·.diagnostic keyword line))

/-! ## The state -/

structure Resolution where
  styles : List Style
  /-- The names that styles have, in no order. -/
  names : List String
  pageNumber : Option PageNumber
  numberingStart : Option UInt32
  content : List Item
  diagnostics : Diagnostics
  deriving DecidableEq, Repr

namespace Resolution

/-- In front of the first instruction there are the two built-in styles. -/
def start (settings : Settings) : Resolution :=
  let builtin := [settings.styles.body.style, settings.styles.title.style]
  ⟨builtin, builtin.map (·.name), none, none, [], .empty⟩

def hasStyle (r : Resolution) (name : String) : Bool := r.names.contains name

/-! ### The verdict on an instruction -/

/-- A style needs a name of its own. -/
def judgeStyle (settings : Settings) (r : Resolution) (args : Arguments) (line : Nat) :
    Verdict :=
  match args.text? "name" with
  | none => .rejected [Fault.diagnostic line .styleWithoutName]
  | some name =>
    if r.hasStyle name then .rejected [Fault.diagnostic line (.duplicateStyle name)]
    else
      let base := settings.styles.body
      let font := args.font settings "font" base.font
      let size := args.number "fontSize" settings.limits.fontSize base.fontSize
      let color := args.color settings "fontColor" base.fontColor
      .corrected (.directive .style) line
        (.style ⟨name, font.value, size.value, color.value, false⟩)
        (font.corrections ++ size.corrections ++ color.corrections)

/-- Page numbers are set once. -/
def judgePageNumber (settings : Settings) (r : Resolution) (args : Arguments) (line : Nat) :
    Verdict :=
  if r.pageNumber.isSome then .rejected [Fault.diagnostic line .secondPageNumber]
  else
    let base := settings.pageNumber
    let position := args.position "pageNumberPosition" base.position
    let font := args.font settings "pageNumberFont" base.font
    let size := args.number "pageNumberFontSize" settings.limits.fontSize base.fontSize
    let color := args.color settings "pageNumberFontColor" base.fontColor
    let start := args.number "pageNumberStart" settings.limits.pageStart base.start
    .corrected (.directive .pageNumber) line
      (.pageNumber ⟨position.value, font.value, size.value, color.value, start.value⟩)
      (position.corrections ++ font.corrections ++ size.corrections ++ color.corrections ++
        start.corrections)

/-- The last start of title numbering counts. -/
def judgeNumbering (settings : Settings) (args : Arguments) (line : Nat) : Verdict :=
  let start := args.number "numberizeTitleStart" settings.limits.titleLevel
    settings.numberingStart
  .corrected (.directive .numberizeTitle) line (.numberingStart start.value) start.corrections

/-- The error of a block whose style is not there. -/
def styleErrors (r : Resolution) (kind : BlockKind) (name : String) (line : Nat) :
    List Diagnostic :=
  if r.hasStyle name then [] else [Fault.diagnostic line (.unknownStyle (.block kind) name)]

/-- A title is one text, joined from the pieces it is written in. -/
def judgeTitle (settings : Settings) (r : Resolution) (args : Arguments) (content : List Node)
    (line : Nat) : Verdict :=
  let style := (args.text? "style").getD settings.styles.title.name
  .ofErrors (r.styleErrors .title style line ++ content.filterMap Node.titleError?)
    (let level := args.number "level" settings.limits.titleLevel settings.titleLevel
    .corrected (.block .title) line
      (.item (.title ⟨style, level.value, String.join (content.filterMap Node.text?)⟩))
      level.corrections)

/-- A section is a list of runs, plain and emphasised. -/
def judgeSection (settings : Settings) (r : Resolution) (args : Arguments) (content : List Node)
    (line : Nat) : Verdict :=
  let style := (args.text? "style").getD settings.styles.body.name
  .ofErrors (r.styleErrors .body style line ++ content.filterMap Node.sectionError?)
    (.accepted (.item (.body ⟨style, content.filterMap Node.run?⟩)) [])

/-- The errors of an argument list. -/
def signatureErrors (signature : Signature) (keyword : Keyword) (args : Arguments)
    (line : Nat) : List Diagnostic :=
  (signature.faults keyword args).map (Fault.diagnostic line)

def judge (settings : Settings) (r : Resolution) : Instruction → Verdict
  | .directive kind args line =>
    .ofErrors (signatureErrors (.ofDirective kind) (.directive kind) args line)
      (match kind with
      | .style => r.judgeStyle settings args line
      | .pageNumber => r.judgePageNumber settings args line
      | .numberizeTitle => judgeNumbering settings args line)
  | .block kind args content line =>
    .ofErrors (signatureErrors (.ofBlock kind) (.block kind) args line)
      (match kind with
      | .title => r.judgeTitle settings args content line
      | .body => r.judgeSection settings args content line)
  | .emphasis kind _ line => .rejected [Fault.diagnostic line (.misplacedEmphasis kind)]

/-! ### The state behind an instruction -/

def change (r : Resolution) : Change → Resolution
  | .style s => { r with styles := r.styles ++ [s], names := r.names.insert s.name }
  | .pageNumber n => { r with pageNumber := some n }
  | .numberingStart level => { r with numberingStart := some level }
  | .item i => { r with content := r.content ++ [i] }

def report (r : Resolution) (ds : List Diagnostic) : Resolution :=
  { r with diagnostics := r.diagnostics.extend ds }

def apply (r : Resolution) : Verdict → Resolution
  | .rejected errors => r.report errors
  | .accepted change warnings => (r.change change).report warnings

/-- The state behind one more instruction. -/
def step (settings : Settings) (r : Resolution) (i : Instruction) : Resolution :=
  r.apply (r.judge settings i)

/-! ### The model -/

/-- The model of the instructions so far. -/
def finish (settings : Settings) (r : Resolution) : Model where
  styles := r.styles
  pageNumber := r.pageNumber.getD settings.pageNumber
  numberingStart := r.numberingStart
  content :=
    match r.numberingStart with
    | none => r.content
    | some start => numberTitles start settings.limits.titleLevel r.content
  diagnostics := r.diagnostics

end Resolution

/-- The model of a document. -/
def Model.ofInstructions (settings : Settings) (document : List Instruction) : Model :=
  (document.foldl (Resolution.step settings) (.start settings)).finish settings

end Folio
