import Folio.Instruction

/-!
# Reading instructions

Tokens are read one at a time, and nothing is read twice.

**The state** (`Reader`). The instructions finished, the blocks still open with what they hold
so far (innermost first), and the phase: what may come next.

**A step** (`Reader.step?`). The phase and the kind of the next token decide. Where they do not
fit, no continuation of the tokens read so far begins with this one, and reading stops with the
token and the phase's context.

**The end.** A document is complete between instructions, with no block open and at least one
instruction read.

Since the next state depends on the last one and one token only, an error depends on nothing
behind the offending token (`read_append_of_error`).

The productions of the grammar, tried by parsers that go back where one fails, come to the same
instructions and errors (`parse_eq_read`).
-/

namespace Folio

/-! ## Syntax errors -/

/-- What was being read where an error occurred. -/
inductive Context where
  | instruction
  | argumentList
  | argument
  | emptyArgumentList
  | content
  deriving DecidableEq, Repr

def Context.name : Context → String
  | instruction => "instruction"
  | argumentList => "argument list"
  | argument => "argument"
  | emptyArgumentList => "empty argument list"
  | content => "content"

structure SyntaxError where
  /-- The offending token, or none at the end of the input. -/
  found : Option Token
  line : Nat
  context : Context
  deriving DecidableEq, Repr

def SyntaxError.message (e : SyntaxError) : String :=
  let place := match e.found with
    | some t => Text.quoted t.text
    | none => "end of input"
  "Syntax error at " ++ place ++ " (line " ++ toString e.line ++ ") while parsing " ++
    e.context.name

/-! ## Phases -/

/-- A keyword that takes arguments, with its line. -/
inductive Head where
  | directive (kind : DirectiveKind) (line : Nat)
  | block (kind : BlockKind) (line : Nat)
  deriving DecidableEq, Repr

/-- What may come next. -/
inductive Phase where
  /-- A keyword; inside braces also text or the closing brace. -/
  | between
  /-- The parenthesis that opens an argument list. -/
  | openList (head : Head)
  /-- The first argument name or the closing parenthesis. -/
  | firstName (head : Head)
  /-- The argument name behind a comma. -/
  | nextName (head : Head) (args : Arguments)
  | equals (head : Head) (args : Arguments) (name : String)
  | value (head : Head) (args : Arguments) (name : String)
  /-- A comma or the closing parenthesis. -/
  | separator (head : Head) (args : Arguments)
  /-- The brace that opens the content of a block. -/
  | openContent (kind : BlockKind) (line : Nat) (args : Arguments)
  | emphasisList (kind : EmphasisKind) (line : Nat)
  | emphasisListEnd (kind : EmphasisKind) (line : Nat)
  | emphasisOpen (kind : EmphasisKind) (line : Nat)
  /-- The text of an emphasis or its closing brace. -/
  | emphasisText (kind : EmphasisKind) (line : Nat)
  | emphasisClose (kind : EmphasisKind) (line : Nat) (text : String)
  deriving DecidableEq

def Phase.context : Phase → Context
  | between => .instruction
  | openList _ | separator _ _ => .argumentList
  | firstName _ | nextName _ _ | equals _ _ _ | value _ _ _ => .argument
  | openContent _ _ _ => .content
  | emphasisList _ _ | emphasisListEnd _ _ => .emptyArgumentList
  | emphasisOpen _ _ | emphasisText _ _ | emphasisClose _ _ _ => .instruction

/-! ## The reader -/

/-- An open block; its content is kept latest first. -/
structure Frame where
  kind : BlockKind
  line : Nat
  arguments : Arguments
  content : List Node

def Frame.close (f : Frame) : Instruction :=
  .block f.kind f.arguments f.content.reverse f.line

def Frame.add (f : Frame) (n : Node) : Frame := { f with content := n :: f.content }

structure Reader where
  /-- Latest first. -/
  finished : List Instruction
  /-- Innermost first. -/
  frames : List Frame
  phase : Phase

namespace Reader

def start : Reader := ⟨[], [], .between⟩

/-- An instruction is complete: it joins the innermost open block or the document. -/
def finish (r : Reader) (i : Instruction) : Reader :=
  match r.frames with
  | [] => ⟨i :: r.finished, [], .between⟩
  | f :: fs => ⟨r.finished, f.add (.instruction i) :: fs, .between⟩

def goto (r : Reader) (phase : Phase) : Reader := { r with phase }

/-- The argument list of `head` is complete. -/
def closeList (r : Reader) (args : Arguments) : Head → Reader
  | .directive kind line => r.finish (.directive kind args line)
  | .block kind line => r.goto (.openContent kind line args)

/-- Between instructions. -/
def between? (r : Reader) (t : Token) : Option Reader :=
  match t.kind with
  | .keyword (.directive kind) => some (r.goto (.openList (.directive kind t.line)))
  | .keyword (.block kind) => some (r.goto (.openList (.block kind t.line)))
  | .keyword (.emphasis kind) => some (r.goto (.emphasisList kind t.line))
  | .text s =>
    match r.frames with
    | [] => none
    | f :: fs => some ⟨r.finished, f.add (.text s) :: fs, .between⟩
  | .closeBrace =>
    match r.frames with
    | [] => none
    | f :: fs => some (finish ⟨r.finished, fs, .between⟩ f.close)
  | _ => none

/-- The state behind one more token, if a document can go on with it. -/
def step? (r : Reader) (t : Token) : Option Reader :=
  match r.phase, t.kind with
  | .between, _ => r.between? t
  | .openList head, .openParen => some (r.goto (.firstName head))
  | .firstName head, .argumentName name => some (r.goto (.equals head .empty name))
  | .firstName head, .closeParen => some (r.closeList .empty head)
  | .nextName head args, .argumentName name => some (r.goto (.equals head args name))
  | .equals head args name, .equals => some (r.goto (.value head args name))
  | .value head args name, .string s =>
    some (r.goto (.separator head (args.insert name (.text s))))
  | .value head args name, .number n =>
    some (r.goto (.separator head (args.insert name (.number n))))
  | .separator head args, .comma => some (r.goto (.nextName head args))
  | .separator head args, .closeParen => some (r.closeList args head)
  | .openContent kind line args, .openBrace =>
    some ⟨r.finished, ⟨kind, line, args, []⟩ :: r.frames, .between⟩
  | .emphasisList kind line, .openParen => some (r.goto (.emphasisListEnd kind line))
  | .emphasisListEnd kind line, .closeParen => some (r.goto (.emphasisOpen kind line))
  | .emphasisOpen kind line, .openBrace => some (r.goto (.emphasisText kind line))
  | .emphasisText kind line, .text s => some (r.goto (.emphasisClose kind line s))
  | .emphasisText kind line, .closeBrace => some (r.finish (.emphasis kind "" line))
  | .emphasisClose kind line s, .closeBrace => some (r.finish (.emphasis kind s line))
  | _, _ => none

/-- The document read, if it is complete here. -/
def document? (r : Reader) : Option (List Instruction) :=
  match r.phase, r.frames, r.finished with
  | .between, [], i :: is => some (i :: is).reverse
  | _, _, _ => none

/-- Read on from here, where `line` is the line of the last token read. -/
def readFrom (r : Reader) (line : Nat) : List Token → Except SyntaxError (List Instruction)
  | [] =>
    match r.document? with
    | some instructions => .ok instructions
    | none => .error ⟨none, line, r.phase.context⟩
  | t :: ts =>
    match r.step? t with
    | some r => r.readFrom t.line ts
    | none => .error ⟨some t, t.line, r.phase.context⟩

end Reader

namespace Instruction

/-- The instructions of a document, or the first token that no document can go on with. -/
def read (tokens : List Token) : Except SyntaxError (List Instruction) :=
  Reader.start.readFrom 1 tokens

end Instruction

/-! ## Errors do not depend on what follows -/

theorem Reader.readFrom_append_of_error {r : Reader} {line : Nat} {ts us : List Token}
    {e : SyntaxError} (h : r.readFrom line ts = .error e) (he : e.found.isSome) :
    r.readFrom line (ts ++ us) = .error e := by
  induction ts generalizing r line with
  | nil =>
    simp only [readFrom] at h
    split at h
    · cases h
    · cases h
      simp at he
  | cons t ts ih =>
    simp only [readFrom, List.cons_append] at h ⊢
    split at h
    · next r' hr => exact ih h
    · next hr => exact h

/-- An error at a token stays the same whatever follows it. -/
theorem read_append_of_error {ts us : List Token} {e : SyntaxError}
    (h : Instruction.read ts = .error e) (he : e.found.isSome) :
    Instruction.read (ts ++ us) = .error e :=
  Reader.readFrom_append_of_error h he

end Folio
