import Folio.Data
import Folio.Instruction
import Folio.Model

/-!
# Tokens, instructions and models as data

Each of them has one fixed shape: an object with its fields in a fixed order, and a first field
that tells the kind where there are several.
-/

namespace Folio

/-! ## Tokens -/

def Kind.name : Kind → String
  | keyword _ => "keyword"
  | argumentName _ => "arg-name"
  | string _ => "str"
  | number _ => "number"
  | openParen => "l-paren"
  | closeParen => "r-paren"
  | openBrace => "l-brace"
  | closeBrace => "r-brace"
  | comma => "comma"
  | equals => "equals"
  | text _ => "text"

/-- What a token kind carries. -/
def Kind.payload : Kind → Option Data
  | keyword k => some (.text k.name)
  | argumentName s | string s | text s => some (.text s)
  | number n => some (.number n)
  | openParen | closeParen | openBrace | closeBrace | comma | equals => none

def Kind.data (k : Kind) : Data :=
  .object (("kind", .text k.name) :: (k.payload.map fun v => ("value", v)).toList)

def Token.data (t : Token) : Data :=
  .object [("kind", t.kind.data), ("text", .text t.text), ("line", .ofNat t.line),
    ("span", .object [("start", .ofNat t.first), ("end", .ofNat t.past)])]

/-! ## Instructions -/

def Literal.data : Literal → Data
  | text s => .text s
  | number n => .number n

def Arguments.data (args : Arguments) : Data :=
  .object (args.entries.map fun (name, v) => (name, v.data))

mutual

def Instruction.data : Instruction → Data
  | .directive kind args line =>
    .object [("instruction", .text (Keyword.directive kind).name), ("arguments", args.data),
      ("line", .ofNat line)]
  | .block kind args content line =>
    .object [("instruction", .text (Keyword.block kind).name), ("arguments", args.data),
      ("content", .list (nodesData content)), ("line", .ofNat line)]
  | .emphasis kind s line =>
    .object [("instruction", .text "emphasis"), ("kind", .text kind.name), ("text", .text s),
      ("line", .ofNat line)]

def Node.data : Node → Data
  | .text s => .object [("node", .text "text"), ("value", .text s)]
  | .instruction i => .object [("node", .text "instruction"), ("value", i.data)]

def nodesData : List Node → List Data
  | [] => []
  | n :: ns => n.data :: nodesData ns

end

/-! ## Models -/

def Diagnostic.data (d : Diagnostic) : Data :=
  .object [("severity", .text d.severity.name), ("code", .text d.code.name),
    ("line", .ofNat d.line), ("message", .text d.message)]

def Diagnostics.data (ds : Diagnostics) : Data :=
  .object [("errors", .list (ds.errors.map (·.data))),
    ("warnings", .list (ds.warnings.map (·.data)))]

def Style.data (s : Style) : Data :=
  .object [("name", .text s.name), ("font", .text s.font), ("font_size", .ofWord s.fontSize),
    ("font_color", .text s.fontColor), ("builtin", .bool s.builtin)]

def PageNumber.data (n : PageNumber) : Data :=
  .object [("position", .text n.position.name), ("font", .text n.font),
    ("font_size", .ofWord n.fontSize), ("font_color", .text n.fontColor),
    ("start", .ofWord n.start)]

def Run.data (r : Run) : Data :=
  .object [("kind", .text r.kindName), ("text", .text r.text)]

/-- The fields of a title, the kind aside. -/
def Title.fields (t : Title) : List (String × Data) :=
  [("style", .text t.style), ("level", .ofWord t.level), ("text", .text t.text)]

/-- The fields of a section, the kind aside. -/
def Section.fields (s : Section) : List (String × Data) :=
  [("style", .text s.style), ("content", .list (s.content.map (·.data)))]

def Item.data : Item → Data
  | title t => .object (("item", .text "title") :: t.fields)
  | body s => .object (("item", .text "section") :: s.fields)

/-- Title numbering as data, null where titles are not numbered. -/
def numberingData : Option UInt32 → Data
  | none => .null
  | some level => .object [("start", .ofWord level)]

def Model.data (m : Model) : Data :=
  .object [("styles", .list (m.styles.map (·.data))), ("page_number", m.pageNumber.data),
    ("numberize_title", numberingData m.numberingStart),
    ("content", .list (m.content.map (·.data))), ("diagnostics", m.diagnostics.data)]

end Folio
