import Folio.Instruction.Combinators

/-!
# The productions of a document

- A **document** is one or more instructions.
- An **instruction** is a keyword with an argument list, and with braces if the keyword asks for
  them.
- An **argument list** is arguments with commas between, in parentheses; an **argument** is a name,
  an equals sign, and a string or a number.
- **Content** is any number of texts and instructions.

Each keyword has its own production: a directive takes no braces, a block always does, and emphasis
takes an empty argument list and at most one text.
-/

namespace Folio

open Folio.Parser

namespace Production

def keyword (k : Keyword) : Parser Token := kind (.keyword k)

def text : Parser String :=
  filterMap fun t =>
    match t.kind with
    | .text s => some s
    | _ => none

def argumentName : Parser String :=
  filterMap fun t =>
    match t.kind with
    | .argumentName name => some name
    | _ => none

def literal : Parser Literal :=
  filterMap fun t =>
    match t.kind with
    | .string s => some (.text s)
    | .number n => some (.number n)
    | _ => none

def argument : Parser (String × Literal) :=
  ((argumentName.thenIgnore (kind .equals)).andThen literal).labelled .argument

/-- The last value of each name. -/
def argumentList : Parser Arguments :=
  (((argument.separatedBy (kind .comma)).delimitedBy (kind .openParen) (kind .closeParen)).map
    .ofList).labelled .argumentList

def emptyArgumentList : Parser Unit :=
  (((kind .openParen).andThen (kind .closeParen)).map fun _ => ()).labelled .emptyArgumentList

def directive (k : DirectiveKind) : Parser Instruction :=
  ((keyword (.directive k)).andThen argumentList).map fun (t, args) => .directive k args t.line

def block (k : BlockKind) (content : Parser (List Node)) : Parser Instruction :=
  (((keyword (.block k)).andThen argumentList).andThen content).map fun ((t, args), nodes) =>
    .block k args nodes t.line

/-- The text is empty when the braces are. -/
def emphasis (k : EmphasisKind) : Parser Instruction :=
  (((keyword (.emphasis k)).thenIgnore emptyArgumentList).andThen
    (text.orNot.delimitedBy (kind .openBrace) (kind .closeBrace))).map fun (t, s) =>
      .emphasis k (s.getD "") t.line

def node (instruction : Parser Instruction) : Parser Node :=
  (text.map .text).or (instruction.map .instruction)

def content (instruction : Parser Instruction) : Parser (List Node) :=
  (((node instruction).repeated 0).delimitedBy (kind .openBrace) (kind .closeBrace)).labelled
    .content

/-- The production of a keyword, where the instructions in its content are given. -/
def ofKeyword (instruction : Parser Instruction) : Keyword → Parser Instruction
  | .directive k => directive k
  | .block k => block k (content instruction)
  | .emphasis k => emphasis k

def instruction : Parser Instruction :=
  recursive fun instruction =>
    (choice (Keyword.all.map (ofKeyword instruction))).labelled .instruction

def document : Parser (List Instruction) := (instruction.repeated 1).thenIgnore endOfInput

end Production

/-- A syntax error, with what was being read there, if that is known. -/
structure ParseError where
  found : Option Token
  line : Nat
  context : Option Context
  deriving DecidableEq, Repr

/-- The instructions of a document, or the furthest error. At the end of the input it has the line
of the last token. -/
def Instruction.parse (tokens : List Token) : Except ParseError (List Instruction) :=
  let last := (tokens.getLast?.map Token.line).getD 1
  match Production.document ⟨0, tokens⟩ with
  | .ok reply => .ok reply.value
  | .error e => .error ⟨e.found, (e.found.map Token.line).getD last, e.label.context?⟩

end Folio
