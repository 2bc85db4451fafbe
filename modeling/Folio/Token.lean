import Folio.Position
import Folio.Text.Quoted

/-!
# Tokens

A document is a sequence of instructions. Each begins with a keyword, and the keyword fixes its
shape:

- a **directive** (`$style`, `$pageNumber`, `$numberizeTitle`) takes arguments and no braces;
- a **block** (`$title`, `$section`) takes arguments and then content in braces;
- **emphasis** (`$bold`, `$italic`, `$underlined`) takes an empty argument list and one text.

A token is a kind with the source text it was read from, its line and its span in bytes.
-/

namespace Folio

/-! ## Keywords -/

inductive DirectiveKind where
  | style
  | pageNumber
  | numberizeTitle
  deriving DecidableEq, Repr

/-- The block written `$section` is `body`. -/
inductive BlockKind where
  | title
  | body
  deriving DecidableEq, Repr

inductive EmphasisKind where
  | bold
  | italic
  | underlined
  deriving DecidableEq, Repr

inductive Keyword where
  | directive (kind : DirectiveKind)
  | block (kind : BlockKind)
  | emphasis (kind : EmphasisKind)
  deriving DecidableEq, Repr

namespace EmphasisKind

def name : EmphasisKind → String
  | bold => "bold"
  | italic => "italic"
  | underlined => "underlined"

end EmphasisKind

namespace Keyword

def all : List Keyword :=
  [.directive .style, .directive .pageNumber, .directive .numberizeTitle, .block .title,
    .block .body, .emphasis .bold, .emphasis .italic, .emphasis .underlined]

theorem mem_all (k : Keyword) : k ∈ all := by
  rcases k with k | k | k <;> cases k <;> decide

/-- The name of a keyword, without the sigil. -/
def name : Keyword → String
  | directive .style => "style"
  | directive .pageNumber => "pageNumber"
  | directive .numberizeTitle => "numberizeTitle"
  | block .title => "title"
  | block .body => "section"
  | emphasis kind => kind.name

/-- The keyword as written in a source. -/
def text (k : Keyword) : String := "$" ++ k.name

/-- The keyword of a name. -/
def ofName? (s : String) : Option Keyword := all.find? fun k => k.name == s

theorem ofName?_name (k : Keyword) : ofName? k.name = some k := by
  rcases k with k | k | k <;> cases k <;> decide

/-- The keyword whose name a text begins with. No name of a keyword begins another, so there is
at most one. -/
def atFront? (cs : List Char) : Option Keyword := all.find? fun k => k.name.toList.isPrefixOf cs

theorem eq_of_name_isPrefixOf {j k : Keyword} (h : j.name.toList.isPrefixOf k.name.toList) :
    j = k := by
  rcases j with j | j | j <;> rcases k with k | k | k <;> cases j <;> cases k <;>
    first | rfl | exact absurd h (by decide)

example : atFront? "stylex(".toList = some (.directive .style) := by decide
example : atFront? "sectio".toList = none := by decide

end Keyword

/-! ## Tokens -/

/-- The kinds of token. An argument name is kept without its sigil and a string without its
quotes. -/
inductive Kind where
  | keyword (k : Keyword)
  | argumentName (name : String)
  | string (value : String)
  | number (value : Int)
  | openParen
  | closeParen
  | openBrace
  | closeBrace
  | comma
  | equals
  | text (value : String)
  deriving DecidableEq, Repr

/-- A kind as shown to a reader: in angle brackets, with the payload quoted. -/
def Kind.display : Kind → String
  | keyword k => "<keyword:" ++ k.text ++ ">"
  | argumentName name => "<arg-name:#" ++ name ++ ">"
  | string value => "<string:" ++ Text.quoted value ++ ">"
  | number value => "<number:" ++ toString value ++ ">"
  | openParen => "<lparen>"
  | closeParen => "<rparen>"
  | openBrace => "<lbrace>"
  | closeBrace => "<rbrace>"
  | comma => "<comma>"
  | equals => "<equals>"
  | text value => "<text:" ++ Text.quoted value ++ ">"

structure Token where
  kind : Kind
  /-- The source text, quotes and sigils included. -/
  text : String
  /-- The line of the first character. -/
  line : Nat
  /-- The offset of the first byte. -/
  first : Nat
  /-- The offset behind the last byte. -/
  past : Nat
  deriving DecidableEq, Repr

/-- A character that no token begins with. -/
structure IllegalCharacter where
  character : Char
  position : Position
  deriving DecidableEq, Repr

def IllegalCharacter.display (e : IllegalCharacter) : String :=
  "Illegal character " ++ Text.quotedChar e.character ++ " at line " ++ toString e.position.line ++
    ", column " ++ toString e.position.column

namespace Token

/-- A number of lines in a column of at least four characters. -/
def lineColumn (n : Nat) : String :=
  let digits := toString n
  String.ofList (List.replicate (4 - digits.length) ' ') ++ digits

/-- The listing of tokens: one line each, with the source line in front. -/
def listing (tokens : List Token) : String :=
  String.join (tokens.map fun t => lineColumn t.line ++ "  " ++ t.kind.display ++ "\n")

end Token

end Folio
