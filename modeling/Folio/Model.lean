import Folio.Diagnostic
import Folio.PageNumber
import Folio.Token

/-!
# Models

What a document says once every default is filled in: its styles, its page numbers, and its
titles and sections in order, each naming the style it is set in. A renderer needs nothing else.
-/

namespace Folio

structure Style where
  name : String
  font : String
  fontSize : UInt32
  fontColor : String
  /-- One of the two styles that every document has from the start. -/
  builtin : Bool
  deriving DecidableEq, Repr

/-- A run of section text, plain or emphasised. -/
structure Run where
  /-- The emphasis, none for plain text. -/
  emphasis : Option EmphasisKind
  text : String
  deriving DecidableEq, Repr

def Run.kindName (r : Run) : String :=
  match r.emphasis with
  | none => "text"
  | some kind => kind.name

structure Title where
  style : String
  level : UInt32
  text : String
  deriving DecidableEq, Repr

structure Section where
  style : String
  content : List Run
  deriving DecidableEq, Repr

inductive Item where
  | title (t : Title)
  | body (s : Section)
  deriving DecidableEq, Repr

structure Model where
  /-- The two built-in styles, then the declared ones in order. -/
  styles : List Style
  pageNumber : PageNumber
  /-- The shallowest level whose titles are numbered, if any are. -/
  numberingStart : Option UInt32
  content : List Item
  diagnostics : Diagnostics
  deriving DecidableEq, Repr

namespace Model

def style? (m : Model) (name : String) : Option Style := m.styles.find? (·.name == name)

def titles (m : Model) : List Title :=
  m.content.filterMap fun | .title t => some t | .body _ => none

def sections (m : Model) : List Section :=
  m.content.filterMap fun | .title _ => none | .body s => some s

end Model

end Folio
