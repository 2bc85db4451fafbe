/-!
# Page numbers

Where page numbers stand, how they look, and which pages carry one: pages in front of the start
page are not numbered, and the start page is number 1.
-/

namespace Folio

inductive VerticalAlignment where
  | top
  | bottom
  deriving DecidableEq, Repr

inductive HorizontalAlignment where
  | left
  | center
  | right
  deriving DecidableEq, Repr

def VerticalAlignment.name : VerticalAlignment → String
  | top => "top"
  | bottom => "bottom"

def HorizontalAlignment.name : HorizontalAlignment → String
  | left => "left"
  | center => "center"
  | right => "right"

/-- A corner or the middle of an edge. -/
inductive PagePosition where
  | bottomLeft
  | bottomRight
  | bottomCenter
  | topLeft
  | topRight
  | topCenter
  deriving DecidableEq, Repr

namespace PagePosition

/-- In the order in which messages list them. -/
def all : List PagePosition :=
  [bottomLeft, bottomRight, bottomCenter, topLeft, topRight, topCenter]

def placement : PagePosition → VerticalAlignment × HorizontalAlignment
  | bottomLeft => (.bottom, .left)
  | bottomRight => (.bottom, .right)
  | bottomCenter => (.bottom, .center)
  | topLeft => (.top, .left)
  | topRight => (.top, .right)
  | topCenter => (.top, .center)

def name (p : PagePosition) : String := p.placement.1.name ++ "-" ++ p.placement.2.name

def ofName? (s : String) : Option PagePosition := all.find? fun p => p.name == s

theorem ofName?_name (p : PagePosition) : ofName? p.name = some p := by cases p <;> decide

/-- The position of a name; an unknown one stands for the middle of the lower edge. -/
def ofName (s : String) : PagePosition := (ofName? s).getD bottomCenter

/-- What is said of a name that no position has. -/
def unknownMessage (s : String) : String := "unknown page number position '" ++ s ++ "'"

end PagePosition

/-- The page numbers of a document. -/
structure PageNumber where
  position : PagePosition
  font : String
  fontSize : UInt32
  fontColor : String
  /-- The first page that carries a number. -/
  start : UInt32
  deriving DecidableEq, Repr

/-- The number on a page, if any; pages are counted from 1 in words of 32 bits. -/
def PageNumber.label? (n : PageNumber) (page : UInt32) : Option UInt32 :=
  if page < n.start then none else some (page - n.start + 1)

end Folio
