import Folio.Text.Integer

/-!
# Key paths

A setting is named by a path: a name, then further names behind points and indices in brackets,
as in `fonts.registered[0]`. A name consists of letters, digits, spaces, underscores and hyphens.
An index may be negative, and then counts from the end; blanks may stand around it.
-/

namespace Folio

/-- One step of a path. -/
inductive KeyStep where
  | name (s : String)
  | index (i : Int)
  deriving DecidableEq, Repr

/-- A path has at least one step, and the first is a name. -/
structure KeyPath where
  first : String
  rest : List KeyStep
  deriving DecidableEq, Repr

namespace KeyPath

/-- Why a text is no path. -/
inductive Defect where
  /-- No name at the front. -/
  | name
  /-- A bracket is missing. -/
  | bracket
  /-- No digits in brackets. -/
  | digits
  /-- An index too great for 64 bits. -/
  | range
  deriving DecidableEq, Repr

def Defect.message : Defect → String
  | name => "IsA"
  | bracket => "Char"
  | digits => "Digit"
  | range => "Map on Result"

def isNameChar (c : Char) : Bool := c.isAlphanum || c == ' ' || c == '_' || c == '-'

/-- Past the spaces and tabs in front. -/
def skipBlanks (cs : List Char) : List Char := cs.dropWhile fun c => c == ' ' || c == '\t'

/-- Any minus sign in front, and the rest. -/
def sign (cs : List Char) : Bool × List Char :=
  match cs with
  | '-' :: cs => (true, cs)
  | cs => (false, cs)

/-- An index and what stands behind its bracket. -/
def index (cs : List Char) : Except Defect (Int × List Char) :=
  let (negative, cs) := sign (skipBlanks cs)
  let digits := cs.takeWhile Char.isDigit
  let n : Int := Text.decimal digits
  let i := if negative then -n else n
  if digits.isEmpty then .error .digits
  else if !Text.isInt64 i then .error .range
  else
    match skipBlanks (cs.dropWhile Char.isDigit) with
    | ']' :: rest => .ok (i, rest)
    | _ => .error .bracket

/-- The step at the front and what stands behind it. -/
def step (cs : List Char) : Except Defect (KeyStep × List Char) :=
  match cs with
  | '.' :: cs =>
    let name := cs.takeWhile isNameChar
    if name.isEmpty then .error .bracket
    else .ok (.name (String.ofList name), cs.dropWhile isNameChar)
  | '[' :: cs => (index cs).map fun (i, rest) => (.index i, rest)
  | _ => .error .bracket

/-- The steps of a text; every step is at least one character long. -/
def steps : (fuel : Nat) → List Char → Except Defect (List KeyStep)
  | _, [] => .ok []
  | 0, _ :: _ => .error .bracket
  | fuel + 1, cs@(_ :: _) =>
    match step cs with
    | .error e => .error e
    | .ok (s, rest) => (steps fuel rest).map (s :: ·)

/-- The path that a text denotes. -/
def read (s : String) : Except Defect KeyPath :=
  let cs := s.toList
  let name := cs.takeWhile isNameChar
  if name.isEmpty then .error .name
  else (steps cs.length (cs.dropWhile isNameChar)).map fun rest => ⟨String.ofList name, rest⟩

example : read "a b.c[ -1 ]" = .ok ⟨"a b", [.name "c", .index (-1)]⟩ := by rfl
example : read "" = .error .name := by rfl
example : read "a[x]" = .error .digits := by rfl
example : read "a." = .error .bracket := by rfl

end KeyPath

end Folio
