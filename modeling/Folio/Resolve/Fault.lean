import Folio.Diagnostic
import Folio.Token

/-!
# Faults

What makes an instruction invalid. An instruction with a fault is dropped, and each of its faults
is an error on the line where it stands.
-/

namespace Folio

inductive Fault where
  /-- A name outside the signature of the keyword, which accepts the given names. -/
  | unknownArgument (keyword : Keyword) (name : String) (accepted : List String)
  | numberForText (keyword : Keyword) (name : String) (number : Int)
  | styleWithoutName
  | duplicateStyle (name : String)
  | secondPageNumber
  | unknownStyle (keyword : Keyword) (name : String)
  | nestedInTitle (keyword : Keyword)
  | nestedInSection (keyword : Keyword)
  | emptyEmphasis (kind : EmphasisKind)
  | misplacedEmphasis (kind : EmphasisKind)
  deriving DecidableEq, Repr

namespace Fault

def code : Fault → Diagnostic.Code
  | unknownArgument _ _ _ => .unknownArgument
  | numberForText _ _ _ => .invalidArgumentType
  | styleWithoutName => .missingArgument
  | duplicateStyle _ => .duplicateStyle
  | secondPageNumber => .duplicatePageNumber
  | unknownStyle _ _ => .unknownStyle
  | nestedInTitle _ | nestedInSection _ => .invalidNesting
  | emptyEmphasis _ => .emptyEmphasis
  | misplacedEmphasis _ => .misplacedEmphasis

/-- The accepted names as a message lists them. -/
def acceptedNames (names : List String) : String :=
  if names.isEmpty then "none" else ", ".intercalate (names.map ("#" ++ ·))

def message : Fault → String
  | unknownArgument keyword name accepted =>
    keyword.text ++ " does not accept argument #" ++ name ++ " (accepted: " ++
      acceptedNames accepted ++ ")"
  | numberForText keyword name number =>
    keyword.text ++ " argument #" ++ name ++ " expects a string, found " ++ toString number
  | styleWithoutName => "$style requires a #name argument"
  | duplicateStyle name =>
    "style '" ++ name ++ "' is a duplicate: a style with this name already exists"
  | secondPageNumber => "$pageNumber can only be called once"
  | unknownStyle keyword name =>
    keyword.text ++ ": referenced style '" ++ name ++ "' does not exist"
  | nestedInTitle keyword =>
    keyword.text ++ " is not allowed inside a $title; a title holds plain text only"
  | nestedInSection keyword =>
    keyword.text ++
      " is not allowed inside a $section; only text, $bold, $italic and $underlined are"
  | emptyEmphasis kind => (Keyword.emphasis kind).text ++ " requires text between its braces"
  | misplacedEmphasis kind =>
    (Keyword.emphasis kind).text ++ " can only be declared inside a $section"

/-- The fault as an error on a line. -/
def diagnostic (line : Nat) (f : Fault) : Diagnostic := ⟨.error, f.code, line, f.message⟩

end Fault

end Folio
