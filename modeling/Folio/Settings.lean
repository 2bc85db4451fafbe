import Folio.Bounds
import Folio.PageNumber

/-!
# Settings

What a document may use and what it falls back to: the registered fonts, the named colours, the
limits of numbers, the two built-in styles, and a default for every argument that may be left
out. Besides its named colours every setting knows the colours `#rrggbb`.
-/

namespace Folio

structure FontSettings where
  fallback : String
  registered : List String
  deriving DecidableEq, Repr

structure ColorSettings where
  fallback : String
  named : List String
  deriving DecidableEq, Repr

structure Limits where
  fontSize : Bounds
  titleLevel : Bounds
  pageStart : Bounds
  deriving DecidableEq, Repr

/-- A built-in style. -/
structure StyleSettings where
  name : String
  font : String
  fontSize : UInt32
  fontColor : String
  deriving DecidableEq, Repr

structure BuiltinStyles where
  body : StyleSettings
  title : StyleSettings
  deriving DecidableEq, Repr

structure Settings where
  fonts : FontSettings
  colors : ColorSettings
  limits : Limits
  styles : BuiltinStyles
  /-- The page numbers of a document that does not set them. -/
  pageNumber : PageNumber
  /-- The level of a title that does not give it. -/
  titleLevel : UInt32
  /-- The level at which numbering starts if the document does not give it. -/
  numberingStart : UInt32
  deriving DecidableEq, Repr

/-- A hexadecimal digit of either case. -/
def isHexDigit (c : Char) : Bool :=
  c.isDigit || ('a' ≤ c && c ≤ 'f') || ('A' ≤ c && c ≤ 'F')

/-- A colour written `#rrggbb`. -/
def isHexColor (s : String) : Bool :=
  match s.toList with
  | '#' :: digits => digits.length == 6 && digits.all isHexDigit
  | _ => false

/-- The text with ASCII letters in lower case; other letters stay. -/
def lowerAscii (s : String) : String := String.ofList (s.toList.map Char.toLower)

namespace Settings

def isRegisteredFont (settings : Settings) (font : String) : Bool :=
  settings.fonts.registered.contains font

/-- A `#rrggbb` colour or a named one; the case of ASCII letters in a name does not matter. -/
def isKnownColor (settings : Settings) (color : String) : Bool :=
  isHexColor color || settings.colors.named.any fun known => lowerAscii known == lowerAscii color

end Settings

example : isHexColor "#1a2B3c" ∧ ¬ isHexColor "#12345" ∧ ¬ isHexColor "#12345g" := by decide

end Folio
