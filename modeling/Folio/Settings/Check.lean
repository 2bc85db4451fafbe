import Folio.Settings

/-!
# Settings that make sense

Bounds must not be empty, levels start at 1, every default must lie inside its limits and name a
registered font or a known colour, and the two built-in styles need different names. The first
rule that is broken, in this order, is reported (`Settings.flaw?`).
-/

namespace Folio

/-- A rule that settings break. -/
inductive Flaw where
  | emptyBounds (key : String) (bounds : Bounds)
  | levelZero
  | outOfBounds (key : String) (v : UInt32) (bounds : Bounds)
  | unregisteredFont (key font : String)
  | unknownColor (key color : String)
  | sameStyleNames
  deriving DecidableEq, Repr

def Flaw.message : Flaw → String
  | emptyBounds key bounds =>
    key ++ ": min " ++ toString bounds.min.toNat ++ " is greater than max " ++
      toString bounds.max.toNat
  | levelZero => "limits.title_level: levels start at 1"
  | outOfBounds key v bounds => key ++ ": " ++ toString v.toNat ++ " is outside " ++ bounds.display
  | unregisteredFont key font => key ++ ": font '" ++ font ++ "' is not registered"
  | unknownColor key color => key ++ ": color '" ++ color ++ "' is not known"
  | sameStyleNames => "styles: the built-in section and title styles need distinct names"

namespace Settings

def boundsFlaws (s : Settings) : List Flaw :=
  [("limits.font_size", s.limits.fontSize), ("limits.title_level", s.limits.titleLevel),
    ("limits.page_start", s.limits.pageStart)].filterMap fun (key, b) =>
      if b.min ≤ b.max then none else some (.emptyBounds key b)

def levelFlaws (s : Settings) : List Flaw :=
  if s.limits.titleLevel.min = 0 then [.levelZero] else []

def rangeFlaws (s : Settings) : List Flaw :=
  [("styles.section.font_size", s.styles.body.fontSize, s.limits.fontSize),
    ("styles.title.font_size", s.styles.title.fontSize, s.limits.fontSize),
    ("page_number.font_size", s.pageNumber.fontSize, s.limits.fontSize),
    ("page_number.start", s.pageNumber.start, s.limits.pageStart),
    ("title.level", s.titleLevel, s.limits.titleLevel),
    ("numberize_title.start", s.numberingStart, s.limits.titleLevel)].filterMap
      fun (key, v, b) => if b.contains v.toNat then none else some (.outOfBounds key v b)

def fontFlaws (s : Settings) : List Flaw :=
  [("fonts.default", s.fonts.fallback), ("styles.section.font", s.styles.body.font),
    ("styles.title.font", s.styles.title.font),
    ("page_number.font", s.pageNumber.font)].filterMap fun (key, font) =>
      if s.isRegisteredFont font then none else some (.unregisteredFont key font)

def colorFlaws (s : Settings) : List Flaw :=
  [("colors.default", s.colors.fallback), ("styles.section.font_color", s.styles.body.fontColor),
    ("styles.title.font_color", s.styles.title.fontColor),
    ("page_number.font_color", s.pageNumber.fontColor)].filterMap fun (key, color) =>
      if s.isKnownColor color then none else some (.unknownColor key color)

def nameFlaws (s : Settings) : List Flaw :=
  if s.styles.body.name = s.styles.title.name then [.sameStyleNames] else []

/-- The rules that the settings break, in the order of checking. -/
def flaws (s : Settings) : List Flaw :=
  s.boundsFlaws ++ s.levelFlaws ++ s.rangeFlaws ++ s.fontFlaws ++ s.colorFlaws ++ s.nameFlaws

/-- The first rule that the settings break. -/
def flaw? (s : Settings) : Option Flaw := s.flaws.head?

end Settings

end Folio
