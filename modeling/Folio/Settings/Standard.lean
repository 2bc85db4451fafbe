import Folio.Settings
import Folio.Settings.Value

/-!
# The standard settings

What holds unless a file or an override says otherwise: the fourteen fonts that every renderer
has, the named colours of the web, and plain black text on portrait pages numbered at the bottom.

`Settings.value` writes settings as a tree, with the names that files and overrides use.
-/

namespace Folio

namespace Settings

/-- The fonts that every renderer has. -/
def standardFonts : List String :=
  ["Courier", "Courier-Bold", "Courier-BoldOblique", "Courier-Oblique", "Helvetica",
   "Helvetica-Bold", "Helvetica-BoldOblique", "Helvetica-Oblique", "Symbol", "Times-Bold",
   "Times-BoldItalic", "Times-Italic", "Times-Roman", "ZapfDingbats"]

/-- The named colours. -/
def standardColors : List String :=
  ["aliceblue", "antiquewhite", "aqua", "aquamarine", "azure", "beige", "bisque", "black",
   "blanchedalmond", "blue", "blueviolet", "brown", "burlywood", "cadetblue", "chartreuse",
   "chocolate", "coral", "cornflowerblue", "cornsilk", "crimson", "cyan", "darkblue", "darkcyan",
   "darkgoldenrod", "darkgray", "darkgreen", "darkgrey", "darkkhaki", "darkmagenta",
   "darkolivegreen", "darkorange", "darkorchid", "darkred", "darksalmon", "darkseagreen",
   "darkslateblue", "darkslategray", "darkslategrey", "darkturquoise", "darkviolet", "deeppink",
   "deepskyblue", "dimgray", "dimgrey", "dodgerblue", "firebrick", "floralwhite", "forestgreen",
   "fuchsia", "gainsboro", "ghostwhite", "gold", "goldenrod", "gray", "green", "greenyellow",
   "grey", "honeydew", "hotpink", "indianred", "indigo", "ivory", "khaki", "lavender",
   "lavenderblush", "lawngreen", "lemonchiffon", "lightblue", "lightcoral", "lightcyan",
   "lightgoldenrodyellow", "lightgray", "lightgreen", "lightgrey", "lightpink", "lightsalmon",
   "lightseagreen", "lightskyblue", "lightslategray", "lightslategrey", "lightsteelblue",
   "lightyellow", "lime", "limegreen", "linen", "magenta", "maroon", "mediumaquamarine",
   "mediumblue", "mediumorchid", "mediumpurple", "mediumseagreen", "mediumslateblue",
   "mediumspringgreen", "mediumturquoise", "mediumvioletred", "midnightblue", "mintcream",
   "mistyrose", "moccasin", "navajowhite", "navy", "oldlace", "olive", "olivedrab", "orange",
   "orangered", "orchid", "palegoldenrod", "palegreen", "paleturquoise", "palevioletred",
   "papayawhip", "peachpuff", "peru", "pink", "plum", "powderblue", "purple", "red", "rosybrown",
   "royalblue", "saddlebrown", "salmon", "sandybrown", "seagreen", "seashell", "sienna", "silver",
   "skyblue", "slateblue", "slategray", "slategrey", "snow", "springgreen", "steelblue", "tan",
   "teal", "thistle", "tomato", "turquoise", "violet", "wheat", "white", "whitesmoke", "yellow",
   "yellowgreen"]

def standard : Settings where
  fonts := ⟨"Helvetica", standardFonts⟩
  colors := ⟨"black", standardColors⟩
  limits := ⟨⟨6, 72⟩, ⟨1, 6⟩, ⟨1, 9999⟩⟩
  styles :=
    ⟨⟨"defaultSectionStyle", "Helvetica", 12, "black"⟩,
      ⟨"defaultTitleStyle", "Helvetica-Bold", 18, "black"⟩⟩
  pageNumber := ⟨.bottomCenter, "Helvetica", 10, "black", 1⟩
  titleLevel := 1
  numberingStart := 1

end Settings

/-! ## Settings as a tree -/

namespace Value

def ofText (s : String) : Value := scalar none (.text s)

def ofWord (n : UInt32) : Value := scalar none (.integer n.toNat)

end Value

def Bounds.value (b : Bounds) : Value :=
  .table none [("min", .ofWord b.min), ("max", .ofWord b.max)]

def StyleSettings.value (s : StyleSettings) : Value :=
  .table none [("name", .ofText s.name), ("font", .ofText s.font),
    ("font_size", .ofWord s.fontSize), ("font_color", .ofText s.fontColor)]

def PageNumber.value (n : PageNumber) : Value :=
  .table none [("position", .ofText n.position.name), ("font", .ofText n.font),
    ("font_size", .ofWord n.fontSize), ("font_color", .ofText n.fontColor),
    ("start", .ofWord n.start)]

def Settings.value (s : Settings) : Value :=
  .table none [
    ("fonts", .table none [("default", .ofText s.fonts.fallback),
      ("registered", .list none (s.fonts.registered.map .ofText))]),
    ("colors", .table none [("default", .ofText s.colors.fallback),
      ("named", .list none (s.colors.named.map .ofText))]),
    ("limits", .table none [("font_size", s.limits.fontSize.value),
      ("title_level", s.limits.titleLevel.value), ("page_start", s.limits.pageStart.value)]),
    ("styles", .table none [("section", s.styles.body.value), ("title", s.styles.title.value)]),
    ("page_number", s.pageNumber.value),
    ("title", .table none [("level", .ofWord s.titleLevel)]),
    ("numberize_title", .table none [("start", .ofWord s.numberingStart)])]

end Folio
