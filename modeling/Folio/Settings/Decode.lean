import Folio.Settings
import Folio.Settings.KeyPath
import Folio.Settings.Value
import Folio.Text.Lower
import Folio.Text.Quoted

/-!
# Settings from a tree

A tree of values is given the type of settings. A structure is read from a table by names or from
a list by positions; names that mean nothing are passed over. Scalars are converted where that
makes sense: a number may be written as a text, a truth value is 0 or 1, a real number is
rounded; a text may be written as a number or a truth value. A number has to fit 32 bits.

**What goes wrong** (`Misfit`). A scalar that cannot be converted is reported with the path to it
and the file it came from, a number that does not fit with the path only, a misfit of shape with
neither. Of several misfits the first counts, in the order of the fields; absent fields come
behind the others.
-/

namespace Folio

/-- Why a tree is no settings. -/
inductive Misfit where
  | scalar (found wanted : String) (path : List KeyStep) (origin : Option String)
  | shape (found wanted : String)
  /-- A list that ends in front of the element of this index. -/
  | tooShort (index : Nat) (wanted : String)
  | missing (field : String)
  | noSuchPosition (name : String)
  | noPosition
  deriving DecidableEq, Repr

/-- A path as shown: names are joined by points, and an index by nothing on either side. -/
def showPath : List KeyStep → String
  | [] => ""
  | .index i :: rest => "[" ++ toString i ++ "]" ++ showPath rest
  | .name s :: rest@(.name _ :: _) => s ++ "." ++ showPath rest
  | .name s :: rest => s ++ showPath rest

namespace Misfit

def originText : Option String → String
  | none => ""
  | some file => " in " ++ file

def message : Misfit → String
  | scalar found wanted path origin =>
    "invalid type: " ++ found ++ ", expected " ++ wanted ++ " for key \x60" ++ showPath path ++
      "\x60" ++ originText origin
  | shape found wanted => "invalid type: " ++ found ++ ", expected " ++ wanted
  | tooShort index wanted => "invalid length " ++ toString index ++ ", expected " ++ wanted
  | missing field => "missing field \x60" ++ field ++ "\x60"
  | noSuchPosition name =>
    "enum PageNumberPosition does not have variant constructor " ++ name
  | noPosition =>
    "value of enum PageNumberPosition should be represented by either string or table with " ++
      "exactly one key"

/-- The misfit as seen from one step further up. -/
def below (s : KeyStep) : Misfit → Misfit
  | scalar found wanted path origin => scalar found wanted (s :: path) origin
  | m => m

end Misfit

namespace Value

/-- A word between grave accents. -/
def named (kind text : String) : String := kind ++ " \x60" ++ text ++ "\x60"

/-- What a value is, where another shape was wanted. -/
def shapeName : Value → String
  | scalar _ .nil => "unit value"
  | scalar _ (.bool b) => named "boolean" (toString b)
  | scalar _ (.integer n) => named "integer" (toString n)
  | scalar _ (.real d) =>
    let s := d.display
    named "floating point" (if d.isFinite && !s.toList.contains '.' then s ++ ".0" else s)
  | scalar _ (.text s) => "string " ++ Text.quoted s
  | list _ _ => "sequence"
  | table _ _ => "map"

/-- What a value is, where another scalar was wanted. -/
def scalarName : Value → String
  | scalar _ (.integer n) => named "64-bit integer" (toString n)
  | scalar _ (.real d) => named "floating point" d.display
  | v => v.shapeName

def scalarMisfit (v : Value) (wanted : String) : Misfit :=
  .scalar v.scalarName wanted [] v.origin

/-! ## Scalars -/

/-- The whole number that a text stands for, a truth value included. -/
def wordOfText? (s : String) : Option Nat :=
  if Text.lower s ∈ ["true", "on", "yes"] then some 1
  else if Text.lower s ∈ ["false", "off", "no"] then some 0
  else
    let digits := match s.toList with
      | '+' :: cs => cs
      | cs => cs
    (Text.natural? digits).filter (· < 1 <<< 64)

/-- The whole number that a value stands for. -/
def natural (v : Value) : Except Misfit Nat :=
  match v with
  | scalar _ (.integer n) =>
    if n < 0 then .error (v.scalarMisfit "an unsigned 64 bit or less integer")
    else .ok n.toNat
  | scalar _ (.bool b) => .ok (if b then 1 else 0)
  | scalar _ (.real d) => .ok d.toWord64.toNat
  | scalar _ (.text s) =>
    match wordOfText? s with
    | some n => .ok n
    | none => .error (v.scalarMisfit "an integer")
  | _ => .error (v.scalarMisfit "an integer")

/-- A number of 32 bits. -/
def word (v : Value) : Except Misfit UInt32 := do
  let n ← v.natural
  if n < UInt32.size then return UInt32.ofNat n
  else
    throw (.scalar (named "64-bit unsigned integer" (toString n)) "an unsigned 32 bit integer" []
      none)

def text (v : Value) : Except Misfit String :=
  match v with
  | scalar _ (.text s) => .ok s
  | scalar _ (.bool b) => .ok (toString b)
  | scalar _ (.integer n) => .ok (toString n)
  | scalar _ (.real d) => .ok d.display
  | _ => .error (v.scalarMisfit "a string")

/-- The position of a name in any case. -/
def namedPosition (name : String) : Except Misfit PagePosition :=
  match PagePosition.ofName? (Text.lower name) with
  | some p => .ok p
  | none => .error (.noSuchPosition name)

/-- A position, given by its name or by a table with its name only. -/
def pagePosition : Value → Except Misfit PagePosition
  | scalar _ (.text s) => namedPosition s
  | table _ [(name, _)] => namedPosition name
  | _ => .error .noPosition

/-! ## Lists and structures -/

/-- Elements from an index on, each of them decoded. -/
def elements {α : Type} (decode : Value → Except Misfit α) :
    Nat → List Value → Except Misfit (List α)
  | _, [] => .ok []
  | i, v :: vs => do
    let x ← (decode v).mapError (Misfit.below (.index i))
    let xs ← elements decode (i + 1) vs
    return x :: xs

def listOf {α : Type} (decode : Value → Except Misfit α) (v : Value) :
    Except Misfit (List α) :=
  match v with
  | list _ vs => elements decode 0 vs
  | _ => .error (.shape v.shapeName "a sequence")

/-- The name of a structure and the names of its fields, in order. -/
structure Layout where
  name : String
  fields : List String

def Layout.wanted (l : Layout) : String := "struct " ++ l.name

def Layout.wantedLength (l : Layout) : String :=
  l.wanted ++ " with " ++ toString l.fields.length ++
    (if l.fields.length = 1 then " element" else " elements")

/-- The value can be read as a structure. -/
def checkShape (l : Layout) (v : Value) : Except Misfit Unit :=
  match v with
  | table _ _ | list _ _ => .ok ()
  | scalar _ _ => .error (.shape v.shapeName l.wanted)

/-- A field of a structure, if it is there; a list must reach as far as the field. -/
def field? {α : Type} (v : Value) (l : Layout) (name : String)
    (decode : Value → Except Misfit α) : Except Misfit (Option α) :=
  match v with
  | list _ items =>
    let i := l.fields.idxOf name
    match items[i]? with
    | none => .error (.tooShort i l.wantedLength)
    | some item => ((decode item).map some).mapError (Misfit.below (.index i))
  | _ =>
    match v.fields.lookup name with
    | none => .ok none
    | some item => ((decode item).map some).mapError (Misfit.below (.name name))

/-- A field that a structure needs. -/
def need {α : Type} (name : String) : Option α → Except Misfit α
  | some x => .ok x
  | none => .error (.missing name)

end Value

/-! ## Settings -/

open Value

def FontSettings.decode (v : Value) : Except Misfit FontSettings := do
  let l : Layout := ⟨"FontsConfig", ["default", "registered"]⟩
  v.checkShape l
  let fallback ← v.field? l "default" text
  let registered ← v.field? l "registered" (listOf text)
  return ⟨← need "default" fallback, ← need "registered" registered⟩

def ColorSettings.decode (v : Value) : Except Misfit ColorSettings := do
  let l : Layout := ⟨"ColorsConfig", ["default", "named"]⟩
  v.checkShape l
  let fallback ← v.field? l "default" text
  let named ← v.field? l "named" (listOf text)
  return ⟨← need "default" fallback, ← need "named" named⟩

def Bounds.decode (v : Value) : Except Misfit Bounds := do
  let l : Layout := ⟨"Bounds", ["min", "max"]⟩
  v.checkShape l
  let min ← v.field? l "min" word
  let max ← v.field? l "max" word
  return ⟨← need "min" min, ← need "max" max⟩

def Limits.decode (v : Value) : Except Misfit Limits := do
  let l : Layout := ⟨"LimitsConfig", ["font_size", "title_level", "page_start"]⟩
  v.checkShape l
  let fontSize ← v.field? l "font_size" Bounds.decode
  let titleLevel ← v.field? l "title_level" Bounds.decode
  let pageStart ← v.field? l "page_start" Bounds.decode
  return ⟨← need "font_size" fontSize, ← need "title_level" titleLevel,
    ← need "page_start" pageStart⟩

def StyleSettings.decode (v : Value) : Except Misfit StyleSettings := do
  let l : Layout := ⟨"StyleDefaults", ["name", "font", "font_size", "font_color"]⟩
  v.checkShape l
  let name ← v.field? l "name" text
  let font ← v.field? l "font" text
  let fontSize ← v.field? l "font_size" word
  let fontColor ← v.field? l "font_color" text
  return ⟨← need "name" name, ← need "font" font, ← need "font_size" fontSize,
    ← need "font_color" fontColor⟩

def BuiltinStyles.decode (v : Value) : Except Misfit BuiltinStyles := do
  let l : Layout := ⟨"BuiltinStylesConfig", ["section", "title"]⟩
  v.checkShape l
  let body ← v.field? l "section" StyleSettings.decode
  let title ← v.field? l "title" StyleSettings.decode
  return ⟨← need "section" body, ← need "title" title⟩

def PageNumber.decode (v : Value) : Except Misfit PageNumber := do
  let l : Layout :=
    ⟨"PageNumberDefaults", ["position", "font", "font_size", "font_color", "start"]⟩
  v.checkShape l
  let position ← v.field? l "position" pagePosition
  let font ← v.field? l "font" text
  let fontSize ← v.field? l "font_size" word
  let fontColor ← v.field? l "font_color" text
  let start ← v.field? l "start" word
  return ⟨← need "position" position, ← need "font" font, ← need "font_size" fontSize,
    ← need "font_color" fontColor, ← need "start" start⟩

/-- The one field of a structure that holds a number. -/
def decodeOne (name field : String) (v : Value) : Except Misfit UInt32 := do
  let l : Layout := ⟨name, [field]⟩
  v.checkShape l
  need field (← v.field? l field word)

def Settings.decode (v : Value) : Except Misfit Settings := do
  let l : Layout := ⟨"PdfyConfig", ["fonts", "colors", "limits", "styles", "page_number",
    "title", "numberize_title"]⟩
  v.checkShape l
  let fonts ← v.field? l "fonts" FontSettings.decode
  let colors ← v.field? l "colors" ColorSettings.decode
  let limits ← v.field? l "limits" Limits.decode
  let styles ← v.field? l "styles" BuiltinStyles.decode
  let pageNumber ← v.field? l "page_number" PageNumber.decode
  let title ← v.field? l "title" (decodeOne "TitleDefaults" "level")
  let numbering ← v.field? l "numberize_title" (decodeOne "NumberizeTitleDefaults" "start")
  return ⟨← need "fonts" fonts, ← need "colors" colors, ← need "limits" limits,
    ← need "styles" styles, ← need "page_number" pageNumber, ← need "title" title,
    ← need "numberize_title" numbering⟩

end Folio
