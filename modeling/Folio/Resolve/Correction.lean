import Folio.Diagnostic
import Folio.Instruction.Arguments
import Folio.Settings
import Folio.Text.Integer
import Folio.Token

/-!
# Corrections

An argument whose value makes no sense where it stands is replaced by a default, with a warning.

**A reading** (`Corrected`). The value of an argument, and what had to be corrected to get it. An
argument that is missing takes the default without a correction, and so does a number where a
text is read, which the signature has ruled out before.
-/

namespace Folio

/-- An argument replaced by its default. -/
inductive Correction where
  | unregisteredFont (name font fallback : String)
  | unknownColor (name color fallback : String)
  | notNumber (name written : String) (fallback : UInt32)
  | outOfRange (name : String) (v : Int) (bounds : Bounds) (fallback : UInt32)
  | unknownPosition (name written : String) (fallback : PagePosition)
  deriving DecidableEq, Repr

namespace Correction

def code : Correction → Diagnostic.Code
  | unregisteredFont _ _ _ => .unregisteredFont
  | unknownColor _ _ _ => .unknownColor
  | notNumber _ _ _ => .invalidNumber
  | outOfRange _ _ _ _ => .outOfRange
  | unknownPosition _ _ _ => .invalidPosition

def message : Correction → String
  | unregisteredFont name font fallback =>
    "font '" ++ font ++ "' in #" ++ name ++ " is not registered, using '" ++ fallback ++ "'"
  | unknownColor name color fallback =>
    "color '" ++ color ++ "' in #" ++ name ++ " is not recognized, using '" ++ fallback ++ "'"
  | notNumber name written fallback =>
    "#" ++ name ++ " expects a number, found \"" ++ written ++ "\", using " ++
      toString fallback.toNat
  | outOfRange name v bounds fallback =>
    "#" ++ name ++ " = " ++ toString v ++ " is outside " ++ bounds.display ++ ", using " ++
      toString fallback.toNat
  | unknownPosition _ written fallback =>
    "position '" ++ written ++ "' is not one of " ++
      ", ".intercalate (PagePosition.all.map (·.name)) ++ ", using '" ++ fallback.name ++ "'"

/-- The correction as a warning about an instruction. -/
def diagnostic (keyword : Keyword) (line : Nat) (c : Correction) : Diagnostic :=
  ⟨.warning, c.code, line, keyword.text ++ ": " ++ c.message⟩

end Correction

/-- A value, and the corrections that led to it. -/
structure Corrected (α : Type) where
  value : α
  corrections : List Correction
  deriving DecidableEq, Repr

namespace Corrected

/-- The value as written. -/
def plain {α : Type} (v : α) : Corrected α := ⟨v, []⟩

/-- The default in place of what is written. -/
def replaced {α : Type} (fallback : α) (c : Correction) : Corrected α := ⟨fallback, [c]⟩

end Corrected

/-! ## Reading an argument -/

namespace Arguments

/-- The text of an argument, if it is one. -/
def text? (args : Arguments) (name : String) : Option String :=
  match args.get? name with
  | some (.text s) => some s
  | _ => none

/-- A registered font. -/
def font (args : Arguments) (settings : Settings) (name fallback : String) : Corrected String :=
  match args.text? name with
  | none => .plain fallback
  | some font =>
    if settings.isRegisteredFont font then .plain font
    else .replaced fallback (.unregisteredFont name font fallback)

/-- A known colour. -/
def color (args : Arguments) (settings : Settings) (name fallback : String) : Corrected String :=
  match args.text? name with
  | none => .plain fallback
  | some color =>
    if settings.isKnownColor color then .plain color
    else .replaced fallback (.unknownColor name color fallback)

/-- A number if it lies inside the bounds. -/
def numberWithin (name : String) (bounds : Bounds) (fallback : UInt32) (v : Int) :
    Corrected UInt32 :=
  if bounds.contains v then .plain (UInt32.ofNat v.toNat)
  else .replaced fallback (.outOfRange name v bounds fallback)

/-- A number inside the bounds; a text that denotes a number stands for it. -/
def number (args : Arguments) (name : String) (bounds : Bounds) (fallback : UInt32) :
    Corrected UInt32 :=
  match args.get? name with
  | none => .plain fallback
  | some (.number v) => numberWithin name bounds fallback v
  | some (.text s) =>
    match Text.int64? s with
    | some v => numberWithin name bounds fallback v
    | none => .replaced fallback (.notNumber name s fallback)

def position (args : Arguments) (name : String) (fallback : PagePosition) :
    Corrected PagePosition :=
  match args.text? name with
  | none => .plain fallback
  | some s =>
    match PagePosition.ofName? s with
    | some p => .plain p
    | none => .replaced fallback (.unknownPosition name s fallback)

/-- A number read without correction is the default or lies inside the bounds. -/
theorem number_mem_bounds {args : Arguments} {name : String} {bounds : Bounds}
    {fallback : UInt32} (hf : bounds.contains fallback.toNat) :
    bounds.contains (args.number name bounds fallback).value.toNat := by
  have key : ∀ v : Int, bounds.contains (numberWithin name bounds fallback v).value.toNat := by
    intro v
    unfold numberWithin
    by_cases h : bounds.contains v
    · rw [if_pos h]
      exact (Bounds.toNat_ofInt_of_contains h).symm ▸ h
    · rw [if_neg h]
      exact hf
  unfold number
  split
  · exact hf
  · exact key _
  · split
    · exact key _
    · exact hf

end Arguments

end Folio
