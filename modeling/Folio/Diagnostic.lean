/-!
# Diagnostics

An error says that an instruction was dropped, a warning that a value was replaced. Both carry a
code that stays the same over time, the line of the instruction and a message.

**The sink** (`Diagnostics`). Errors and warnings in two lists, each in the order of arrival.
`inSourceOrder` merges them by line; on one line the errors come first and each list keeps its
own order, because the sort is stable.
-/

namespace Folio

inductive Severity where
  | error
  | warning
  deriving DecidableEq, Repr

def Severity.name : Severity → String
  | error => "error"
  | warning => "warning"

namespace Diagnostic

inductive Code where
  | unknownArgument
  | invalidArgumentType
  | missingArgument
  | duplicateStyle
  | duplicatePageNumber
  | unknownStyle
  | invalidNesting
  | emptyEmphasis
  | misplacedEmphasis
  | unregisteredFont
  | unknownColor
  | outOfRange
  | invalidPosition
  | invalidNumber
  deriving DecidableEq, Repr

namespace Code

def all : List Code :=
  [unknownArgument, invalidArgumentType, missingArgument, duplicateStyle, duplicatePageNumber,
    unknownStyle, invalidNesting, emptyEmphasis, misplacedEmphasis, unregisteredFont,
    unknownColor, outOfRange, invalidPosition, invalidNumber]

def name : Code → String
  | unknownArgument => "unknown-argument"
  | invalidArgumentType => "invalid-argument-type"
  | missingArgument => "missing-argument"
  | duplicateStyle => "duplicate-style"
  | duplicatePageNumber => "duplicate-page-number"
  | unknownStyle => "unknown-style"
  | invalidNesting => "invalid-nesting"
  | emptyEmphasis => "empty-emphasis"
  | misplacedEmphasis => "misplaced-emphasis"
  | unregisteredFont => "unregistered-font"
  | unknownColor => "unknown-color"
  | outOfRange => "out-of-range"
  | invalidPosition => "invalid-position"
  | invalidNumber => "invalid-number"

def ofName? (s : String) : Option Code := all.find? fun c => c.name == s

theorem ofName?_name (c : Code) : ofName? c.name = some c := by cases c <;> decide

end Code

end Diagnostic

structure Diagnostic where
  severity : Severity
  code : Diagnostic.Code
  line : Nat
  message : String
  deriving DecidableEq, Repr

def Diagnostic.display (d : Diagnostic) : String :=
  d.severity.name ++ " [" ++ d.code.name ++ "] (line " ++ toString d.line ++ "): " ++ d.message

structure Diagnostics where
  errors : List Diagnostic
  warnings : List Diagnostic
  deriving DecidableEq, Repr

namespace Diagnostics

def empty : Diagnostics := ⟨[], []⟩

/-- One more diagnostic, to the list of its severity. -/
def push (ds : Diagnostics) (d : Diagnostic) : Diagnostics :=
  match d.severity with
  | .error => { ds with errors := ds.errors ++ [d] }
  | .warning => { ds with warnings := ds.warnings ++ [d] }

def extend (ds : Diagnostics) (more : List Diagnostic) : Diagnostics := more.foldl push ds

def isEmpty (ds : Diagnostics) : Bool := ds.errors.isEmpty && ds.warnings.isEmpty

def hasErrors (ds : Diagnostics) : Bool := !ds.errors.isEmpty

/-- Errors in front of warnings. -/
def all (ds : Diagnostics) : List Diagnostic := ds.errors ++ ds.warnings

/-- By line; what shares a line stays in the order of `all`. -/
def inSourceOrder (ds : Diagnostics) : List Diagnostic :=
  ds.all.mergeSort fun a b => a.line ≤ b.line

def withCode (ds : Diagnostics) (c : Diagnostic.Code) : List Diagnostic :=
  ds.all.filter (·.code = c)

/-! ## The lists after a run of pushes -/

theorem errors_extend (ds : Diagnostics) (more : List Diagnostic) :
    (ds.extend more).errors = ds.errors ++ more.filter (·.severity = .error) := by
  induction more generalizing ds with
  | nil => simp [extend]
  | cons d more ih =>
    have := ih (ds.push d)
    simp only [extend, List.foldl_cons] at this ⊢
    rw [this]
    cases h : d.severity <;> simp [push, h]

theorem warnings_extend (ds : Diagnostics) (more : List Diagnostic) :
    (ds.extend more).warnings = ds.warnings ++ more.filter (·.severity = .warning) := by
  induction more generalizing ds with
  | nil => simp [extend]
  | cons d more ih =>
    have := ih (ds.push d)
    simp only [extend, List.foldl_cons] at this ⊢
    rw [this]
    cases h : d.severity <;> simp [push, h]

theorem inSourceOrder_perm (ds : Diagnostics) : ds.inSourceOrder.Perm ds.all :=
  List.mergeSort_perm _ _

end Diagnostics

end Folio
