import Folio.Instruction.Arguments
import Folio.Resolve.Fault

/-!
# Signatures

The arguments that a keyword accepts. A text argument needs a text; a number argument may also be
written as a text, which is read later. The faults of an argument list (`Signature.faults`) are
its unknown names, and only where there are none its numbers in place of texts, each in the order
of the names.
-/

namespace Folio

inductive ArgumentKind where
  | text
  | number
  deriving DecidableEq, Repr

/-- The accepted names, each with the kind of its values. -/
abbrev Signature := List (String × ArgumentKind)

namespace Signature

def ofDirective : DirectiveKind → Signature
  | .style => [("name", .text), ("font", .text), ("fontSize", .number), ("fontColor", .text)]
  | .pageNumber =>
    [("pageNumberPosition", .text), ("pageNumberFont", .text), ("pageNumberFontSize", .number),
      ("pageNumberFontColor", .text), ("pageNumberStart", .number)]
  | .numberizeTitle => [("numberizeTitleStart", .number)]

def ofBlock : BlockKind → Signature
  | .title => [("style", .text), ("level", .number)]
  | .body => [("style", .text)]

def names (signature : Signature) : List String := signature.map (·.1)

/-- The names of a list that the signature does not have. -/
def unknownNames (signature : Signature) (args : Arguments) : List String :=
  args.names.filter fun name => (signature.lookup name).isNone

/-- The text arguments that hold a number. -/
def numbersForText (signature : Signature) (args : Arguments) : List (String × Int) :=
  args.entries.filterMap fun
    | (name, .number v) => if signature.lookup name = some .text then some (name, v) else none
    | (_, .text _) => none

/-- What is wrong with the arguments of a keyword. -/
def faults (signature : Signature) (keyword : Keyword) (args : Arguments) : List Fault :=
  match signature.unknownNames args with
  | [] => (signature.numbersForText args).map fun (name, v) => .numberForText keyword name v
  | unknown => unknown.map fun name => .unknownArgument keyword name signature.names

theorem mem_names_iff {signature : Signature} {name : String} :
    name ∈ signature.names ↔ (signature.lookup name).isSome := by
  induction signature with
  | nil => simp [names]
  | cons e es ih =>
    obtain ⟨k, v⟩ := e
    simp only [names, List.map_cons, List.mem_cons] at ih ⊢
    by_cases h : name = k
    · simp [h]
    · simp [List.lookup_cons, h, ih, beq_eq_false_iff_ne.2 h]

end Signature

end Folio
