import Folio.Instruction.Arguments
import Folio.Token

/-!
# Instructions

The tree of a document: a list of instructions, each of the shape that its keyword fixes. A
block holds text and further instructions of any kind; which of them make sense there is decided
later. Every instruction keeps the line of its keyword.
-/

namespace Folio

mutual

inductive Instruction where
  | directive (kind : DirectiveKind) (arguments : Arguments) (line : Nat)
  | block (kind : BlockKind) (arguments : Arguments) (content : List Node) (line : Nat)
  /-- The text is empty when the braces were. -/
  | emphasis (kind : EmphasisKind) (text : String) (line : Nat)

inductive Node where
  | text (value : String)
  | instruction (i : Instruction)

end

namespace Instruction

def keyword : Instruction → Keyword
  | directive kind _ _ => .directive kind
  | block kind _ _ _ => .block kind
  | emphasis kind _ _ => .emphasis kind

def line : Instruction → Nat
  | directive _ _ line | block _ _ _ line | emphasis _ _ line => line

/-! ## The outline

An indented listing of the tree, one line for each instruction and each text. -/

def indent (depth : Nat) : String := String.ofList (List.replicate (2 * depth) ' ')

/-- The arguments as in a source, each behind a space. -/
def showArguments (args : Arguments) : String :=
  String.join (args.entries.map fun (name, v) => " #" ++ name ++ "=" ++ v.display)

/-- The line of an instruction itself. -/
def heading : Instruction → String
  | i@(directive _ args line) | i@(block _ args _ line) =>
    i.keyword.text ++ showArguments args ++ "  (line " ++ toString line ++ ")\n"
  | i@(emphasis _ text line) =>
    i.keyword.text ++ " " ++ Text.quoted text ++ "  (line " ++ toString line ++ ")\n"

mutual

def outlineAt (depth : Nat) : Instruction → String
  | i@(block _ _ content _) => indent depth ++ i.heading ++ outlineNodes depth content
  | i => indent depth ++ i.heading

/-- The nodes of a block at `depth`: a text two spaces deeper, an instruction one level deeper. -/
def outlineNodes (depth : Nat) : List Node → String
  | [] => ""
  | .text s :: nodes =>
    indent depth ++ "  text " ++ Text.quoted s ++ "\n" ++ outlineNodes depth nodes
  | .instruction i :: nodes => outlineAt (depth + 1) i ++ outlineNodes depth nodes

end

def outline (instructions : List Instruction) : String :=
  String.join (instructions.map (outlineAt 0))

end Instruction

end Folio
