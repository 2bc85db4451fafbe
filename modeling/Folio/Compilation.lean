import Folio.Instruction.Reader
import Folio.Report
import Folio.Resolve
import Folio.Token.Scan

/-!
# Compilation

A source is scanned, read and resolved. Illegal characters never stop it; a syntax error does,
and then keeps the illegal characters with it, since a character that was skipped is often what
broke the document.
-/

namespace Folio

/-- Why a source has no model. -/
structure CompilationError where
  cause : SyntaxError
  illegal : List IllegalCharacter
  deriving DecidableEq, Repr

namespace CompilationError

def message (e : CompilationError) : String := e.cause.message

end CompilationError

structure Compilation where
  scan : Scan
  instructions : List Instruction
  model : Model

namespace Compilation

/-- The model of a source, with what it was made from. -/
def ofSource (settings : Settings) (source : String) :
    Except CompilationError Compilation :=
  let scan := Scan.ofSource source
  match Instruction.read scan.tokens with
  | .error cause => .error ⟨cause, scan.illegal⟩
  | .ok instructions => .ok ⟨scan, instructions, .ofInstructions settings instructions⟩

/-- What there is to say about the source. -/
def report (c : Compilation) : String := Folio.report c.scan.illegal c.model.diagnostics

end Compilation

/-- The instructions of a source; illegal characters are passed over. -/
def Instruction.ofSource (source : String) : Except SyntaxError (List Instruction) :=
  read (Scan.ofSource source).tokens

end Folio
