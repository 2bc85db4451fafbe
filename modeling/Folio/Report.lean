import Folio.Diagnostic
import Folio.Token

/-!
# Reports

The illegal characters of a source and then its diagnostics by line, each on a line of its own.
-/

namespace Folio

def IllegalCharacter.reportLine (e : IllegalCharacter) : String :=
  "error [illegal-character] " ++ e.display

def reportLines (illegal : List IllegalCharacter) (ds : Diagnostics) : List String :=
  illegal.map (·.reportLine) ++ ds.inSourceOrder.map (·.display)

def report (illegal : List IllegalCharacter) (ds : Diagnostics) : String :=
  String.join ((reportLines illegal ds).map (· ++ "\n"))

end Folio
