import Folio.Data
import Folio.Data.Yaml.Scalar

/-!
# YAML text

Data as YAML in block style. The items of a list that is the value of a field begin in the column
of the field; the fields of an object that is the value of a field are two columns deeper. Empty
lists and objects are bare brackets.

Every function here writes whole entries, so its text ends with a line break. Behind `- ` or `: `
a list or an object begins on the same line.
-/

namespace Folio.Data.Yaml

/-- Entries below each other in column `n`, the first where the text stands. -/
def rows (n : Nat) : List (List Char) → List Char
  | [] => []
  | [e] => e
  | e :: es => e ++ indentation n ++ rows n es

/-- A key is written in front of its colon if it is short and on one line. -/
def isSimpleKey (k : String) : Bool := k.utf8ByteSize ≤ 128 && !k.toList.any isBreak

/-- A value without entries, further lines of it indented by `n`. -/
def leaf (n : Nat) : Data → List Char
  | .null => "null\n".toList
  | .bool b => (toString b).toList ++ ['\n']
  | .number v => (toString v).toList ++ ['\n']
  | .text s => scalar n s
  | .list _ => "[]\n".toList
  | .object _ => ['\x7b', '\x7d', '\n']

mutual

/-- A value whose entries stand in column `n`, beginning on the same line. -/
def value (n : Nat) : Data → List Char
  | .list (d :: ds) => rows n (items n (d :: ds))
  | .object (f :: fs) => rows n (fields n (f :: fs))
  | d => leaf n d

/-- The items of a list whose dashes stand in column `n`. -/
def items (n : Nat) : List Data → List (List Char)
  | [] => []
  | d :: ds => ('-' :: ' ' :: value (n + 2) d) :: items n ds

/-- The fields of an object whose keys stand in column `n`. -/
def fields (n : Nat) : List (String × Data) → List (List Char)
  | [] => []
  | (k, d) :: fs =>
    (if isSimpleKey k then key k ++ ':' :: below n d
    else '?' :: ' ' :: scalar (n + 2) k ++ indentation n ++ ':' :: ' ' :: value (n + 2) d) ::
      fields n fs

/-- The value of a field in column `n`, on the lines below it if it has entries. -/
def below (n : Nat) : Data → List Char
  | .list (d :: ds) => '\n' :: indentation n ++ rows n (items n (d :: ds))
  | .object (f :: fs) => '\n' :: indentation (n + 2) ++ rows (n + 2) (fields (n + 2) (f :: fs))
  | d => ' ' :: leaf (n + 2) d

end

end Folio.Data.Yaml

namespace Folio.Data

/-- The data as YAML text. -/
def yaml (d : Data) : String := String.ofList (Yaml.value 0 d)

end Folio.Data
