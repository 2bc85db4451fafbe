import Folio.Data

/-!
# JSON text

Data as JSON: each item and each field on a line of its own, two spaces deeper than the bracket
that holds it, and empty lists and objects as bare brackets. In a text the quote, the backslash
and the controls below the space are escaped, and nothing else.
-/

namespace Folio.Data.Json

/-- A line break and the indentation of the next line. -/
def newline (depth : Nat) : List Char := '\n' :: List.replicate (2 * depth) ' '

/-- A number below 256 in two hexadecimal digits of lower case. -/
def twoHexDigits (n : Nat) : List Char := [Nat.digitChar (n / 16), Nat.digitChar (n % 16)]

/-- One character of a JSON text. -/
def escaped (c : Char) : List Char :=
  if c = '"' then ['\\', '"']
  else if c = '\\' then ['\\', '\\']
  else if c = '\n' then ['\\', 'n']
  else if c = '\r' then ['\\', 'r']
  else if c = '\t' then ['\\', 't']
  else if c = '\x08' then ['\\', 'b']
  else if c = '\x0c' then ['\\', 'f']
  else if c.toNat < 0x20 then ['\\', 'u', '0', '0'] ++ twoHexDigits c.toNat
  else [c]

def string (s : String) : List Char := '"' :: s.toList.flatMap escaped ++ ['"']

mutual

/-- A value whose bracket stands at the given depth. -/
def value (depth : Nat) : Data → List Char
  | .null => ['n', 'u', 'l', 'l']
  | .bool true => ['t', 'r', 'u', 'e']
  | .bool false => ['f', 'a', 'l', 's', 'e']
  | .number n => (toString n).toList
  | .text s => string s
  | .list [] => ['[', ']']
  | .list (d :: ds) =>
    '[' :: newline (depth + 1) ++ value (depth + 1) d ++ moreItems (depth + 1) ds ++
      newline depth ++ [']']
  | .object [] => ['\x7b', '\x7d']
  | .object ((k, d) :: fs) =>
    '\x7b' :: newline (depth + 1) ++ (string k ++ [':', ' ']) ++ value (depth + 1) d ++
      moreFields (depth + 1) fs ++ newline depth ++ ['\x7d']

/-- Items behind the first of a list. -/
def moreItems (depth : Nat) : List Data → List Char
  | [] => []
  | d :: ds => ',' :: newline depth ++ value depth d ++ moreItems depth ds

/-- Fields behind the first of an object. -/
def moreFields (depth : Nat) : List (String × Data) → List Char
  | [] => []
  | (k, d) :: fs =>
    ',' :: newline depth ++ (string k ++ [':', ' ']) ++ value depth d ++ moreFields depth fs

end

end Folio.Data.Json

namespace Folio.Data

/-- The data as JSON text. -/
def json (d : Data) : String := String.ofList (Json.value 0 d)

example : (Data.object [("a", .list [.number 1, .null]), ("b", .list [])]).json =
    "\x7b\n  \"a\": [\n    1,\n    null\n  ],\n  \"b\": []\n\x7d" := by
  decide +kernel

end Folio.Data
