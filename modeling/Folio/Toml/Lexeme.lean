import Folio.Text.Integer

/-!
# Lexemes of TOML

Blanks, line ends, strings and keys. Every function takes the lexeme off the front of a text and
returns the rest; none means that the text does not begin with the lexeme. A line ends with a
line feed or with a carriage return and a line feed; a carriage return alone is no line end and
may not stand anywhere.

Loops take as fuel the length of the text, of which each round uses up a character.
-/

namespace Folio.Toml

/-- Past the spaces and tabs in front. -/
def skipSpaces (cs : List Char) : List Char := cs.dropWhile fun c => c == ' ' || c == '\t'

/-- The rest behind a line end. -/
def newline? : List Char → Option (List Char)
  | '\n' :: cs => some cs
  | '\r' :: '\n' :: cs => some cs
  | _ => none

/-- A character that is no control, or a tab. -/
def isPlain (c : Char) : Bool := c == '\t' || (' ' ≤ c && c != '\x7f')

/-- Past a comment, if there is one. -/
def skipComment : List Char → List Char
  | '#' :: cs => cs.dropWhile isPlain
  | cs => cs

/-- The rest behind the end of a line, on which only blanks and a comment may be left. -/
def lineEnd? (cs : List Char) : Option (List Char) :=
  match skipComment (skipSpaces cs) with
  | [] => some []
  | cs => newline? cs

/-- Past blanks, comments and line ends. -/
def skipLines : (fuel : Nat) → List Char → List Char
  | 0, cs => cs
  | fuel + 1, cs =>
    let cs := skipSpaces cs
    match newline? (skipComment cs) with
    | some rest => skipLines fuel rest
    | none => cs

/-! ## Strings -/

def hexDigit? (c : Char) : Option Nat :=
  if c.isDigit then some (c.toNat - '0'.toNat)
  else if 'a' ≤ c ∧ c ≤ 'f' then some (c.toNat - 'a'.toNat + 10)
  else if 'A' ≤ c ∧ c ≤ 'F' then some (c.toNat - 'A'.toNat + 10)
  else none

/-- The character whose number stands in so many hexadecimal digits. -/
def numbered? (width : Nat) (cs : List Char) : Option (Char × List Char) :=
  let digits := cs.take width
  if digits.length < width then none
  else do
    let n ← digits.foldlM (fun n c => (hexDigit? c).map (16 * n + ·)) 0
    if n.isValidChar then some (Char.ofNat n, cs.drop width) else none

/-- The character that an escape stands for, behind the backslash. -/
def escape? : List Char → Option (Char × List Char)
  | 'b' :: cs => some ('\x08', cs)
  | 't' :: cs => some ('\t', cs)
  | 'n' :: cs => some ('\n', cs)
  | 'f' :: cs => some ('\x0c', cs)
  | 'r' :: cs => some ('\r', cs)
  | '"' :: cs => some ('"', cs)
  | '\\' :: cs => some ('\\', cs)
  | 'u' :: cs => numbered? 4 cs
  | 'U' :: cs => numbered? 8 cs
  | _ => none

/-- Put a character in front of what is read next. -/
def push (c : Char) (r : Option (List Char × List Char)) : Option (List Char × List Char) :=
  r.map fun (s, rest) => (c :: s, rest)

/-- A string behind its opening quotation mark. -/
def basic? : (fuel : Nat) → List Char → Option (List Char × List Char)
  | 0, _ => none
  | _ + 1, [] => none
  | fuel + 1, c :: cs =>
    if c = '"' then some ([], cs)
    else if c = '\\' then (escape? cs).bind fun (e, rest) => push e (basic? fuel rest)
    else if isPlain c then push c (basic? fuel cs)
    else none

/-- A string without escapes behind its opening apostrophe. -/
def raw? (cs : List Char) : Option (List Char × List Char) :=
  match cs.dropWhile fun c => isPlain c && c != '\'' with
  | '\'' :: rest => some (cs.takeWhile fun c => isPlain c && c != '\'', rest)
  | _ => none

/-- The end of a string over several lines, with up to two marks that still belong to it. -/
def longEnd? (mark : Char) (cs : List Char) : Option (List Char × List Char) :=
  let marks := (cs.takeWhile (· == mark)).length
  if marks < 3 then none
  else
    let inside := min (marks - 3) 2
    some (List.replicate inside mark, cs.drop (inside + 3))

/-- A string over several lines behind its opening marks. A backslash at the end of a line joins
the lines; `joining` says that the blanks and line ends in front are passed over. -/
def longBasic? : (fuel : Nat) → (joining : Bool) → List Char → Option (List Char × List Char)
  | 0, _, _ => none
  | _ + 1, _, [] => none
  | fuel + 1, joining, c :: cs =>
    match longEnd? '"' (c :: cs) with
    | some r => some r
    | none =>
      match newline? (c :: cs) with
      | some rest =>
        if joining then longBasic? fuel true rest else push '\n' (longBasic? fuel false rest)
      | none =>
        if joining && (c == ' ' || c == '\t') then longBasic? fuel true cs
        else if c = '\\' then
          match newline? (skipSpaces cs) with
          | some rest => longBasic? fuel true rest
          | none => (escape? cs).bind fun (e, rest) => push e (longBasic? fuel false rest)
        else if isPlain c then push c (longBasic? fuel false cs)
        else none

/-- A string over several lines without escapes, behind its opening marks. -/
def longRaw? : (fuel : Nat) → List Char → Option (List Char × List Char)
  | 0, _ => none
  | _ + 1, [] => none
  | fuel + 1, c :: cs =>
    match longEnd? '\'' (c :: cs) with
    | some r => some r
    | none =>
      match newline? (c :: cs) with
      | some rest => push '\n' (longRaw? fuel rest)
      | none => if isPlain c then push c (longRaw? fuel cs) else none

/-- The rest behind a line end right behind the opening marks, which is no part of a string. -/
def skipNewline (cs : List Char) : List Char := (newline? cs).getD cs

/-- A string of any of the four forms. -/
def string? (cs : List Char) : Option (String × List Char) :=
  let content := match cs with
    | '"' :: '"' :: '"' :: rest => longBasic? (cs.length + 1) false (skipNewline rest)
    | '\'' :: '\'' :: '\'' :: rest => longRaw? (cs.length + 1) (skipNewline rest)
    | '"' :: rest => basic? (cs.length + 1) rest
    | '\'' :: rest => raw? rest
    | _ => none
  content.map fun (s, rest) => (String.ofList s, rest)

/-! ## Keys -/

def isBareKeyChar (c : Char) : Bool := c.isAlphanum || c == '_' || c == '-'

/-- One name of a key, bare or quoted on one line. -/
def name? (cs : List Char) : Option (String × List Char) :=
  match cs with
  | '"' :: rest => (basic? (cs.length + 1) rest).map fun (s, rest) => (String.ofList s, rest)
  | '\'' :: rest => (raw? rest).map fun (s, rest) => (String.ofList s, rest)
  | _ =>
    let bare := cs.takeWhile isBareKeyChar
    if bare.isEmpty then none else some (String.ofList bare, cs.dropWhile isBareKeyChar)

/-- Names joined by points, with blanks around each. -/
def names? : (fuel : Nat) → List Char → Option (List String × List Char)
  | 0, _ => none
  | fuel + 1, cs =>
    (name? (skipSpaces cs)).bind fun (name, rest) =>
      match skipSpaces rest with
      | '.' :: rest => (names? fuel rest).map fun (names, rest) => (name :: names, rest)
      | rest => some ([name], rest)

/-- Keys and values nest less deeply than this. -/
def maxDepth : Nat := 80

/-- A key: the names on the way to a value and the name of the value. -/
def key? (cs : List Char) : Option ((List String × String) × List Char) :=
  (names? (cs.length + 1) cs).bind fun (names, rest) =>
    if names.length < maxDepth then
      names.getLast?.map fun last => ((names.dropLast, last), rest)
    else none

example : (string? "\"a\\u00e9\\n\" x".toList).map (·.1) = some "aé\n" := by decide +kernel
example : (string? "\"\"\"\na\\\n  b\"\"\"\"\"".toList).map (·.1) = some "ab\"\"" := by
  decide +kernel
example : (key? "a . \"b c\".d = 1".toList).map (·.1) = some (["a", "b c"], "d") := by
  decide +kernel

end Folio.Toml
