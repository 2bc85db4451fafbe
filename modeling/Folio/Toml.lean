import Folio.Toml.Moment
import Folio.Toml.Number
import Folio.Toml.Table

/-!
# TOML documents

A document is read line by line into its table. A line is blank, a header, or a key with a value;
any line may end in a comment.

Values are read with two bounds: `fuel`, the length of the text, and `depth`, how many lists and
inline tables may still open.

**Moments.** A moment is read as a table that begins with a field of a name of its own
(`momentName`), and any table that begins so is a moment: once the document is complete, the text
of that field takes the place of the table (`settle?`).
-/

namespace Folio.Toml

/-! ## Moments -/

/-- The name of the field that makes a table a moment. -/
def momentName : String := "$__toml_private_datetime"

/-- The moment at the front, as a table. -/
def momentTable? (file : Option String) (cs : List Char) : Option (Value × List Char) :=
  (moment? .strict cs).map fun (s, rest) =>
    (.table file [(momentName, .scalar file (.text s))], rest)

/-- The text of a moment from its field. -/
def momentField? : Value → Option String
  | .scalar _ (.text s) => momentText? s
  | _ => none

mutual

/-- The value with texts for its moments. What stands in a moment behind its text does not
matter. -/
def settle? : Value → Option Value
  | .scalar file s => some (.scalar file s)
  | .list file vs => (settleItems? vs).map (.list file)
  | .table file fields =>
    match fields.head? with
    | some (name, v) =>
      if name = momentName then (momentField? v).map fun s => .scalar file (.text s)
      else (settleFields? fields).map (.table file)
    | none => some (.table file [])

def settleItems? : List Value → Option (List Value)
  | [] => some []
  | v :: vs => (settle? v).bind fun v => (settleItems? vs).map (v :: ·)

def settleFields? : List (String × Value) → Option (List (String × Value))
  | [] => some []
  | (name, v) :: fs => (settle? v).bind fun v => (settleFields? fs).map ((name, v) :: ·)

end

/-! ## Values -/

/-- The inline table of keys with their values. -/
def inlineTable (file : Option String) (pairs : List ((List String × String) × Value)) :
    Option Value :=
  (pairs.foldlM (fun (t : Table) ((path, name), v) => t.give path name v) (.empty .header)).map
    (Table.value file)

mutual

def value? (file : Option String) (depth : Nat) : (fuel : Nat) → List Char →
    Option (Value × List Char)
  | 0, _ => none
  | fuel + 1, '[' :: cs =>
    if depth = 0 then none
    else (items? file (depth - 1) fuel cs).map fun (vs, rest) => (.list file vs, rest)
  | fuel + 1, '\x7b' :: cs =>
    if depth = 0 then none
    else
      match skipSpaces cs with
      | '\x7d' :: rest => some (.table file [], rest)
      | cs => (pairs? file (depth - 1) fuel cs).bind fun (ps, rest) =>
        (inlineTable file ps).map fun t => (t, rest)
  | _ + 1, cs =>
    momentTable? file cs <|> (scalar? cs).map fun (s, rest) => (.scalar file s, rest)

/-- The items of a list up to its closing bracket; a comma may follow the last. -/
def items? (file : Option String) (depth : Nat) : (fuel : Nat) → List Char →
    Option (List Value × List Char)
  | 0, _ => none
  | fuel + 1, cs =>
    match skipLines cs.length cs with
    | ']' :: rest => some ([], rest)
    | cs => (value? file depth fuel cs).bind fun (v, rest) =>
      match skipLines rest.length rest with
      | ']' :: rest => some ([v], rest)
      | ',' :: rest => (items? file depth fuel rest).map fun (vs, rest) => (v :: vs, rest)
      | _ => none

/-- The keys and values of an inline table up to its closing brace. -/
def pairs? (file : Option String) (depth : Nat) : (fuel : Nat) → List Char →
    Option (List ((List String × String) × Value) × List Char)
  | 0, _ => none
  | fuel + 1, cs => (pair? file depth fuel cs).bind fun (p, rest) =>
    match skipSpaces rest with
    | '\x7d' :: rest => some ([p], rest)
    | ',' :: rest => (pairs? file depth fuel rest).map fun (ps, rest) => (p :: ps, rest)
    | _ => none

/-- A key with its value. -/
def pair? (file : Option String) (depth : Nat) : (fuel : Nat) → List Char →
    Option (((List String × String) × Value) × List Char)
  | 0, _ => none
  | fuel + 1, cs => (key? cs).bind fun (k, rest) =>
    match rest with
    | '=' :: rest => (value? file depth fuel (skipSpaces rest)).map fun (v, rest) => ((k, v), rest)
    | _ => none

end

/-! ## Lines -/

/-- What the lines so far make, and the path of the table that is open. -/
structure Document where
  root : Table
  path : List String

/-- In front of the first line. -/
def Document.start : Document := ⟨.empty .header, []⟩

/-- The document behind a header. -/
def Document.openWith (d : Document) (f : String → Table → Option Table) (path : List String)
    (name : String) : Option Document :=
  (d.root.change false (f name) path).map fun root => ⟨root, path ++ [name]⟩

/-- The document behind a key with its value. -/
def Document.give (d : Document) (path : List String) (name : String) (v : Value) :
    Option Document :=
  (d.root.change false (Table.give path name v) d.path).map fun root => { d with root }

/-- The document behind one line that is not blank, and the rest behind the line. -/
def Document.line? (file : Option String) (d : Document) (cs : List Char) :
    Option (Document × List Char) :=
  match cs with
  | '[' :: '[' :: cs => do
    let ((path, name), rest) ← key? cs
    match rest with
    | ']' :: ']' :: rest => some (← d.openWith Table.openElement path name, ← lineEnd? rest)
    | _ => none
  | '[' :: cs => do
    let ((path, name), rest) ← key? cs
    match rest with
    | ']' :: rest => some (← d.openWith Table.openTable path name, ← lineEnd? rest)
    | _ => none
  | cs => do
    let (((path, name), v), rest) ← pair? file (maxDepth - 1) (3 * cs.length + 3) cs
    some (← d.give path name v, ← lineEnd? rest)

/-- The document of the lines left. -/
def Document.lines? (file : Option String) : (fuel : Nat) → Document → List Char →
    Option Document
  | 0, _, _ => none
  | fuel + 1, d, cs =>
    match skipSpaces cs with
    | [] => some d
    | cs =>
      match newline? (skipComment cs) with
      | some rest => lines? file fuel d rest
      | none =>
        if (skipComment cs).isEmpty then some d
        else (d.line? file cs).bind fun (d, rest) => lines? file fuel d rest

/-- The text without the mark that may stand in front of a file. -/
def dropMark : List Char → List Char
  | '\ufeff' :: cs => cs
  | cs => cs

/-- The fields of a document, each value with the file as its origin. -/
def read? (file : Option String) (text : String) : Option (List (String × Value)) := do
  let cs := dropMark text.toList
  let d ← Document.lines? file (cs.length + 1) .start cs
  match ← settle? (d.root.value file) with
  | .table _ fields => some fields
  | .scalar _ _ | .list _ _ => none

end Folio.Toml
