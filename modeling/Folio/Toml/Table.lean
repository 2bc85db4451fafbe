import Folio.Settings.Value

/-!
# Tables of TOML

A document is written in pieces: a header opens a table, and the lines below it give values to
its names. A key of several names goes through tables that it makes as it needs them.

**Who may add to a table** (`Table.Origin`). A table with a header of its own is complete when
the next header comes. A table that only the headers of its parts have named may still get its
own header, once. A table made by a key can be added to by further keys only. So no value is
given twice and no table is taken for a value.
-/

namespace Folio.Toml

/-- How a table came to be. -/
inductive Table.Origin where
  /-- By a header of its own, or as an element of a list of tables. -/
  | header
  /-- On the way to the table of a header. -/
  | passed
  /-- On the way to the value of a key. -/
  | key
  deriving DecidableEq, Repr

mutual

inductive Table where
  | mk (origin : Table.Origin) (entries : List (String × Entry))

inductive Entry where
  /-- A value that nothing can be added to, an inline table included. -/
  | value (v : Value)
  | table (t : Table)
  /-- Tables with one header, the latest first. -/
  | tables (latest : Table) (earlier : List Table)

end

namespace Table

def origin : Table → Origin
  | mk origin _ => origin

def entries : Table → List (String × Entry)
  | mk _ entries => entries

def empty (origin : Origin) : Table := mk origin []

/-- Replace the entry of a name, or add one. -/
def replace (name : String) (e : Entry) : List (String × Entry) → List (String × Entry)
  | [] => [(name, e)]
  | d :: ds => if d.1 = name then (name, e) :: ds else d :: replace name e ds

def set (t : Table) (name : String) (e : Entry) : Table :=
  mk t.origin (replace name e t.entries)

/-- Change the table at the end of a path. Where the path meets a list of tables it goes on in
the latest of them; where there is no table yet, one is made. A key may not go through a table
that has a header. -/
def change (byKey : Bool) (f : Table → Option Table) : List String → Table → Option Table
  | [], t => f t
  | name :: path, t =>
    match t.entries.lookup name with
    | none =>
      (change byKey f path (empty (if byKey then .key else .passed))).map
        fun s => t.set name (.table s)
    | some (.table s) =>
      if byKey && s.origin == .header then none
      else (change byKey f path s).map fun s => t.set name (.table s)
    | some (.tables latest earlier) =>
      (change byKey f path latest).map fun s => t.set name (.tables s earlier)
    | some (.value _) => none

/-- Put an entry behind all others, in place of any of the same name. -/
def setLast (t : Table) (name : String) (e : Entry) : Table :=
  mk t.origin (t.entries.filter (·.1 ≠ name) ++ [(name, e)])

/-- Open the table of a header. It stands where its own header is, behind what was there. -/
def openTable (name : String) (t : Table) : Option Table :=
  match t.entries.lookup name with
  | none => some (t.set name (.table (empty .header)))
  | some (.table (mk .passed entries)) => some (t.setLast name (.table (mk .header entries)))
  | some _ => none

/-- Open one more table of a header for lists. -/
def openElement (name : String) (t : Table) : Option Table :=
  match t.entries.lookup name with
  | none => some (t.set name (.tables (empty .header) []))
  | some (.tables latest earlier) =>
    some (t.set name (.tables (empty .header) (latest :: earlier)))
  | some _ => none

/-- Give a value to a name at the end of a path of a key. -/
def give (path : List String) (name : String) (v : Value) (t : Table) : Option Table :=
  t.change true (fun s =>
    if (s.origin == .key) == path.isEmpty then none
    else match s.entries.lookup name with
      | none => some (s.set name (.value v))
      | some _ => none) path

mutual

/-- The table as a value that was read from a file. -/
def value (file : Option String) : Table → Value
  | mk _ entries => .table file (entryValues file entries)

def entryValues (file : Option String) : List (String × Entry) → List (String × Value)
  | [] => []
  | (name, .value v) :: es => (name, v) :: entryValues file es
  | (name, .table t) :: es => (name, t.value file) :: entryValues file es
  | (name, .tables latest earlier) :: es =>
    (name, .list file (tableValues file [latest.value file] earlier)) :: entryValues file es

/-- Values in front of which the values of earlier tables are put, latest first. -/
def tableValues (file : Option String) (later : List Value) : List Table → List Value
  | [] => later
  | t :: ts => tableValues file (t.value file :: later) ts

end

end Table

end Folio.Toml
