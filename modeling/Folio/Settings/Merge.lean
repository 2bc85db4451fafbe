import Folio.Settings.KeyPath
import Folio.Settings.Value
import Folio.Text.Lower

/-!
# Merging values

A value is put where a path leads. What stands in the way is replaced by a table or a list as the
path needs it, and lists are filled up with nil.

A table put under a name is merged into what is there, name by name, at every depth; any other
value replaces what is there. An element of a list is always replaced. Names are kept in lower
case.
-/

namespace Folio

namespace Value

/-- Replace the value of a name in a table. -/
def set (root : Value) (name : String) (v : Value) : Value :=
  let t := root.asTable
  table t.origin (setField (Text.lower name) v t.fields)

mutual

/-- Merge a value into a table under a name. -/
def mergeField (root : Value) (name : String) : Value → Value
  | table _ incoming =>
    let target := (root.asTable.fields.lookup (Text.lower name)).getD emptyTable
    root.set name (mergeFields target incoming)
  | v => root.set name v

def mergeFields (root : Value) : List (String × Value) → Value
  | [] => root
  | (name, v) :: fs => mergeFields (mergeField root name v) fs

end

/-- The position of an index in a list of a length. -/
def position (i : Int) (length : Nat) : Nat := if i < 0 then length - i.natAbs else i.toNat

/-- Replace the element at an index, after filling up with nil as needed. -/
def modifyItem (items : List Value) (i : Int) (f : Value → Value) : List Value :=
  let p := position i items.length
  (items ++ List.replicate (p + 1 - items.length) nil).modify p f

/-- Put a value where the steps lead. -/
def put (v : Value) : List KeyStep → Value → Value
  | [], _ => v
  | [.name s], root => mergeField root s v
  | .name s :: rest, root =>
    root.set s (put v rest ((root.asTable.fields.lookup (Text.lower s)).getD nil))
  | .index i :: rest, root =>
    list root.asList.1 (modifyItem root.asList.2 i (put v rest))

/-- Put a value where a path leads. -/
def putAt (root : Value) (path : KeyPath) (v : Value) : Value :=
  put v (.name path.first :: path.rest) root

/-- Put every field of a file where its name leads as a path; a name that is no path stands for
itself. -/
def layered (root : Value) (fields : List (String × Value)) : Value :=
  fields.foldl (fun root (name, v) =>
    match KeyPath.read name with
    | .ok path => root.putAt path v
    | .error _ => root.mergeField name v) root

/-- A name has the value that was set last. -/
theorem lookup_set (root : Value) (name other : String) (v : Value) :
    (root.set name v).fields.lookup other =
      if other = Text.lower name then some v else root.asTable.fields.lookup other :=
  lookup_setField _ _ _ _

end Value

end Folio
