import Folio.Decimal.Double

/-!
# Setting values

The tree that settings are collected in before they are given a type. Lists and tables nest; a
table has at most one value for a name. A value remembers the file it was read from, so that a
complaint about it can name the file.
-/

namespace Folio

inductive Scalar where
  | nil
  | bool (b : Bool)
  | integer (n : Int)
  | real (d : Double)
  | text (s : String)
  deriving DecidableEq, Repr

inductive Value where
  | scalar (origin : Option String) (s : Scalar)
  | list (origin : Option String) (items : List Value)
  | table (origin : Option String) (fields : List (String × Value))
  deriving Repr

namespace Value

def nil : Value := scalar none .nil

instance : Inhabited Value := ⟨nil⟩

/-- A table made to hold further values. -/
def emptyTable : Value := table none []

def origin : Value → Option String
  | scalar origin _ | list origin _ | table origin _ => origin

def fields : Value → List (String × Value)
  | table _ fields => fields
  | _ => []

/-- The value where it is a table, or else an empty one in its place. -/
def asTable : Value → Value
  | v@(table _ _) => v
  | _ => emptyTable

/-- The value where it is a list, or else an empty one in its place. -/
def asList : Value → Option String × List Value
  | list origin items => (origin, items)
  | _ => (none, [])

end Value

/-- Give a name a value in a list of fields. -/
def setField (name : String) (v : Value) : List (String × Value) → List (String × Value)
  | [] => [(name, v)]
  | f :: fs => if f.1 = name then (name, v) :: fs else f :: setField name v fs

theorem lookup_setField (name other : String) (v : Value) (fs : List (String × Value)) :
    (setField name v fs).lookup other = if other = name then some v else fs.lookup other := by
  induction fs with
  | nil => by_cases h : other = name <;> simp [setField, List.lookup_cons, h, beq_eq_false_iff_ne.2]
  | cons f fs ih =>
    obtain ⟨k, w⟩ := f
    unfold setField
    by_cases hk : k = name
    · subst hk
      by_cases h : other = k <;> simp [List.lookup_cons, h, beq_eq_false_iff_ne.2]
    · by_cases h : other = k
      · subst h
        simp [hk]
      · simp [List.lookup_cons, hk, h, beq_eq_false_iff_ne.2, ih]

end Folio
