/-!
# Arguments

An argument list names values. Only the last value written for a name counts and the order of
the names does not, so arguments are kept as pairs in strictly increasing order of their names
(`sorted`); two lists that say the same are equal.

`get?_insert` says what a look-up finds after one more argument.
-/

namespace Folio

/-- An argument value as written. -/
inductive Literal where
  | text (value : String)
  | number (value : Int)
  deriving DecidableEq, Repr

/-- The literal as in a source; a text holds no quote that could end it early. -/
def Literal.display : Literal → String
  | text value => "\"" ++ value ++ "\""
  | number value => toString value

/-- Pairs in strictly increasing order of their names. -/
def Increasing (entries : List (String × Literal)) : Prop :=
  entries.Pairwise fun a b => a.1 < b.1

/-- Give `name` the value `v`, in its place by order. -/
def insertEntry (name : String) (v : Literal) :
    List (String × Literal) → List (String × Literal)
  | [] => [(name, v)]
  | e :: es =>
    if name < e.1 then (name, v) :: e :: es
    else if name = e.1 then (name, v) :: es
    else e :: insertEntry name v es

theorem mem_insertEntry {name : String} {v : Literal} {es : List (String × Literal)}
    {e : String × Literal} (h : e ∈ insertEntry name v es) : e = (name, v) ∨ e ∈ es := by
  induction es with
  | nil => simpa [insertEntry] using h
  | cons d ds ih =>
    unfold insertEntry at h
    grind

theorem increasing_insertEntry (name : String) (v : Literal) {es : List (String × Literal)}
    (h : Increasing es) : Increasing (insertEntry name v es) := by
  induction es with
  | nil => simp [insertEntry, Increasing]
  | cons d ds ih =>
    obtain ⟨hd, hds⟩ := List.pairwise_cons.1 h
    unfold insertEntry
    by_cases h₁ : name < d.1
    · rw [if_pos h₁]
      refine List.pairwise_cons.2 ⟨fun e he => ?_, h⟩
      rcases List.mem_cons.1 he with rfl | he
      · exact h₁
      · exact String.lt_trans h₁ (hd e he)
    · rw [if_neg h₁]
      by_cases h₂ : name = d.1
      · rw [if_pos h₂]
        exact List.pairwise_cons.2 ⟨fun e he => h₂ ▸ hd e he, hds⟩
      · rw [if_neg h₂]
        refine List.pairwise_cons.2 ⟨fun e he => ?_, ih hds⟩
        rcases mem_insertEntry he with rfl | he
        · exact String.not_le.1 fun hle => h₂ (String.le_antisymm hle (String.not_lt.1 h₁))
        · exact hd e he

/-- The named values of an argument list. -/
structure Arguments where
  entries : List (String × Literal)
  sorted : Increasing entries
  deriving DecidableEq

namespace Arguments

def empty : Arguments := ⟨[], List.Pairwise.nil⟩

instance : Inhabited Arguments := ⟨empty⟩

/-- One more argument; an earlier value of the name is forgotten. -/
def insert (args : Arguments) (name : String) (v : Literal) : Arguments :=
  ⟨insertEntry name v args.entries, increasing_insertEntry name v args.sorted⟩

/-- The arguments written in a list, the last value of each name. -/
def ofList (written : List (String × Literal)) : Arguments :=
  written.foldl (fun args (name, v) => args.insert name v) empty

def get? (args : Arguments) (name : String) : Option Literal := args.entries.lookup name

def names (args : Arguments) : List String := args.entries.map (·.1)

theorem lookup_cons (name : String) (e : String × Literal) (es : List (String × Literal)) :
    (e :: es).lookup name = if name = e.1 then some e.2 else es.lookup name := by
  obtain ⟨k, v⟩ := e
  by_cases h : name = k
  · simp [h]
  · simp [List.lookup_cons, h, beq_eq_false_iff_ne.2 h]

theorem lookup_insertEntry (name other : String) (v : Literal) (es : List (String × Literal)) :
    (insertEntry name v es).lookup other = if other = name then some v else es.lookup other := by
  induction es with
  | nil => simp [insertEntry, lookup_cons]
  | cons d ds ih =>
    unfold insertEntry
    grind [lookup_cons]

/-- An insertion changes the value of its own name only. -/
theorem get?_insert (args : Arguments) (name other : String) (v : Literal) :
    (args.insert name v).get? other = if other = name then some v else args.get? other :=
  lookup_insertEntry name other v args.entries

example : (ofList [("b", .number 1), ("a", .text "x"), ("b", .number 2)]).entries =
    [("a", .text "x"), ("b", .number 2)] := by decide

end Arguments

end Folio
