import Folio.Instruction.Reader

/-!
# Parser combinators

Parsers that go back: where one fails, another is tried from the same place.

**Errors** (`Located`). An error has the place where it occurred, the token found there and the
label of what was being read. Of two errors the further one counts, and at one place they merge
(`Located.furthest`). A label is set once, by the innermost parser that has one.

**Replies** (`Reply`). A parser that succeeds also tells the furthest error of what it tried and
gave up (`Reply.alternative`). If what comes next fails in front of that error, or at its place, the
error was worth keeping: it tells how far a longer reading has come.
-/

namespace Folio

/-! ## Errors -/

inductive Label where
  | none
  | known (context : Context)
  /-- Errors with different labels have merged. -/
  | several
  deriving DecidableEq, Repr

namespace Label

def merge : Label → Label → Label
  | none, l | l, none => l
  | several, _ | _, several => several
  | known c, known d => if c = d then known c else several

@[simp] theorem none_merge (l : Label) : none.merge l = l := by
  cases l <;> rfl

@[simp] theorem merge_none (l : Label) : l.merge none = l := by
  cases l <;> rfl

/-- The label, or else the given one. -/
def withDefault : Label → Context → Label
  | known c, _ => known c
  | none, c | several, c => known c

def context? : Label → Option Context
  | known c => some c
  | none | several => Option.none

end Label

structure Located where
  /-- The number of tokens in front. -/
  offset : Nat
  /-- The token there, or none at the end of the input. -/
  found : Option Token
  label : Label
  deriving DecidableEq, Repr

namespace Located

/-- The further of two errors. -/
def furthest (e f : Located) : Located :=
  if f.offset < e.offset then e
  else if e.offset < f.offset then f
  else { e with label := e.label.merge f.label }

def labelled (c : Context) (e : Located) : Located := { e with label := e.label.withDefault c }

/-- The further of an error and one that was given up. -/
def orAlternative (e : Located) : Option Located → Located
  | none => e
  | some f => e.furthest f

/-- The further of two errors that were given up. -/
def mergeAlternatives : Option Located → Option Located → Option Located
  | none, alternative => alternative
  | some e, none => some e
  | some e, some f => some (f.furthest e)

end Located

open Located (mergeAlternatives)

/-! ## Parsers -/

structure Input where
  /-- The number of tokens passed. -/
  offset : Nat
  rest : List Token
  deriving DecidableEq, Repr

/-- The error of a parser that cannot use the next token. -/
def Input.miss (s : Input) : Located := ⟨s.offset, s.rest.head?, .none⟩

structure Reply (α : Type) where
  value : α
  input : Input
  /-- The furthest error of what was given up. -/
  alternative : Option Located
  deriving DecidableEq, Repr

/-- What comes of a parser. -/
abbrev Attempt (α : Type) := Except Located (Reply α)

abbrev Parser (α : Type) := Input → Attempt α

variable {α β : Type}

namespace Attempt

def map (f : α → β) : Attempt α → Attempt β
  | .error e => .error e
  | .ok reply => .ok ⟨f reply.value, reply.input, reply.alternative⟩

def labelled (c : Context) : Attempt α → Attempt α
  | .error e => .error (e.labelled c)
  | .ok reply => .ok { reply with alternative := reply.alternative.map (Located.labelled c) }

/-- Go on with another parser. -/
def andThen (a : Attempt α) (q : Parser β) : Attempt (α × β) :=
  match a with
  | .error e => .error e
  | .ok reply =>
    match q reply.input with
    | .error e => .error (e.orAlternative reply.alternative)
    | .ok more =>
      .ok ⟨(reply.value, more.value), more.input,
        mergeAlternatives reply.alternative more.alternative⟩

def ignoreThen (a : Attempt α) (q : Parser β) : Attempt β := (a.andThen q).map Prod.snd

def thenIgnore (a : Attempt α) (q : Parser β) : Attempt α := (a.andThen q).map Prod.fst

end Attempt

namespace Parser

/-- One token, where the function gives a value for it. -/
def filterMap (f : Token → Option α) : Parser α := fun s =>
  match s.rest with
  | [] => .error s.miss
  | t :: ts =>
    match f t with
    | none => .error s.miss
    | some v => .ok ⟨v, ⟨s.offset + 1, ts⟩, none⟩

/-- One token of the kind. -/
def kind (k : Kind) : Parser Token := filterMap fun t => if t.kind = k then some t else none

def endOfInput : Parser Unit := fun s =>
  match s.rest with
  | [] => .ok ⟨(), s, none⟩
  | _ :: _ => .error s.miss

def map (p : Parser α) (f : α → β) : Parser β := fun s => (p s).map f

def labelled (p : Parser α) (c : Context) : Parser α := fun s => (p s).labelled c

def andThen (p : Parser α) (q : Parser β) : Parser (α × β) := fun s => (p s).andThen q

def ignoreThen (p : Parser α) (q : Parser β) : Parser β := fun s => (p s).ignoreThen q

def thenIgnore (p : Parser α) (q : Parser β) : Parser α := fun s => (p s).thenIgnore q

def delimitedBy (p : Parser α) (first last : Parser β) : Parser α :=
  (first.ignoreThen p).thenIgnore last

def orNot (p : Parser α) : Parser (Option α) := fun s =>
  match p s with
  | .error e => .ok ⟨none, s, some e⟩
  | .ok reply => .ok ⟨some reply.value, reply.input, reply.alternative⟩

/-- The first parser, or else the second. -/
def or (p q : Parser α) : Parser α := fun s =>
  match p s with
  | .ok reply => .ok reply
  | .error e =>
    match q s with
    | .error f => .error (e.furthest f)
    | .ok reply =>
      .ok { reply with alternative := mergeAlternatives reply.alternative (some e) }

/-- The first parser that succeeds, where the ones in front have failed so far. -/
def choiceFrom (alternative : Option Located) : List (Parser α) → Parser α
  | [], s => .error (alternative.getD s.miss)
  | p :: ps, s =>
    match p s with
    | .ok reply => .ok reply
    | .error e => choiceFrom (mergeAlternatives alternative (some e)) ps s

def choice (ps : List (Parser α)) : Parser α := choiceFrom none ps

/-- As many in a row as there are, `least` at the least. It stops where an item passes no token. -/
def repeatedFrom (p : Parser α) (least : Nat) (s : Input) (alternative : Option Located) :
    Attempt (List α) :=
  match p s with
  | .error e =>
    if least = 0 then .ok ⟨[], s, mergeAlternatives alternative (some e)⟩
    else .error (e.orAlternative alternative)
  | .ok reply =>
    let alternative := mergeAlternatives alternative reply.alternative
    if reply.input.rest.length < s.rest.length then
      (repeatedFrom p (least - 1) reply.input alternative).map (reply.value :: ·)
    else .ok ⟨[reply.value], reply.input, alternative⟩
  termination_by s.rest.length

def repeated (p : Parser α) (least : Nat) : Parser (List α) := fun s => repeatedFrom p least s none

/-- More items behind one, each with a separator in front. A separator without an item is left. -/
def separatedFrom (p : Parser α) (separator : Parser β) (s : Input) (alternative : Option Located) :
    Attempt (List α) :=
  match separator s with
  | .error e => .ok ⟨[], s, mergeAlternatives alternative (some e)⟩
  | .ok passed =>
    let alternative := mergeAlternatives alternative passed.alternative
    match p passed.input with
    | .error e => .ok ⟨[], s, mergeAlternatives alternative (some e)⟩
    | .ok reply =>
      let alternative := mergeAlternatives alternative reply.alternative
      if reply.input.rest.length < s.rest.length then
        (separatedFrom p separator reply.input alternative).map (reply.value :: ·)
      else .ok ⟨[reply.value], reply.input, alternative⟩
  termination_by s.rest.length

def separatedBy (p : Parser α) (separator : Parser β) : Parser (List α) := fun s =>
  match p s with
  | .error e => .ok ⟨[], s, some e⟩
  | .ok reply =>
    (separatedFrom p separator reply.input reply.alternative).map (reply.value :: ·)

/-- A parser in terms of itself, which it may use behind a token. -/
def recursive (f : Parser α → Parser α) (s : Input) : Attempt α :=
  f (fun behind =>
    if behind.rest.length < s.rest.length then recursive f behind
    else .error behind.miss) s
  termination_by s.rest.length

end Parser

end Folio
