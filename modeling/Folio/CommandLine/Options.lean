import Folio.Text.Similarity

/-!
# Options

The arguments of a command line are read from left to right.

**The state** (`Reading`). What has been given so far, and the option or path whose value has been
read and not yet been checked (`pending`). A pending value is checked when the next known option
or path comes, or at the end; so of two faults the first to be noticed counts, and not always
the first to be written.

Behind `--` every argument is the path.
-/

namespace Folio.CommandLine

inductive Opt where
  | stage
  | format
  | config
  deriving DecidableEq, Repr

/-- A flag that ends the reading at once. -/
inductive Flag where
  | help
  | version
  deriving DecidableEq, Repr

inductive Argument where
  | path
  | opt (o : Opt)
  | flag (f : Flag)
  deriving DecidableEq, Repr

def Opt.name : Opt → String
  | stage => "stage"
  | format => "format"
  | config => "config"

/-- The values that an option may take, if they are fixed. -/
def Opt.values : Opt → List String
  | stage => ["tokens", "ast", "model"]
  | format => ["json", "yaml", "echo", "simple"]
  | config => []

def Opt.letter : Opt → Char
  | stage => 's'
  | format => 'f'
  | config => 'c'

def Flag.name : Flag → String
  | help => "help"
  | version => "version"

def Flag.letter : Flag → Char
  | help => 'h'
  | version => 'V'

namespace Argument

/-- The arguments with a name, in the order in which they are listed. -/
def named : List Argument :=
  [opt .stage, opt .format, opt .config, flag .help, flag .version]

def name : Argument → String
  | path => "path"
  | opt o => o.name
  | flag f => f.name

def letter? : Argument → Option Char
  | path => none
  | opt o => some o.letter
  | flag f => some f.letter

/-- The argument as it is written on a command line. -/
def usage : Argument → String
  | path => "<path>"
  | opt o => "--" ++ o.name ++ " <" ++ o.name ++ ">"
  | flag f => "--" ++ f.name

def values : Argument → List String
  | opt o => o.values
  | path | flag _ => []

def ofName? (s : String) : Option Argument := named.find? (·.name == s)

def ofLetter? (c : Char) : Option Argument := named.find? (·.letter? == some c)

end Argument

/-- The options of a run. -/
structure Options where
  path : String
  stage : String
  format : String
  config : Option String
  deriving DecidableEq, Repr

/-- Why a command line is refused. -/
inductive Refusal where
  | invalidValue (a : Argument) (v : String)
  | missingValue (a : Argument)
  | repeated (a : Argument)
  /-- A value for a flag, with the arguments given before. -/
  | uselessValue (f : Flag) (v : String) (given : List Argument)
  /-- An argument that is neither known nor a path. With a hint it could be meant as a path. -/
  | unexpected (written : String) (hint : Bool)
  /-- An unknown name, with the name it resembles if any, and the arguments given before. -/
  | unknownName (name : String) (similar : Option Argument) (given : List Argument)
  | missingPath (given : List Argument)
  deriving DecidableEq, Repr

/-- Why there are no options. -/
inductive Stop where
  | help
  | version
  /-- Nothing was given. -/
  | nothing
  | refused (r : Refusal)
  deriving DecidableEq, Repr

structure Reading where
  /-- What has been checked, in the order of checking. -/
  given : List (Argument × String)
  /-- The argument to be checked next, and its value if it has been read. -/
  pending : Option (Argument × Option String)
  hasPath : Bool
  /-- The mark `--` has been read. -/
  plain : Bool
  deriving DecidableEq, Repr

namespace Reading

def start : Reading := ⟨[], none, false, false⟩

/-- The arguments checked so far. -/
def arguments (r : Reading) : List Argument := r.given.map (·.1)

/-- Check one value. A value that is refused still counts as given, and an option that is
repeated as not given. -/
def give (r : Reading) (a : Argument) (v : String) : Reading × Option Refusal :=
  if a ∈ r.arguments then
    ({ r with given := r.given.filter (·.1 ≠ a) }, some (.repeated a))
  else
    let given := { r with given := r.given ++ [(a, v)] }
    if a.values.isEmpty || a.values.contains v then (given, none)
    else if v.isEmpty then (given, some (.missingValue a))
    else (given, some (.invalidValue a v))

/-- Check the pending value. -/
def settle (r : Reading) : Reading × Option Refusal :=
  match r.pending with
  | none => (r, none)
  | some (a, none) => ({ r with pending := none }, some (.missingValue a))
  | some (a, some v) => give { r with pending := none } a v

/-- What follows only if nothing is refused. -/
def orStop (result : Reading × Option Refusal) : Except Stop Reading :=
  match result with
  | (r, none) => .ok r
  | (_, some e) => .error (.refused e)

/-- An argument that is no option. -/
def positional (r : Reading) (s : String) : Except Stop Reading :=
  if r.hasPath then .error (.refused (.unexpected s false))
  else do
    let r ← orStop r.settle
    return { r with pending := some (.path, some s), hasPath := true }

/-- A known option or flag, with any value attached to it. -/
def known (r : Reading) (a : Argument) (attached : Option String) : Except Stop Reading := do
  match a, attached with
  | .flag f, some v => .error (.refused (.uselessValue f v r.arguments))
  | .flag f, none =>
    let _ ← orStop r.settle
    .error (match f with | .help => .help | .version => .version)
  | a, some v =>
    let r ← orStop r.settle
    orStop (r.give a v)
  | a, none =>
    let r ← orStop r.settle
    return { r with pending := some (a, none) }

/-- An option or flag by its name. -/
def long (r : Reading) (cs : List Char) : Except Stop Reading :=
  let name := String.ofList (cs.takeWhile (· ≠ '='))
  let attached := match cs.dropWhile (· ≠ '=') with
    | _ :: v => some (String.ofList v)
    | [] => none
  match Argument.ofName? name with
  | some a => r.known a attached
  | none =>
    let similar := (Text.closest? name (Argument.named.map (·.name))).bind Argument.ofName?
    .error (.refused (.unknownName name similar r.settle.1.arguments))

/-- The value attached to a letter, with or without an equals sign. -/
def attachedToLetter : List Char → Option String
  | [] => none
  | '=' :: v => some (String.ofList v)
  | v => some (String.ofList v)

/-- An option or flag by its letter, and what is attached to it. A flag takes nothing, and ends
the reading in any case. -/
def short (r : Reading) (c : Char) (rest : List Char) : Except Stop Reading :=
  match Argument.ofLetter? c with
  | some (.flag f) => r.known (.flag f) none
  | some a => r.known a (attachedToLetter rest)
  | none => .error (.refused (.unexpected (String.ofList ['-', c]) true))

/-- The value of the pending option, if it waits for one. -/
def value? (r : Reading) (s : String) : Option Reading :=
  match r.pending with
  | some (a, none) => some { r with pending := some (a, some s) }
  | _ => none

/-- The state behind one more argument. -/
def step (r : Reading) (s : String) : Except Stop Reading :=
  if r.plain then r.positional s
  else
    match s.toList with
    | ['-', '-'] => .ok { r with plain := true }
    | '-' :: '-' :: cs => r.long cs
    | '-' :: c :: rest => r.short c rest
    | _ =>
      match r.value? s with
      | some r => .ok r
      | none => r.positional s

/-- The value given for an argument. -/
def get? (r : Reading) (a : Argument) : Option String := r.given.lookup a

/-- The options of a complete command line. -/
def finish (r : Reading) : Except Stop Options := do
  let r ← orStop r.settle
  if r.given.isEmpty then .error .nothing
  else
    match r.get? .path with
    | none => .error (.refused (.missingPath r.arguments))
    | some path =>
      .ok ⟨path, (r.get? (.opt .stage)).getD "model", (r.get? (.opt .format)).getD "simple",
        r.get? (.opt .config)⟩

end Reading

/-- The options of a command line, or why there are none. -/
def Options.ofArguments (args : List String) : Except Stop Options := do
  (← args.foldlM Reading.step Reading.start).finish

end Folio.CommandLine
