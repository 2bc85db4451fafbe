import Folio.CommandLine.Usage
import Folio.Rendition
import Folio.Settings.Layer
import Folio.Text.Utf8

/-!
# The command

A run reads its options, its settings and then its document, prints one stage of the document and
reports what there is to say about it. Files come from a function that reads them, in any monad,
so that a run says everything about the command but where its files are.

Tokens are printed without reading further, so that a document with a syntax error can still be
looked at.
-/

namespace Folio.CommandLine

/-- Why a file cannot be read. -/
inductive FileError where
  | notFound
  | isDirectory
  | notDirectory
  | nameTooLong
  | other (reason : String)
  deriving DecidableEq, Repr

def FileError.message : FileError → String
  | notFound => "No such file or directory (os error 2)"
  | isDirectory => "Is a directory (os error 21)"
  | notDirectory => "Not a directory (os error 20)"
  | nameTooLong => "File name too long (os error 36)"
  | other reason => reason

/-- What a run leaves behind. -/
structure Outcome where
  exit : Nat
  stdout : String
  stderr : String
  deriving DecidableEq, Repr

namespace Outcome

/-- A run that ends with a message. -/
def failed (message : String) : Outcome := ⟨1, "", message ++ "\n"⟩

def ofStop : Stop → Outcome
  | .help => ⟨0, helpText, ""⟩
  | .version => ⟨0, versionText, ""⟩
  | .nothing => ⟨2, "", helpText⟩
  | .refused r => ⟨2, "", r.message⟩

end Outcome

/-- The output of a run on a source, or the report in front of a message. -/
def output (rendition : Rendition) (settings : Settings) (source : String) : Outcome :=
  if rendition.stage = .tokens then
    let scan := Scan.ofSource source
    match rendition.ofTokens scan.tokens with
    | .error e => .failed e.message
    | .ok text => ⟨0, text, report scan.illegal .empty⟩
  else
    match Compilation.ofSource settings source with
    | .error e => ⟨1, "", report e.illegal .empty ++ e.message ++ "\n"⟩
    | .ok c =>
      match rendition.ofCompilation c with
      | .error e => .failed e.message
      | .ok text => ⟨0, text, c.report⟩

/-- The rendition that the options ask for. -/
def Options.rendition (o : Options) : Except RenditionError Rendition := do
  Rendition.checked ⟨← Stage.ofName o.stage, ← Format.ofName o.format⟩

/-- A step of a name that stays where it is. -/
def isIdle (step : String) : Bool := step = "" || step = "."

/-- A name without the steps that stay where they are. -/
def plainName (name : String) : String :=
  let steps := (name.splitOn "/").filter fun s => !isIdle s
  (if name.startsWith "/" then "/" else "") ++ "/".intercalate steps

/-- The name with the ending of a file of settings behind its last step that is not idle; a step
up takes no ending. -/
def withEnding? (name : String) : Option String :=
  match (name.splitOn "/").reverse.dropWhile isIdle with
  | [] | ".." :: _ => none
  | step :: steps => some ("/".intercalate (steps.reverse ++ [step ++ ".toml"]))

/-- The text of a file of settings. -/
def settingsText (bytes : List UInt8) : Except FileDefect String :=
  match Text.ofUtf8? bytes with
  | some text => .ok text
  | none => .error .undecodable

variable {m : Type → Type} [Monad m]

/-- Read the first file there is of some names. -/
def readFirst (read : String → m (Except FileError (List UInt8))) :
    List String → m (Option (String × List UInt8))
  | [] => return none
  | name :: names => do
    match ← read name with
    | .ok bytes => return some (name, bytes)
    | .error _ => readFirst read names

/-- Read a file of settings; if there is none of this name, the ending may have been left out. -/
def readSettings (read : String → m (Except FileError (List UInt8))) (name : String) :
    m (String × Except FileDefect String) := do
  match ← readFirst read (name :: (withEnding? name).toList) with
  | some (found, bytes) => return (plainName found, settingsText bytes)
  | none => return (name, .error .missing)

/-- The layers that the options ask for. -/
def layers (read : String → m (Except FileError (List UInt8))) :
    Option String → m (List Layer)
  | none => return []
  | some name => do
    let (found, text) ← readSettings read name
    return [.file found text]

/-- The outcome of a document once its settings are there. -/
def runOn (rendition : Rendition) (settings : Settings) (path : String) :
    Except FileError (List UInt8) → Outcome
  | .error e => .failed ("Error reading file '" ++ path ++ "': " ++ e.message)
  | .ok bytes =>
    match Text.ofUtf8? bytes with
    | none =>
      .failed ("Error reading file '" ++ path ++ "': stream did not contain valid UTF-8")
    | some source => output rendition settings source

/-- The outcome of a command line. -/
def run (read : String → m (Except FileError (List UInt8))) (args : List String) :
    m Outcome := do
  match Options.ofArguments args with
  | .error stop => return .ofStop stop
  | .ok options =>
    match options.rendition with
    | .error e => return .failed e.message
    | .ok rendition =>
      match Settings.ofLayers (← layers read options.config) with
      | .error e => return .failed e.message
      | .ok settings => return runOn rendition settings options.path (← read options.path)

end Folio.CommandLine
