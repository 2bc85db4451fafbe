import Folio.CommandLine.Options
import Folio.Text.Visible

/-!
# Usage

What the command says about itself: its help, its version, and why it refuses a command line. The
usage line of a refusal names the options that were given, or stands for all of them. What was
written on the command line is shown without escape sequences and controls.
-/

namespace Folio.CommandLine

def versionText : String := "pdfy 0.1.0\n"

/-- The values of an option as the help lists them. -/
def possibleValues (o : Opt) : String :=
  "[possible values: " ++ ", ".intercalate o.values ++ "]"

def helpText : String :=
  "Compile pdfy documents and inspect each stage\n\n" ++
  "Usage: pdfy [OPTIONS] <path>\n\n" ++
  "Arguments:\n" ++
  "  <path>  Path to the pdfy file\n\n" ++
  "Options:\n" ++
  "  -s, --stage <stage>    Stage to print [default: model] " ++ possibleValues .stage ++ "\n" ++
  "  -f, --format <format>  Output format ('echo' is only available for the model stage) " ++
    "[default: simple] " ++ possibleValues .format ++ "\n" ++
  "  -c, --config <config>  TOML file layered over the built-in defaults\n" ++
  "  -h, --help             Print help\n" ++
  "  -V, --version          Print version\n"

/-- The usage line for all options. -/
def generalUsage : String := "Usage: pdfy [OPTIONS] <path>"

/-- The usage line for the arguments that were given. -/
def usageOf (given : List Argument) : String :=
  if given.isEmpty then generalUsage
  else
    let options := (given.filter (· ≠ .path)).map (·.usage ++ " ")
    "Usage: pdfy " ++ String.join options ++ "<path>"

/-- Arguments with one more, unless it is among them. -/
def including (given : List Argument) (a : Argument) : List Argument :=
  if a ∈ given then given else given ++ [a]

/-- The fixed values of an argument on a line of their own, if there are any. -/
def valuesLine : Argument → String
  | .opt o => if o.values.isEmpty then "" else "\n  " ++ possibleValues o
  | .path | .flag _ => ""

/-- The tip to write an argument behind the mark for paths. -/
def plainTip (written : String) : String :=
  "\n\n  tip: to pass '" ++ Text.visible written ++ "' as a value, use '-- " ++
    Text.visible written ++ "'"

/-- What is wrong, with any tips. -/
def Refusal.cause : Refusal → String
  | invalidValue a v =>
    "invalid value '" ++ Text.visible v ++ "' for '" ++ a.usage ++ "'" ++ valuesLine a ++
      match Text.closest? v a.values with
      | some similar => "\n\n  tip: a similar value exists: '" ++ similar ++ "'"
      | none => ""
  | missingValue a =>
    "a value is required for '" ++ a.usage ++ "' but none was supplied" ++ valuesLine a
  | repeated a => "the argument '" ++ a.usage ++ "' cannot be used multiple times"
  | uselessValue f v _ =>
    "unexpected value '" ++ Text.visible v ++ "' for '" ++ (Argument.flag f).usage ++
      "' found; no more were expected"
  | unexpected written hint =>
    "unexpected argument '" ++ Text.visible written ++ "' found" ++
      (if hint then plainTip written else "")
  | unknownName name similar _ =>
    "unexpected argument '--" ++ Text.visible name ++ "' found" ++
      match similar with
      | some a => "\n\n  tip: a similar argument exists: '--" ++ a.name ++ "'"
      | none => plainTip ("--" ++ name)
  | missingPath _ => "the following required arguments were not provided:\n  <path>"

/-- The usage line of a refusal, if it has one. -/
def Refusal.usage : Refusal → Option String
  | invalidValue _ _ | missingValue _ => none
  | repeated _ | unexpected _ _ => some generalUsage
  | uselessValue f _ given => some (usageOf (including given (.flag f)))
  | unknownName _ similar given =>
    some (usageOf (match similar with | some a => including given a | none => given))
  | missingPath given => some (usageOf (including given .path))

def Refusal.message (r : Refusal) : String :=
  let usage := match r.usage with
    | some line => "\n\n" ++ line
    | none => ""
  "error: " ++ r.cause ++ usage ++ "\n\nFor more information, try '--help'.\n"

end Folio.CommandLine
