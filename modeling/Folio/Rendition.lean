import Folio.Compilation
import Folio.Data.Encode
import Folio.Data.Json
import Folio.Data.Yaml
import Folio.Echo
import Folio.Summary

/-!
# Renditions

A rendition is a stage of compilation with the format it is shown in. Every stage has a data
format and a simple one; only a model can be echoed.
-/

namespace Folio

inductive Stage where
  | tokens
  | instructions
  | model
  deriving DecidableEq, Repr

inductive Format where
  | json
  | yaml
  | echo
  | simple
  deriving DecidableEq, Repr

def Stage.name : Stage → String
  | tokens => "tokens"
  | instructions => "ast"
  | model => "model"

def Format.name : Format → String
  | json => "json"
  | yaml => "yaml"
  | echo => "echo"
  | simple => "simple"

def Stage.all : List Stage := [tokens, instructions, model]

def Format.all : List Format := [json, yaml, echo, simple]

structure Rendition where
  stage : Stage
  format : Format
  deriving DecidableEq, Repr

/-- Why there is no rendition. -/
inductive RenditionError where
  | unknownStage (name : String)
  | unknownFormat (name : String)
  | unsupported (r : Rendition)
  deriving DecidableEq, Repr

def RenditionError.message : RenditionError → String
  | unknownStage name => "Invalid stage: " ++ name
  | unknownFormat name => "Invalid format: " ++ name
  | unsupported r =>
    "Format '" ++ r.format.name ++ "' is not supported for the " ++ r.stage.name ++ " stage"

def Stage.ofName (name : String) : Except RenditionError Stage :=
  match all.find? (·.name == name) with
  | some stage => .ok stage
  | none => .error (.unknownStage name)

def Format.ofName (name : String) : Except RenditionError Format :=
  match all.find? (·.name == name) with
  | some format => .ok format
  | none => .error (.unknownFormat name)

namespace Rendition

/-- The rendition if its stage can be shown in its format. -/
def checked (r : Rendition) : Except RenditionError Rendition :=
  match r.stage, r.format with
  | .tokens, .echo | .instructions, .echo => .error (.unsupported r)
  | _, _ => .ok r

/-- Tokens in the format asked for; a source with a syntax error has tokens too. -/
def ofTokens (r : Rendition) (tokens : List Token) : Except RenditionError String :=
  match r.stage, r.format with
  | .tokens, .simple => .ok (Token.listing tokens)
  | .tokens, .json => .ok (Data.list (tokens.map Token.data)).json
  | .tokens, .yaml => .ok (Data.list (tokens.map Token.data)).yaml
  | _, _ => .error (.unsupported r)

/-- Instructions in the format asked for. -/
def ofInstructions (r : Rendition) (is : List Instruction) : Except RenditionError String :=
  match r.format with
  | .simple => .ok (Instruction.outline is)
  | .json => .ok (Data.list (is.map Instruction.data)).json
  | .yaml => .ok (Data.list (is.map Instruction.data)).yaml
  | .echo => .error (.unsupported r)

end Rendition

/-- A model in a format. -/
def Model.rendered (m : Model) : Format → String
  | .simple => m.summary
  | .json => m.data.json
  | .yaml => m.data.yaml
  | .echo => m.echo

/-- The stage of a compilation in the format asked for. -/
def Rendition.ofCompilation (r : Rendition) (c : Compilation) : Except RenditionError String :=
  match r.stage with
  | .tokens => r.ofTokens c.scan.tokens
  | .instructions => r.ofInstructions c.instructions
  | .model => .ok (c.model.rendered r.format)

/-- A rendition is checked exactly if no compilation fails to render in it. -/
theorem Rendition.ofCompilation_isOk (r : Rendition) (c : Compilation) :
    (∃ s, r.ofCompilation c = .ok s) ↔ r.checked = .ok r := by
  obtain ⟨stage, format⟩ := r
  cases stage <;> cases format <;>
    simp [ofCompilation, ofTokens, ofInstructions, checked]

end Folio
