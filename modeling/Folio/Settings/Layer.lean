import Folio.Settings.Check
import Folio.Settings.Decode
import Folio.Settings.Merge
import Folio.Settings.Standard
import Folio.Toml

/-!
# Layers of settings

Settings are built from layers upon the standard ones: files, of which later ones win over
earlier ones, and overrides of single keys, which win over every file. Of two overrides of one
key the later one counts. The tree that results is given its type and checked.
-/

namespace Folio

/-- Why a file has no text. -/
inductive FileDefect where
  | missing
  /-- The bytes are no UTF-8. -/
  | undecodable
  deriving DecidableEq, Repr

def FileDefect.message (name : String) : FileDefect → String
  | missing => "configuration file \"" ++ name ++ "\" not found"
  | undecodable => "stream did not contain valid UTF-8"

inductive Layer where
  | override (key : String) (v : Value)
  /-- A file with its text. -/
  | file (name : String) (text : Except FileDefect String)
  /-- A file that is passed over if it has no text. -/
  | optionalFile (name : String) (text : Except FileDefect String)

/-- Why layers make no settings. -/
inductive SettingsError where
  | badKey (d : KeyPath.Defect)
  | unreadableFile (name : String) (d : FileDefect)
  | malformedFile (name : String)
  | misfit (m : Misfit)
  | flaw (f : Flaw)
  deriving DecidableEq, Repr

namespace SettingsError

def cause : SettingsError → String
  | badKey d => d.message
  | unreadableFile name d => d.message name
  | malformedFile name => "no TOML document in " ++ name
  | misfit m => m.message
  | flaw f => f.message

def message (e : SettingsError) : String := "Configuration error: " ++ e.cause

end SettingsError

namespace Layer

/-- The overrides among the layers, each key with its last value. -/
def overrides : List Layer → Except SettingsError (List (KeyPath × Value)) :=
  List.foldlM (fun found layer =>
    match layer with
    | override key v =>
      match KeyPath.read key with
      | .error d => .error (.badKey d)
      | .ok path =>
        if found.any (·.1 = path) then
          .ok (found.map fun o => if o.1 = path then (path, v) else o)
        else .ok (found ++ [(path, v)])
    | file _ _ | optionalFile _ _ => .ok found) []

/-- The tree with the text of a file on top. -/
def readFile (root : Value) (name text : String) : Except SettingsError Value :=
  match Toml.read? (some name) text with
  | none => .error (.malformedFile name)
  | some fields => .ok (root.layered fields)

/-- The tree with a layer on top, if it is a file. -/
def addFile (root : Value) : Layer → Except SettingsError Value
  | override _ _ | optionalFile _ (.error _) => .ok root
  | file name (.error d) => .error (.unreadableFile name d)
  | file name (.ok text) | optionalFile name (.ok text) => readFile root name text

/-- The tree that the layers make. -/
def tree (layers : List Layer) : Except SettingsError Value := do
  let overrides ← overrides layers
  let root ← layers.foldlM addFile Settings.standard.value
  return overrides.foldl (fun root (path, v) => root.putAt path v) root

end Layer

/-- Settings from a tree, if they make sense. -/
def Settings.ofTree (v : Value) : Except SettingsError Settings :=
  match Settings.decode v with
  | .error m => .error (.misfit m)
  | .ok s =>
    match s.flaw? with
    | some f => .error (.flaw f)
    | none => .ok s

/-- The settings that the layers make. -/
def Settings.ofLayers (layers : List Layer) : Except SettingsError Settings := do
  Settings.ofTree (← Layer.tree layers)

/-- Settings are only accepted if they break no rule. -/
theorem Settings.flaws_of_ofLayers {layers : List Layer} {s : Settings}
    (h : Settings.ofLayers layers = .ok s) : s.flaws = [] := by
  unfold Settings.ofLayers at h
  cases ht : Layer.tree layers with
  | error e => simp [ht, bind, Except.bind] at h
  | ok v =>
    simp only [ht, bind, Except.bind, Settings.ofTree] at h
    cases hd : Settings.decode v with
    | error m => simp [hd] at h
    | ok t =>
      simp only [hd] at h
      cases hf : t.flaw? with
      | some f => simp [hf] at h
      | none =>
        simp only [hf, Except.ok.injEq] at h
        subst h
        exact List.head?_eq_none_iff.1 hf

end Folio
