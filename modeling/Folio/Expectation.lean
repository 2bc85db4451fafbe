import Folio.Model
import Folio.Text.Quoted

/-!
# Expectations

What a test expects of a model, and what it says where the model differs. A comparison that fails
shows what was found on the left and what was expected on the right.
-/

namespace Folio

inductive TitleExpectation where
  | text (s : String)
  | level (n : UInt32)
  | style (name : String)
  deriving DecidableEq, Repr

inductive SectionExpectation where
  | style (name : String)
  | content (runs : List Run)
  deriving DecidableEq, Repr

inductive Expectation where
  | styleNames (names : List String)
  | itemCount (n : Nat)
  | pageNumberPosition (p : PagePosition)
  | pageNumberFont (font : String)
  | numberingStart (level : Option UInt32)
  | errorCodes (codes : List Diagnostic.Code)
  | warningCodes (codes : List Diagnostic.Code)
  /-- The message of some error contains the fragment. -/
  | errorContaining (fragment : String)
  /-- The item of an index is a title, and meets an expectation. -/
  | title (index : Nat) (e : TitleExpectation)
  /-- The item of an index is a section, and meets an expectation. -/
  | body (index : Nat) (e : SectionExpectation)
  deriving DecidableEq, Repr

/-! ## Showing values -/

/-- Words joined by hyphens as one word, each word with a capital letter. -/
def capitalWords (name : String) : String :=
  let rec go : (capital : Bool) → List Char → List Char
    | _, [] => []
    | capital, c :: cs =>
      if c = '-' then go true cs else (if capital then c.toUpper else c) :: go false cs
  String.ofList (go true name.toList)

def showList {α : Type} (f : α → String) (xs : List α) : String :=
  "[" ++ ", ".intercalate (xs.map f) ++ "]"

def showOption {α : Type} (f : α → String) : Option α → String
  | none => "None"
  | some x => "Some(" ++ f x ++ ")"

def showWord (n : UInt32) : String := toString n.toNat

def showRun (r : Run) : String := capitalWords r.kindName ++ "(" ++ Text.quoted r.text ++ ")"

/-! ## Failures -/

/-- How a model fails an expectation. -/
inductive Mismatch where
  | different (subject found expected : String)
  | noErrorContaining (fragment : String) (errors : List Diagnostic)
  | noItem (index count : Nat)
  | sectionForTitle (index : Nat) (found : Section)
  | titleForSection (index : Nat) (found : Title)
  deriving DecidableEq, Repr

/-- An item named by its index. -/
def itemName (index : Nat) : String := "content[" ++ toString index ++ "]"

def showDiagnostics (ds : List Diagnostic) : String :=
  "[" ++ "; ".intercalate (ds.map (·.display)) ++ "]"

def Mismatch.message : Mismatch → String
  | different subject found expected =>
    "assertion \x60left == right\x60 failed: " ++ subject ++ "\n  left: " ++ found ++
      "\n right: " ++ expected
  | noErrorContaining fragment errors =>
    "No error contains '" ++ fragment ++ "': " ++ showDiagnostics errors
  | noItem index count =>
    "Item index " ++ toString index ++ " out of bounds (model has " ++ toString count ++
      " items)"
  | sectionForTitle index found =>
    itemName index ++ ": Expected Title, found Section with style '" ++ found.style ++ "'"
  | titleForSection index found =>
    itemName index ++ ": Expected Section, found Title '" ++ found.text ++ "'"

/-- The mismatch of two values, if they differ. -/
def compare? {α : Type} [DecidableEq α] (subject : String) (f : α → String)
    (found expected : α) : Option Mismatch :=
  if found = expected then none else some (.different subject (f found) (f expected))

theorem compare?_eq_none_iff {α : Type} [DecidableEq α] {subject : String} {f : α → String}
    {found expected : α} : compare? subject f found expected = none ↔ found = expected := by
  unfold compare?
  by_cases h : found = expected <;> simp [h]

/-- An item in a few words. -/
def Item.brief : Item → String
  | title t => "Title(" ++ Text.quoted t.text ++ ")"
  | body s => "Section(" ++ s.style ++ ", " ++ toString s.content.length ++ " runs)"

/-- The text holds the fragment somewhere. -/
def holds (fragment : List Char) : List Char → Bool
  | [] => fragment.isEmpty
  | c :: cs => fragment.isPrefixOf (c :: cs) || holds fragment cs

namespace Title

def mismatch? (index : Nat) (t : Title) : TitleExpectation → Option Mismatch
  | .text s => compare? (itemName index ++ ": title text mismatch") Text.quoted t.text s
  | .level n => compare? (itemName index ++ ": title level mismatch") showWord t.level n
  | .style name => compare? (itemName index ++ ": title style mismatch") Text.quoted t.style name

end Title

namespace Section

def mismatch? (index : Nat) (s : Section) : SectionExpectation → Option Mismatch
  | .style name =>
    compare? (itemName index ++ ": section style mismatch") Text.quoted s.style name
  | .content runs =>
    compare? (itemName index ++ ": section content mismatch") (showList showRun) s.content runs

end Section

namespace Model

def compareCodes? (subject : String) (found : List Diagnostic)
    (expected : List Diagnostic.Code) : Option Mismatch :=
  compare? (subject ++ " codes mismatch: " ++ showDiagnostics found)
    (showList fun c => capitalWords c.name) (found.map (·.code)) expected

/-- How the model fails an expectation, if it does. -/
def mismatch? (m : Model) : Expectation → Option Mismatch
  | .styleNames names =>
    compare? "Style registry mismatch" (showList Text.quoted) (m.styles.map (·.name)) names
  | .itemCount n =>
    compare? ("Expected " ++ toString n ++ " items, found " ++ toString m.content.length ++
      " items: " ++ showList Item.brief m.content) toString m.content.length n
  | .pageNumberPosition p =>
    compare? "Page number position mismatch" (fun p => capitalWords p.name)
      m.pageNumber.position p
  | .pageNumberFont font =>
    compare? "Page number font mismatch" Text.quoted m.pageNumber.font font
  | .numberingStart level =>
    compare? "Title numbering mismatch" (showOption showWord) m.numberingStart level
  | .errorCodes codes => compareCodes? "Error" m.diagnostics.errors codes
  | .warningCodes codes => compareCodes? "Warning" m.diagnostics.warnings codes
  | .errorContaining fragment =>
    if m.diagnostics.errors.any fun d => holds fragment.toList d.message.toList then none
    else some (.noErrorContaining fragment m.diagnostics.errors)
  | .title index e =>
    match m.content[index]? with
    | none => some (.noItem index m.content.length)
    | some (.title t) => t.mismatch? index e
    | some (.body s) => some (.sectionForTitle index s)
  | .body index e =>
    match m.content[index]? with
    | none => some (.noItem index m.content.length)
    | some (.title t) => some (.titleForSection index t)
    | some (.body s) => s.mismatch? index e

end Model

example : capitalWords "unknown-style" = "UnknownStyle" := by decide
example : holds "bc".toList "abcd".toList ∧ ¬ holds "bd".toList "abcd".toList := by decide

end Folio
