import Folio.Model

/-!
# Summaries

A model for a reader to look over: its styles, its page numbers and its items, each on a line of
its own. Emphasis is marked by a character on both sides.
-/

namespace Folio

/-- A font with its size and colour. -/
def fontSummary (font : String) (size : UInt32) (color : String) : String :=
  font ++ " " ++ toString size.toNat ++ "pt " ++ color

def Style.summary (s : Style) : String :=
  "  " ++ s.name ++ ": " ++ fontSummary s.font s.fontSize s.fontColor ++
    (if s.builtin then " (built-in)" else "") ++ "\n"

def PageNumber.summary (n : PageNumber) : String :=
  "page numbers: " ++ n.position.name ++ " from page " ++ toString n.start.toNat ++ ", " ++
    fontSummary n.font n.fontSize n.fontColor ++ "\n"

/-- Say from which level on titles are numbered, if they are. -/
def numberingSummary : Option UInt32 → String
  | none => ""
  | some level => "title numbering: from level " ++ toString level.toNat ++ "\n"

/-- The character on both sides of an emphasis. -/
def EmphasisKind.mark : EmphasisKind → String
  | bold => "*"
  | italic => "/"
  | underlined => "_"

def Run.summary (r : Run) : String :=
  match r.emphasis with
  | none => r.text
  | some kind => kind.mark ++ r.text ++ kind.mark

def Item.summary : Item → String
  | title t =>
    "  title [" ++ t.style ++ "] level " ++ toString t.level.toNat ++ ": " ++ t.text ++ "\n"
  | body s =>
    "  section [" ++ s.style ++ "]: " ++ String.join (s.content.map Run.summary) ++ "\n"

def Model.summary (m : Model) : String :=
  "styles:\n" ++ String.join (m.styles.map Style.summary) ++ m.pageNumber.summary ++
    numberingSummary m.numberingStart ++ "content:\n" ++
    String.join (m.content.map Item.summary)

end Folio
