import Folio.Model

/-!
# Echo

A model written as a document again, in a canonical form: one instruction to a line, every
argument spelled out. The built-in styles are left out, since every document has them, and so is
the numbering of titles, since their texts carry the numbers already.
-/

namespace Folio

/-- An argument with a text value. -/
def textArgument (name v : String) : String := "#" ++ name ++ "=\"" ++ v ++ "\""

/-- An argument with a number value. -/
def numberArgument (name : String) (v : UInt32) : String :=
  "#" ++ name ++ "=" ++ toString v.toNat

/-- An argument list in parentheses. -/
def argumentList (args : List String) : String := "(" ++ ", ".intercalate args ++ ")"

/-- Content in braces. -/
def braced (content : String) : String := "\x7b" ++ content ++ "\x7d"

def Style.echo (s : Style) : String :=
  "$style" ++ argumentList [textArgument "name" s.name, textArgument "font" s.font,
    numberArgument "fontSize" s.fontSize, textArgument "fontColor" s.fontColor]

def PageNumber.echo (n : PageNumber) : String :=
  "$pageNumber" ++ argumentList [textArgument "pageNumberPosition" n.position.name,
    textArgument "pageNumberFont" n.font, numberArgument "pageNumberFontSize" n.fontSize,
    textArgument "pageNumberFontColor" n.fontColor, numberArgument "pageNumberStart" n.start]

def Run.echo (r : Run) : String :=
  match r.emphasis with
  | none => r.text
  | some kind => (Keyword.emphasis kind).text ++ "()" ++ braced r.text

def Title.echo (t : Title) : String :=
  "$title" ++ argumentList [textArgument "style" t.style, numberArgument "level" t.level] ++
    braced t.text

def Section.echo (s : Section) : String :=
  "$section" ++ argumentList [textArgument "style" s.style] ++
    braced (String.join (s.content.map Run.echo))

def Item.echo : Item → String
  | title t => t.echo
  | body s => s.echo

/-- The styles that the document declares itself. -/
def Model.declaredStyles (m : Model) : List Style := m.styles.filter fun s => !s.builtin

/-- The instructions of the canonical document. -/
def Model.echoLines (m : Model) : List String :=
  m.declaredStyles.map Style.echo ++ m.pageNumber.echo :: m.content.map Item.echo

/-- The canonical document of a model. -/
def Model.echo (m : Model) : String := "\n".intercalate m.echoLines ++ "\n"

example : (Section.mk "s" [⟨none, "a "⟩, ⟨some .bold, "b"⟩]).echo =
    "$section(#style=\"s\")\x7ba $bold()\x7bb\x7d\x7d" := by decide

end Folio
