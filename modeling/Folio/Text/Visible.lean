/-!
# Visible text

What is left of a text behind a filter for terminals: escape sequences are taken out, and so are
all controls but white space. A sequence begins with the escape character and is

- a single character, perhaps behind intermediate ones,
- a control sequence, behind `[`, up to a letter or sign from `@` to `~`,
- a title or the like, behind `]`, up to a bell,
- a device string, behind `P`, or another string, behind `X`, `^` or `_`, which nothing visible
  ends.

The escape character, cancel and substitute end any sequence. White space inside a sequence (but
not inside a string) is shown, and so is what follows it, up to the next control; then the
sequence goes on.
-/

namespace Folio.Text

/-- Where in a sequence a text stands. -/
inductive Sequence where
  | none
  | escape
  | intermediate
  | control
  | title
  | deviceStart
  | deviceParameter
  | deviceIntermediate
  | string
  deriving DecidableEq, Repr

/-- White space among the controls, and the space. -/
def isAsciiBlank (c : Char) : Bool :=
  c == ' ' || c == '\t' || c == '\n' || c == '\x0c' || c == '\r'

namespace Sequence

/-- Behind the character after the escape character. -/
def opened (c : Char) : Sequence :=
  if c < '0' then intermediate
  else if c = '[' then control
  else if c = ']' then title
  else if c = 'P' then deviceStart
  else if c = 'X' || c = '^' || c = '_' then string
  else none

/-- Behind a printable ASCII character. -/
def behindPrintable (c : Char) : Sequence → Sequence
  | none => none
  | escape => opened c
  | intermediate => if c < '0' then intermediate else none
  | control => if c < '@' then control else none
  | title => title
  | deviceStart =>
    if c < '0' then deviceIntermediate else if c < '@' then deviceParameter else string
  | deviceParameter =>
    if c < '0' then deviceIntermediate else if c < '<' then deviceParameter else string
  | deviceIntermediate => if c < '0' then deviceIntermediate else string
  | string => string

/-- Behind a character that is not ASCII. One whose bytes hold the end mark of 8-bit terminals
ends a string. -/
def behindWide (c : Char) : Sequence → Sequence
  | string => if (String.utf8EncodeChar c).contains 0x9C then none else string
  | s => s

/-- Behind a character that is not shown. -/
def behind (c : Char) (s : Sequence) : Sequence :=
  if c = '\x1b' then escape
  else if c = '\x18' || c = '\x1a' then none
  else if c = '\x07' && s = title then none
  else if c < ' ' || c = '\x7f' then s
  else if c.toNat < 0x80 then s.behindPrintable c
  else s.behindWide c

/-- White space is shown. -/
def showsBlanks : Sequence → Bool
  | none | escape | intermediate | control => true
  | title | deviceStart | deviceParameter | deviceIntermediate | string => false

/-- The character is shown where a sequence is being read. -/
def shows (c : Char) (s : Sequence) : Bool :=
  if c < ' ' then isAsciiBlank c && s.showsBlanks else s = none && c != '\x7f'

end Sequence

/-- The visible characters behind a place in a sequence. In a run of shown characters only
controls are hidden, and the place stays as it is until a character beyond ASCII ends the
sequence. -/
def visibleFrom (s : Sequence) (running : Bool) : List Char → List Char
  | [] => []
  | c :: cs =>
    if s.shows c || running && Sequence.none.shows c then
      c :: visibleFrom (if c.toNat < 0x80 then s else .none) true cs
    else visibleFrom (s.behind c) false cs

/-- The visible part of a text. -/
def visible (s : String) : String := String.ofList (visibleFrom .none false s.toList)

theorem visibleFrom_none_of_shown {cs : List Char} {running : Bool}
    (h : ∀ c ∈ cs, Sequence.none.shows c) : visibleFrom .none running cs = cs := by
  induction cs generalizing running with
  | nil => rfl
  | cons c cs ih =>
    rw [visibleFrom, if_pos (by simp [h c List.mem_cons_self])]
    simp [ih fun d hd => h d (List.mem_cons_of_mem _ hd)]

/-- A text without controls is wholly visible. -/
theorem visible_of_shown {s : String} (h : ∀ c ∈ s.toList, Sequence.none.shows c) :
    visible s = s := by
  rw [visible, visibleFrom_none_of_shown h, String.ofList_toList]

example : visible "\x1b[38;5;1mast\x1b]0;t\x07 y\x08\n" = "ast y\n" := by decide +kernel
example : visible "\x1bM\x1b(Bz\x1b" = "z" := by decide +kernel
example : visible "\x1b[\nab\x0731mc" = "\nabc" := by decide +kernel

end Folio.Text
