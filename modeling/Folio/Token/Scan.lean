import Folio.Token
import Folio.Text.Blank
import Folio.Text.Integer

/-!
# Scanning

**The state** (`Scanner`). The mode, the position, and the characters not yet read. In document
mode free text runs between the sigils and brackets; in arguments mode there are argument names,
strings, numbers and punctuation. An opening parenthesis leads to arguments mode and a closing
one to document mode, from either mode.

**A step** (`Scanner.next?`). Blanks are skipped. If a token begins with the next character, the
longest one is read; otherwise that one character is reported as illegal and skipped, and the
mode stays.

Each step takes a character off the text (`length_rest_lt`), so a scan ends.
-/

namespace Folio

/-! ## Modes -/

inductive Mode where
  | document
  | arguments
  deriving DecidableEq, Repr

def Mode.name : Mode → String
  | document => "document"
  | arguments => "arguments"

/-- The mode behind a token. -/
def Mode.after (m : Mode) : Kind → Mode
  | .openParen => .arguments
  | .closeParen => .document
  | _ => m

/-! ## The token at the front of a text -/

/-- The characters that end free text. -/
def endsText (c : Char) : Bool :=
  c == '$' || c == '#' || c == '(' || c == ')' || c == '\x7b' || c == '\x7d'

/-- A character of an argument name behind the first. -/
def isNameChar (c : Char) : Bool := c.isAlphanum || c == '_'

/-- The bracket that a character is, in either mode. -/
def bracket? (c : Char) : Option Kind :=
  if c = '(' then some .openParen
  else if c = ')' then some .closeParen
  else if c = '\x7b' then some .openBrace
  else if c = '\x7d' then some .closeBrace
  else none

/-- The keyword or free text at the front, with its number of characters. -/
def documentToken? : List Char → Option (Kind × Nat)
  | [] => none
  | '$' :: cs => (Keyword.atFront? cs).map fun k => (.keyword k, 1 + k.name.length)
  | '#' :: _ => none
  | c :: cs =>
    let more := cs.takeWhile fun d => !endsText d
    some (.text (String.ofList (c :: more)), 1 + more.length)

/-- The argument name, string, number or punctuation at the front, with its number of characters.
A number too great for 64 bits becomes the greatest. -/
def argumentToken? : List Char → Option (Kind × Nat)
  | '=' :: _ => some (.equals, 1)
  | ',' :: _ => some (.comma, 1)
  | '#' :: c :: cs =>
    if c.isAlpha then
      let more := cs.takeWhile isNameChar
      some (.argumentName (String.ofList (c :: more)), 2 + more.length)
    else none
  | '"' :: cs =>
    let value := cs.takeWhile (· != '"')
    if value.length < cs.length then some (.string (String.ofList value), 2 + value.length)
    else none
  | c :: cs =>
    if c.isDigit then
      let more := cs.takeWhile Char.isDigit
      some (.number (min (Text.decimal (c :: more)) Text.maxInt64), 1 + more.length)
    else none
  | [] => none

/-- The token at the front of a text that does not begin with a blank. -/
def token? (m : Mode) (cs : List Char) : Option (Kind × Nat) :=
  match cs.head?.bind bracket? with
  | some kind => some (kind, 1)
  | none =>
    match m with
    | .document => documentToken? cs
    | .arguments => argumentToken? cs

theorem pos_of_token? {m : Mode} {cs : List Char} {kind : Kind} {n : Nat}
    (h : token? m cs = some (kind, n)) : 0 < n := by
  unfold token? documentToken? argumentToken? at h
  grind [Option.map_eq_some_iff]

/-! ## The scanner -/

structure Scanner where
  mode : Mode
  position : Position
  rest : List Char
  deriving DecidableEq, Repr

inductive Scanned where
  | token (t : Token)
  | illegal (e : IllegalCharacter)
  deriving DecidableEq, Repr

namespace Scanner

def ofSource (source : String) : Scanner := ⟨.document, .start, source.toList⟩

/-- Past the blanks in front. -/
def skipBlanks (s : Scanner) : Scanner :=
  { s with
    position := s.position.advance (s.rest.takeWhile Text.isBlank)
    rest := Text.dropBlanks s.rest }

/-- Past the next `n` characters, which make a token. -/
def take (s : Scanner) (kind : Kind) (n : Nat) : Scanned × Scanner :=
  let text := s.rest.take n
  let past := s.position.advance text
  (.token ⟨kind, String.ofList text, s.position.line, s.position.offset, past.offset⟩,
    ⟨s.mode.after kind, past, s.rest.drop n⟩)

/-- The token or illegal character at the front, and the scanner behind it. -/
def front? (s : Scanner) : Option (Scanned × Scanner) :=
  match s.rest with
  | [] => none
  | c :: cs =>
    match token? s.mode (c :: cs) with
    | some (kind, n) => some (s.take kind n)
    | none => some (.illegal ⟨c, s.position⟩, ⟨s.mode, s.position.step c, cs⟩)

/-- The next token or illegal character, and the scanner behind it. -/
def next? (s : Scanner) : Option (Scanned × Scanner) := s.skipBlanks.front?

theorem length_rest_lt_of_front? {s t : Scanner} {i : Scanned} (h : s.front? = some (i, t)) :
    t.rest.length < s.rest.length := by
  unfold front? at h
  split at h
  · simp at h
  · next c cs hr =>
    split at h
    · next kind n hk =>
      have := pos_of_token? hk
      simp only [take, Option.some.injEq, Prod.mk.injEq] at h
      rw [← h.2, List.length_drop, hr, List.length_cons]
      omega
    · simp only [Option.some.injEq, Prod.mk.injEq] at h
      simp [← h.2, hr]

theorem length_rest_lt {s t : Scanner} {i : Scanned} (h : s.next? = some (i, t)) :
    t.rest.length < s.rest.length :=
  Nat.lt_of_lt_of_le (length_rest_lt_of_front? h) (Text.length_dropBlanks_le _)

/-- All that is left to scan. -/
def items (s : Scanner) : List Scanned :=
  match _h : s.next? with
  | none => []
  | some (i, t) => i :: t.items
termination_by s.rest.length
decreasing_by exact length_rest_lt ‹_›

end Scanner

/-! ## Scanning a source -/

/-- The tokens of a source, and the characters skipped between them. -/
structure Scan where
  tokens : List Token
  illegal : List IllegalCharacter
  deriving DecidableEq, Repr

/-- Tokens and illegal characters apart, each in source order. -/
def Scan.ofItems (items : List Scanned) : Scan where
  tokens := items.filterMap fun | .token t => some t | .illegal _ => none
  illegal := items.filterMap fun | .token _ => none | .illegal e => some e

def Scan.ofSource (source : String) : Scan := .ofItems (Scanner.ofSource source).items

example : (Scan.ofSource "$bold() x").tokens.map (·.text) = ["$bold", "(", ")", "x"] := by
  decide +kernel

example : (Scan.ofSource "$title(]").illegal = [⟨']', ⟨1, 8, 7⟩⟩] := by decide +kernel

end Folio
