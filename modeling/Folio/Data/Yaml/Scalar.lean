import Folio.Data.Yaml.Reading

/-!
# YAML scalars

A text is written in one of four styles. A text with line feeds is wanted as a literal block, an
ambiguous one between apostrophes, any other one plain. Where the characters of the text rule the
wanted style out, the next one in the order plain, single, double is taken; between double quotes
every text can be written.
-/

namespace Folio.Data.Yaml

inductive Style where
  | plain
  | single
  | double
  | literal
  deriving DecidableEq, Repr

/-! ## Characters -/

/-- A character that breaks a line. -/
def isBreak (c : Char) : Bool :=
  c == '\n' || c == '\r' || c == '\u0085' || c == '\u2028' || c == '\u2029'

/-- A break, a space, a tab or NUL. -/
def isBlank (c : Char) : Bool := c == ' ' || c == '\t' || c == '\x00' || isBreak c

/-- A character that may stand for itself outside double quotes. -/
def isPrintable (c : Char) : Bool :=
  let n := c.toNat
  n == 0x0A || (0x20 ≤ n && n ≤ 0x7E) || (0xA0 ≤ n && n ≤ 0xD7FF) ||
    (0xE000 ≤ n && n ≤ 0xFFFD && n != 0xFEFF) || 0x10000 ≤ n

/-- A character that marks something else at the front of a scalar. -/
def isMark (c : Char) : Bool :=
  c ∈ ['#', ',', '[', ']', '\x7b', '\x7d', '&', '*', '!', '|', '>', '\'', '"', '%', '@', '\x60']

/-! ## What rules a style out -/

/-- Two neighbours in the text that meet two conditions. -/
def hasPair (p q : Char → Bool) (cs : List Char) : Bool :=
  (cs.zip cs.tail).any fun (a, b) => p a && q b

/-- A blank or the end comes next. -/
def atBlank : List Char → Bool
  | [] => true
  | c :: _ => isBlank c

/-- The text would be taken for a mark of the format if it were written plain. -/
def startsMark (cs : List Char) : Bool :=
  ['-', '-', '-'].isPrefixOf cs || ['.', '.', '.'].isPrefixOf cs ||
    match cs with
    | [] => false
    | c :: rest => isMark c || (c ∈ ['?', ':', '-'] && atBlank rest)

/-- The text holds a colon that ends a key or a hash that begins a comment. -/
def holdsMark (cs : List Char) : Bool :=
  hasPair isBlank (· == '#') cs || hasPair (· == ':') isBlank cs || cs.getLast? = some ':'

/-- A line ends in a space, or a character cannot stand for itself. -/
def needsEscapes (cs : List Char) : Bool :=
  !cs.all isPrintable || hasPair (· == ' ') isBreak cs

/-- A plain scalar is one line that neither begins nor ends with a space. -/
def canBePlain (cs : List Char) : Bool :=
  !needsEscapes cs && !cs.any isBreak && cs.head? != some ' ' && cs.getLast? != some ' ' &&
    !startsMark cs && !holdsMark cs

/-- Between apostrophes no line may begin with a space. -/
def canBeSingle (cs : List Char) : Bool :=
  !needsEscapes cs && !hasPair isBreak (· == ' ') cs

/-- A literal block may not end in a space. -/
def canBeLiteral (cs : List Char) : Bool :=
  !needsEscapes cs && !cs.isEmpty && cs.getLast? != some ' '

/-- The style of a text. -/
def Style.of (s : String) : Style :=
  let cs := s.toList
  if '\n' ∈ cs then (if canBeLiteral cs then literal else double)
  else if !isAmbiguous s && canBePlain cs then plain
  else if canBeSingle cs then single
  else double

/-- The style of a key, which is always on one line. -/
def Style.ofKey (s : String) : Style :=
  if s.toList.any isBreak then double else Style.of s

/-! ## Writing -/

def indentation (n : Nat) : List Char := List.replicate n ' '

/-- Every line indented; `fresh` says that the text begins on a new line. -/
def indented (n : Nat) : (fresh : Bool) → List Char → List Char
  | _, [] => []
  | fresh, c :: cs =>
    if isBreak c then c :: indented n true cs
    else (if fresh then indentation n else []) ++ c :: indented n false cs

def endsInBreak (cs : List Char) : Bool := cs.getLast?.any isBreak

/-- A number below 65536 or above in as many hexadecimal digits as asked for. -/
def hexDigits (width n : Nat) : List Char :=
  let digits := (Nat.toDigits 16 n).map Char.toUpper
  List.replicate (width - digits.length) '0' ++ digits

/-- One character between double quotes. -/
def escaped (c : Char) : List Char :=
  let n := c.toNat
  if c = '"' ∨ c = '\\' then ['\\', c]
  else if isPrintable c && !isBreak c then [c]
  else
    match [(0x00, '0'), (0x07, 'a'), (0x08, 'b'), (0x09, 't'), (0x0A, 'n'), (0x0B, 'v'),
      (0x0C, 'f'), (0x0D, 'r'), (0x1B, 'e'), (0x85, 'N'), (0xA0, '_'), (0x2028, 'L'),
      (0x2029, 'P')].lookup n with
    | some letter => ['\\', letter]
    | none =>
      if n ≤ 0xFF then '\\' :: 'x' :: hexDigits 2 n
      else if n ≤ 0xFFFF then '\\' :: 'u' :: hexDigits 4 n
      else '\\' :: 'U' :: hexDigits 8 n

/-- A text between double quotes. -/
def double (cs : List Char) : List Char := '"' :: cs.flatMap escaped ++ ['"']

/-- A text between apostrophes, those inside doubled; lines behind the first are indented. -/
def single (n : Nat) (cs : List Char) : List Char :=
  let body := cs.flatMap fun c => if c = '\'' then ['\'', '\''] else [c]
  '\'' :: indented n false body ++ (if endsInBreak body then indentation n else []) ++ ['\'']

/-- What the header of a literal block says about the breaks at the end of the text: none, one,
or more than one. -/
def chomping (cs : List Char) : List Char :=
  match cs.reverse with
  | [] => ['-']
  | c :: rest =>
    if !isBreak c then ['-']
    else if rest.isEmpty || rest.head?.any isBreak then ['+']
    else []

/-- A literal block: a header, then the lines indented. It ends its own line. -/
def literal (n : Nat) (cs : List Char) : List Char :=
  let hint := if cs.head?.any fun c => c == ' ' || isBreak c then ['2'] else []
  '|' :: hint ++ chomping cs ++ '\n' :: indented n true cs ++
    (if endsInBreak cs then [] else ['\n'])

/-- A text with the break that ends its line, where further lines are indented by `n`. -/
def scalar (n : Nat) (s : String) : List Char :=
  match Style.of s with
  | .plain => s.toList ++ ['\n']
  | .single => single n s.toList ++ ['\n']
  | .double => double s.toList ++ ['\n']
  | .literal => literal n s.toList

/-- A key on one line. -/
def key (s : String) : List Char :=
  match Style.ofKey s with
  | .plain => s.toList
  | .single => single 0 s.toList
  | .double | .literal => double s.toList

end Folio.Data.Yaml
