import Folio.Settings.Value
import Folio.Toml.Lexeme

/-!
# Scalars of TOML

Strings, truth values, integers of 64 bits and real numbers. An underscore may stand between two
digits. A real number too great for a double is refused unless it is negative.
-/

namespace Folio.Toml

/-- The digits at the front without the underscores between them, and the rest. -/
def digitRun (isDigit : Char → Bool) : List Char → List Char × List Char
  | [] => ([], [])
  | c :: cs =>
    if isDigit c then
      let (ds, rest) := digitRun isDigit cs
      (c :: ds, rest)
    else if c == '_' && cs.head?.any isDigit then digitRun isDigit cs
    else ([], c :: cs)

/-- At least one digit at the front. -/
def digitRun? (isDigit : Char → Bool) (cs : List Char) : Option (List Char × List Char) :=
  if cs.head?.any isDigit then some (digitRun isDigit cs) else none

/-- Any sign in front, and the rest. -/
def sign (cs : List Char) : Bool × List Char :=
  match cs with
  | '+' :: cs => (false, cs)
  | '-' :: cs => (true, cs)
  | cs => (false, cs)

/-- Digits without a needless zero in front. -/
def whole? (cs : List Char) : Option (List Char × List Char) :=
  match cs with
  | '0' :: rest => some (['0'], rest)
  | _ => digitRun? Char.isDigit cs

/-- The integer if it has 64 bits. -/
def integer (n : Int) (rest : List Char) : Option (Scalar × List Char) :=
  if Text.isInt64 n then some (.integer n, rest) else none

/-- An integer in digits of a base. -/
def based? (base : Nat) (cs : List Char) : Option (Scalar × List Char) :=
  let isDigit (c : Char) : Bool := (hexDigit? c).any (· < base)
  (digitRun? isDigit cs).bind fun (ds, rest) =>
    integer (ds.foldl (fun n c => base * n + (hexDigit? c).getD 0) 0 : Nat) rest

def integer? (cs : List Char) : Option (Scalar × List Char) :=
  match cs with
  | '0' :: 'x' :: rest => based? 16 rest
  | '0' :: 'o' :: rest => based? 8 rest
  | '0' :: 'b' :: rest => based? 2 rest
  | _ =>
    let (negative, unsigned) := sign cs
    (whole? unsigned).bind fun (ds, rest) =>
      let n : Int := Text.decimal ds
      integer (if negative then -n else n) rest

/-- The exponent of a real number, if there is one. -/
def exponent? : List Char → Option (Int × List Char)
  | c :: cs =>
    if c = 'e' ∨ c = 'E' then
      let (negative, cs) := sign cs
      (digitRun? Char.isDigit cs).map fun (ds, rest) =>
        let n : Int := Text.decimal ds
        (if negative then -n else n, rest)
    else none
  | [] => none

/-- The digits behind the point of a real number, if there are any. -/
def fraction? : List Char → Option (List Char × List Char)
  | '.' :: cs => digitRun? Char.isDigit cs
  | _ => none

/-- A real number of digits with a fraction or an exponent. -/
def decimal? (cs : List Char) : Option (Scalar × List Char) := do
  let (negative, cs) := sign cs
  let (ds, cs) ← whole? cs
  let (fs, e, rest) ← match fraction? cs with
    | some (fs, rest) =>
      let (e, rest) := (exponent? rest).getD (0, rest)
      some (fs, e, rest)
    | none => (exponent? cs).map fun (e, rest) => ([], e, rest)
  let d := Double.ofDecimal ⟨negative, Text.decimal (ds ++ fs), e - fs.length⟩
  if d = .infinite false then none else some (.real d, rest)

/-- An infinity or the value that is no number. -/
def named? (cs : List Char) : Option (Scalar × List Char) :=
  let (negative, cs) := sign cs
  match cs with
  | 'i' :: 'n' :: 'f' :: rest => some (.real (.infinite negative), rest)
  | 'n' :: 'a' :: 'n' :: rest => some (.real .notANumber, rest)
  | _ => none

def truthValue? : List Char → Option (Scalar × List Char)
  | 't' :: 'r' :: 'u' :: 'e' :: rest => some (.bool true, rest)
  | 'f' :: 'a' :: 'l' :: 's' :: 'e' :: rest => some (.bool false, rest)
  | _ => none

/-- The scalar at the front. -/
def scalar? (cs : List Char) : Option (Scalar × List Char) :=
  ((string? cs).map fun (s, rest) => (.text s, rest)) <|> truthValue? cs <|> decimal? cs <|>
    named? cs <|> integer? cs

example : scalar? "1_000".toList = some (.integer 1000, []) := by decide +kernel
example : scalar? "0xFf,".toList = some (.integer 255, [',']) := by decide +kernel
example : scalar? "9223372036854775808".toList = none := by decide +kernel

end Folio.Toml
