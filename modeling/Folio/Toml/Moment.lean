import Folio.Text.Integer

/-!
# Dates and times

A date, a time, or both, and then perhaps the offset from universal time. A moment is written
back in one form only: a `T` between date and time, at most nine digits of a second without
zeros at the end, and the offset as `Z` or with hours and minutes.

A document keeps to the clock (`Clock.strict`). A moment in a text of its own may also name the
hour 24 and any offset of up to a day, with minutes beyond an hour (`Clock.loose`).
-/

namespace Folio.Toml

/-- Which hours of a day and which offsets, in hours and minutes, there are. -/
structure Clock where
  lastHour : Nat
  isOffset : Nat → Nat → Bool

def Clock.strict : Clock := ⟨23, fun hours minutes => hours ≤ 23 && minutes ≤ 59⟩

def Clock.loose : Clock := ⟨24, fun hours minutes => 60 * hours + minutes ≤ 24 * 60⟩

/-- A number of exactly so many digits, not greater than a limit. -/
def digits? (width limit : Nat) (cs : List Char) : Option (Nat × List Char) :=
  let ds := cs.take width
  if ds.length = width ∧ ds.all Char.isDigit ∧ Text.decimal ds ≤ limit then
    some (Text.decimal ds, cs.drop width)
  else none

/-- The rest behind a character. -/
def behind? (c : Char) : List Char → Option (List Char)
  | d :: cs => if d = c then some cs else none
  | [] => none

/-- A number with zeros in front up to a width. -/
def padded (width n : Nat) : String :=
  let ds := toString n
  String.ofList (List.replicate (width - ds.length) '0') ++ ds

def isLeapYear (year : Nat) : Bool := year % 4 = 0 && (year % 100 ≠ 0 || year % 400 = 0)

def daysIn (year month : Nat) : Nat :=
  if month = 2 then (if isLeapYear year then 29 else 28)
  else if month ∈ [4, 6, 9, 11] then 30
  else 31

/-- A date as written back. -/
def date? (cs : List Char) : Option (String × List Char) := do
  let (year, cs) ← digits? 4 9999 cs
  let (month, cs) ← digits? 2 12 (← behind? '-' cs)
  let (day, cs) ← digits? 2 (daysIn year month) (← behind? '-' cs)
  if month = 0 ∨ day = 0 then none
  else some (padded 4 year ++ "-" ++ padded 2 month ++ "-" ++ padded 2 day, cs)

/-- A part of a second as written back: nine digits, without zeros at the end. -/
def fraction (ds : List Char) : String :=
  let kept := ((ds.take 9).reverse.dropWhile (· = '0')).reverse
  if kept.isEmpty then "" else String.ofList ('.' :: kept)

/-- The part of a second behind a time, if there is one. -/
def secondPart : List Char → String × List Char
  | '.' :: c :: cs =>
    if c.isDigit then
      (fraction ((c :: cs).takeWhile Char.isDigit), (c :: cs).dropWhile Char.isDigit)
    else ("", '.' :: c :: cs)
  | cs => ("", cs)

/-- A time of day as written back. -/
def time? (clock : Clock) (cs : List Char) : Option (String × List Char) := do
  let (hour, cs) ← digits? 2 clock.lastHour cs
  let (minute, cs) ← digits? 2 59 (← behind? ':' cs)
  let (second, cs) ← digits? 2 60 (← behind? ':' cs)
  let (part, cs) := secondPart cs
  some (padded 2 hour ++ ":" ++ padded 2 minute ++ ":" ++ padded 2 second ++ part, cs)

/-- Hours and minutes behind the sign of an offset. -/
def offsetBehind? (clock : Clock) (sign : String) (cs : List Char) :
    Option (String × List Char) := do
  let (hours, cs) ← digits? 2 99 cs
  let (minutes, cs) ← digits? 2 99 (← behind? ':' cs)
  if clock.isOffset hours minutes then
    let total := 60 * hours + minutes
    some ((if total = 0 then "+" else sign) ++ padded 2 (total / 60) ++ ":" ++
      padded 2 (total % 60), cs)
  else none

/-- The offset at the front, if there is one. -/
def offset (clock : Clock) (cs : List Char) : String × List Char :=
  match cs with
  | 'Z' :: rest | 'z' :: rest => ("Z", rest)
  | '+' :: rest => (offsetBehind? clock "+" rest).getD ("", cs)
  | '-' :: rest => (offsetBehind? clock "-" rest).getD ("", cs)
  | _ => ("", cs)

/-- The time behind a date, if there is one. -/
def timeBehind? (clock : Clock) : List Char → Option (String × List Char)
  | c :: cs => if c ∈ ['T', 't', ' '] then time? clock cs else none
  | [] => none

/-- A date, a time, or both, as written back. -/
def moment? (clock : Clock) (cs : List Char) : Option (String × List Char) :=
  match date? cs with
  | none => time? clock cs
  | some (date, rest) =>
    match timeBehind? clock rest with
    | none => some (date, rest)
    | some (time, rest) =>
      let (zone, rest) := offset clock rest
      some (date ++ "T" ++ time ++ zone, rest)

/-- A text that is nothing but a moment, as written back. -/
def momentText? (s : String) : Option String :=
  match moment? .loose s.toList with
  | some (t, []) => some t
  | _ => none

example : (moment? .strict "1979-05-27 07:32:00.1200-07:00".toList).map (·.1) =
    some "1979-05-27T07:32:00.12-07:00" := by decide +kernel
example : moment? .strict "1979-02-29".toList = none := by decide +kernel
example : momentText? "1979-05-27t24:00:00+00:99" = some "1979-05-27T24:00:00+01:39" := by
  decide +kernel
example : momentText? "1979-05-27 " = none := by decide +kernel

end Folio.Toml
