import Folio.Proofs.QuotedText
import Folio.Proofs.ReportLines

/-!
# The lines of a token listing

**Theorem (`token_listing_determines`).** The listing of the tokens of a source has one line for
each token, and two sources with the same listing have tokens of the same kinds on the same lines.

Texts and strings are quoted, and a name has no line feed, so no line is broken
(`Token.unbroken_listingLine`). Within a line the number ends at the first space behind it
(`Token.lineColumn_append_inj`), and the kind is told by the word in front of its tail
(`Kind.display_injective`).
-/

namespace Folio

open Data.Json

/-! ## The kind of a token -/

theorem Keyword.text_injective : Function.Injective Keyword.text := by
  intro j k h
  have hname : j.name = k.name := by simpa [text] using h
  have hkeyword := ofName?_name j
  rw [hname, ofName?_name] at hkeyword
  exact (Option.some.inj hkeyword).symm

theorem toString_int_injective : Function.Injective (toString : Int → String) := by
  intro m n h
  have hend : EndsNumber [] := by rintro c ⟨⟩
  have hchars : (toString m).toList ++ [] = (toString n).toList ++ [] := by rw [h]
  exact (number_append_inj hend hend hchars).1

namespace Kind

/-- The word that a kind is shown by. -/
def word : Kind → String
  | keyword _ => "keyword"
  | argumentName _ => "arg-name"
  | string _ => "string"
  | number _ => "number"
  | openParen => "lparen"
  | closeParen => "rparen"
  | openBrace => "lbrace"
  | closeBrace => "rbrace"
  | comma => "comma"
  | equals => "equals"
  | text _ => "text"

/-- What is shown behind the word. -/
def tail : Kind → String
  | keyword k => ":" ++ k.text
  | argumentName name => ":#" ++ name
  | number value => ":" ++ toString value
  | string value | text value => ":" ++ Text.quoted value
  | _ => ""

theorem display_eq (k : Kind) : k.display = "<" ++ k.word ++ (k.tail ++ ">") := by
  cases k <;> simp [display, word, tail, ← String.append_assoc]

/-- The characters behind a word. -/
def endsWord (c : Char) : Bool := c == ':' || c == '>'

theorem endsWord_of_mem_word (k : Kind) : ∀ c ∈ k.word.toList, endsWord c = false := by
  cases k <;> simp [word, endsWord]

theorem endsWord_behind_word (k : Kind) : ∀ c ∈ (k.tail ++ ">").toList.head?, endsWord c := by
  cases k <;> simp [tail, endsWord]

/-- The word ends where its tail or the closing bracket begins. -/
theorem word_and_tail_of_display {j k : Kind} (h : j.display = k.display) :
    j.word = k.word ∧ j.tail = k.tail := by
  have hchars : j.word.toList ++ (j.tail ++ ">").toList =
      k.word.toList ++ (k.tail ++ ">").toList := by
    rw [display_eq, display_eq, ← String.toList_inj] at h
    simpa using h
  have hends : ∀ k : Kind, (k.word.toList ++ (k.tail ++ ">").toList).takeWhile
      (fun c => !endsWord c) = k.word.toList := by
    intro k
    apply takeWhile_append_of_boundary
    · intro c hc
      rw [k.endsWord_of_mem_word c hc]
      rfl
    · intro c hc
      rw [k.endsWord_behind_word c hc]
      rfl
  have hword : j.word.toList = k.word.toList := by rw [← hends j, hchars, hends k]
  rw [hword] at hchars
  have htail : j.tail ++ ">" = k.tail ++ ">" :=
    String.toList_inj.1 (List.append_cancel_left hchars)
  exact ⟨String.toList_inj.1 hword, (String.append_left_inj ">").1 htail⟩

/-- **A kind is told by how it is shown.** -/
theorem display_injective : Function.Injective display := by
  intro j k h
  obtain ⟨hword, htail⟩ := word_and_tail_of_display h
  have hbehind : ∀ {front a b : String}, front ++ a = front ++ b → a = b :=
    fun h => (String.append_right_inj _).1 h
  -- Kinds of one word have tails of one form; no two others share their word.
  cases j with
  | keyword a =>
    cases k with
    | keyword b => rw [Keyword.text_injective (hbehind htail)]
    | _ => simp [word] at hword
  | argumentName a =>
    cases k with
    | argumentName b => rw [hbehind htail]
    | _ => simp [word] at hword
  | string a =>
    cases k with
    | string b => rw [Text.quoted_injective (hbehind htail)]
    | _ => simp [word] at hword
  | number a =>
    cases k with
    | number b => rw [toString_int_injective (hbehind htail)]
    | _ => simp [word] at hword
  | text a =>
    cases k with
    | text b => rw [Text.quoted_injective (hbehind htail)]
    | _ => simp [word] at hword
  | openParen | closeParen | openBrace | closeBrace | comma | equals =>
    cases k <;> first | rfl | simp [word] at hword

end Kind

/-! ## The line of a token -/

namespace Token

/-- The number ends where no digit comes. -/
theorem lineColumn_append_inj {m n : Nat} {x y : List Char} (hx : EndsNumber x)
    (hy : EndsNumber y) (h : (lineColumn m).toList ++ x = (lineColumn n).toList ++ y) :
    m = n ∧ x = y := by
  have hdrop : ∀ (k : Nat) (z : List Char),
      ((lineColumn k).toList ++ z).dropWhile (· = ' ') = (toString k).toList ++ z := by
    intro k z
    obtain ⟨c, cs, hcs, hc⟩ := exists_digit k
    have hspaces : ∀ d ∈ List.replicate (4 - (toString k).length) ' ', decide (d = ' ') := by
      intro d hd
      simpa using List.eq_of_mem_replicate hd
    have hdigit : c ≠ ' ' := by
      rintro rfl
      cases hc
    rw [lineColumn, String.toList_append, String.toList_ofList, List.append_assoc,
      List.dropWhile_append_of_pos hspaces, hcs, List.cons_append,
      List.dropWhile_cons_of_neg (by simpa using hdigit)]
  apply nat_append_inj hx hy
  rw [← hdrop m x, h, hdrop n y]

/-- What a listing tells of a token. -/
def listed (t : Token) : Nat × Kind := (t.line, t.kind)

/-- The line of a listing for a token on a line and of a kind. -/
def listingLine (entry : Nat × Kind) : String := lineColumn entry.1 ++ "  " ++ entry.2.display

theorem listing_eq_join (ts : List Token) :
    listing ts = String.join (((ts.map listed).map listingLine).map (· ++ "\n")) := by
  rw [listing, List.map_map, List.map_map]
  rfl

/-- **A line tells the entry it was written for.** -/
theorem listingLine_injective : Function.Injective listingLine := by
  rintro ⟨m, j⟩ ⟨n, k⟩ h
  have hspace : ∀ k : Kind, EndsNumber ("  " ++ k.display).toList := by
    intro k c hc
    rw [String.toList_append] at hc
    cases hc
    rfl
  have hchars : (lineColumn m).toList ++ ("  " ++ j.display).toList =
      (lineColumn n).toList ++ ("  " ++ k.display).toList := by
    rw [listingLine, listingLine, ← String.toList_inj] at h
    simpa using h
  obtain ⟨rfl, hkind⟩ := lineColumn_append_inj (hspace j) (hspace k) hchars
  have hdisplay : j.display = k.display :=
    (String.append_right_inj "  ").1 (String.toList_inj.1 hkind)
  rw [Kind.display_injective hdisplay]

theorem unbroken_lineColumn (n : Nat) : Unbroken (lineColumn n) := by
  have hspaces : '\n' ∉ List.replicate (4 - (toString n).length) ' ' := by
    intro hmem
    exact absurd (List.eq_of_mem_replicate hmem) (by decide)
  rw [lineColumn, unbroken_append]
  refine ⟨?_, unbroken_toString_nat n⟩
  rwa [Unbroken, String.toList_ofList]

/-- Only the name of an argument could break the line. -/
theorem unbroken_listingLine {t : Token}
    (hname : ∀ name, t.kind = .argumentName name → Unbroken name) :
    Unbroken (listingLine t.listed) := by
  have htail : Unbroken t.kind.tail := by
    cases hk : t.kind with
    | keyword k => exact unbroken_append.2 ⟨by decide, k.unbroken_text⟩
    | argumentName name => exact unbroken_append.2 ⟨by decide, hname name hk⟩
    | number value => exact unbroken_append.2 ⟨by decide, unbroken_toString_int value⟩
    | string value | text value => exact unbroken_append.2 ⟨by decide, unbroken_quoted value⟩
    | _ => exact List.not_mem_nil
  have hword : Unbroken t.kind.word := by
    cases t.kind <;> simp only [Kind.word] <;> decide
  rw [listingLine, listed, Kind.display_eq]
  simp only [unbroken_append, unbroken_lineColumn, hword, htail]
  decide

end Token

/-! ## The listing of a source -/

theorem isLines_listing (source : String) :
    IsLines (Token.listing (Scan.ofSource source).tokens)
      (((Scan.ofSource source).tokens.map Token.listed).map Token.listingLine) where
  unbroken := by
    intro l hl
    rw [List.map_map] at hl
    obtain ⟨t, ht, rfl⟩ := List.mem_map.1 hl
    apply Token.unbroken_listingLine
    intro name hk
    exact unbroken_argumentName_of_mem_tokens ht hk
  text_eq := Token.listing_eq_join _

/-- **A listing has one line for each token of a source, and it determines the lines and kinds of
the tokens.** -/
theorem token_listing_determines (source : String) :
    IsLines (Token.listing (Scan.ofSource source).tokens)
        (((Scan.ofSource source).tokens.map Token.listed).map Token.listingLine) ∧
      ∀ other : String,
        Token.listing (Scan.ofSource other).tokens = Token.listing (Scan.ofSource source).tokens →
          (Scan.ofSource other).tokens.map Token.listed =
            (Scan.ofSource source).tokens.map Token.listed := by
  refine ⟨isLines_listing source, ?_⟩
  intro other h
  have hother := isLines_listing other
  rw [h] at hother
  have hlines := hother.unique (isLines_listing source)
  exact List.map_injective_iff.2 Token.listingLine_injective hlines

/-- Blanks between tokens do not show in a listing. -/
theorem token_listing_determines_blank :
    Token.listing (Scan.ofSource "$bold( )\x7b\"\n\x7d").tokens =
        Token.listing (Scan.ofSource "$bold()\x7b\"\n\x7d").tokens ∧
      (Scan.ofSource "$bold( )\x7b\"\n\x7d").tokens.map Token.listed =
        (Scan.ofSource "$bold()\x7b\"\n\x7d").tokens.map Token.listed :=
  have hlisting : Token.listing (Scan.ofSource "$bold( )\x7b\"\n\x7d").tokens =
      Token.listing (Scan.ofSource "$bold()\x7b\"\n\x7d").tokens := by decide +kernel
  ⟨hlisting, (token_listing_determines "$bold()\x7b\"\n\x7d").2 _ hlisting⟩

end Folio
