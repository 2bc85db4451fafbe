import Folio.Proofs.Modes

/-!
# Longest match

**Words** (`Word`). The vocabulary of each mode: what a token may be, taken by itself.

**Illegal characters** (`IllegalAt`). The characters that begin no word, told from the character and
what follows it.

**Theorem (`longest_match`).** Each call of a scanner skips the blanks in front and takes the
longest word that begins there (`LongestAt`). If none does, which is so just for the illegal
characters, it takes that one character. The next call goes on right behind.

A word goes on to a lexeme in front of any text (`Word.exists_lexeme`). There is at most one lexeme
at the front, so no word there is longer (`Lexeme.length_le`), and none begins with a stray
character (`Stray.no_word`).
-/

namespace Folio

/-! ## The vocabulary -/

/-- The text is a word of the kind in the mode. -/
inductive Word : Mode → List Char → Kind → Prop
  | bracket {m : Mode} {c : Char} {kind : Kind} : bracket? c = some kind → Word m [c] kind
  | keyword (k : Keyword) : Word .document ('$' :: k.name.toList) (.keyword k)
  | text {c : Char} {more : List Char} : Text.isBlank c = false →
      (∀ d ∈ c :: more, endsText d = false) →
      Word .document (c :: more) (.text (String.ofList (c :: more)))
  | equals : Word .arguments ['='] .equals
  | comma : Word .arguments [','] .comma
  | name {c : Char} {more : List Char} : c.isAlpha → (∀ d ∈ more, isNameChar d) →
      Word .arguments ('#' :: c :: more) (.argumentName (String.ofList (c :: more)))
  | string {value : List Char} : '"' ∉ value →
      Word .arguments ('"' :: value ++ ['"']) (.string (String.ofList value))
  | number {c : Char} {more : List Char} : (∀ d ∈ c :: more, d.isDigit) →
      Word .arguments (c :: more) (.number (min (Text.decimal (c :: more)) Text.maxInt64))

variable {m : Mode} {c : Char} {cs text rest w : List Char} {kind : Kind}

/-- A word at the front of a text is the beginning of a lexeme. -/
theorem Word.exists_lexeme (h : Word m w kind) (cs : List Char) :
    ∃ more rest kind', cs = more ++ rest ∧ Lexeme m (w ++ more) rest kind' := by
  cases h with
  | bracket hc => exact ⟨[], cs, _, rfl, .bracket cs hc⟩
  | keyword k => exact ⟨[], cs, _, rfl, by simpa using .keyword k cs⟩
  | @text c more hc hplain =>
    obtain ⟨further, rest, rfl, hfurther, hrest⟩ := exists_span (fun d => !endsText d) cs
    have hplain' : ∀ d ∈ (c :: more) ++ further, endsText d = false :=
      List.forall_mem_append.2 ⟨hplain, fun d hd => by simpa using hfurther d hd⟩
    exact ⟨further, rest, _, rfl, .text hc hplain' fun d hd => by simpa using hrest d hd⟩
  | equals => exact ⟨[], cs, _, rfl, .equals cs⟩
  | comma => exact ⟨[], cs, _, rfl, .comma cs⟩
  | @name c more hc hmore =>
    obtain ⟨further, rest, rfl, hfurther, hrest⟩ := exists_span isNameChar cs
    exact ⟨further, rest, _, rfl, .name hc (List.forall_mem_append.2 ⟨hmore, hfurther⟩) hrest⟩
  | @string value hvalue => exact ⟨[], cs, _, rfl, by simpa using .string cs hvalue⟩
  | @number c more hdigits =>
    obtain ⟨further, rest, rfl, hfurther, hrest⟩ := exists_span Char.isDigit cs
    have hdigits' : ∀ d ∈ (c :: more) ++ further, d.isDigit :=
      List.forall_mem_append.2 ⟨hdigits, hfurther⟩
    exact ⟨further, rest, _, rfl, .number hdigits' hrest⟩

/-- No word at the front is longer than the lexeme there. -/
theorem Lexeme.length_le {kind' : Kind} (h : Lexeme m text rest kind) (hw : Word m w kind')
    (hfront : w <+: text ++ rest) : w.length ≤ text.length := by
  obtain ⟨cs, hcs⟩ := hfront
  obtain ⟨more, rest', kind'', rfl, hlexeme⟩ := hw.exists_lexeme cs
  have htoken := hlexeme.token?_eq
  rw [List.append_assoc, hcs, h.token?_eq, Option.some.injEq, Prod.mk.injEq,
    List.length_append] at htoken
  omega

/-- No word begins with a stray character. -/
theorem Stray.no_word (h : Stray m c cs) (hw : Word m w kind) : ¬ w <+: c :: cs := by
  rintro ⟨behind, hbehind⟩
  obtain ⟨more, rest, kind', rfl, hlexeme⟩ := hw.exists_lexeme behind
  have htoken := hlexeme.token?_eq
  rw [List.append_assoc, hbehind, h.token?_eq] at htoken
  cases htoken

/-! ## Illegal characters -/

/-- The character is illegal in the mode, in front of the rest. -/
def IllegalAt : Mode → Char → List Char → Prop
  | .document, c, rest => c = '#' ∨ c = '$' ∧ ∀ k : Keyword, ¬ k.name.toList <+: rest
  | .arguments, c, rest =>
    c ∉ ['(', ')', '\x7b', '\x7d', '=', ','] ∧ c.isDigit = false ∧
      ¬ (c = '#' ∧ ∃ d ∈ rest.head?, d.isAlpha) ∧ ¬ (c = '"' ∧ '"' ∈ rest)

theorem bracket?_eq_none_iff : bracket? c = none ↔ c ∉ ['(', ')', '\x7b', '\x7d'] := by
  unfold bracket?
  split_ifs <;> simp_all

theorem illegalAt_of_stray (h : Stray m c cs) : IllegalAt m c cs := by
  cases h with
  | hash => exact .inl rfl
  | dollar hk => exact .inr ⟨rfl, hk⟩
  | nameless hrest =>
    refine ⟨by decide, rfl, ?_, by simp⟩
    rintro ⟨-, d, hd, halpha⟩
    rw [hrest d hd] at halpha
    cases halpha
  | quote hrest => exact ⟨by decide, rfl, by simp, fun hquote => hrest hquote.2⟩
  | other _ _ hbracket hequals hcomma hhash hquote hdigit =>
    have hbrackets := bracket?_eq_none_iff.1 hbracket
    exact ⟨by simp_all, hdigit, fun h => hhash h.1, fun h => hquote h.1⟩

theorem stray_of_illegalAt (hc : Text.isBlank c = false) (h : IllegalAt m c cs) :
    Stray m c cs := by
  cases m with
  | document =>
    rcases h with rfl | ⟨rfl, hk⟩
    · exact .hash cs
    · exact .dollar hk
  | arguments =>
    obtain ⟨hpunctuation, hdigit, hname, hstring⟩ := h
    by_cases hhash : c = '#'
    · subst hhash
      exact .nameless fun d hd => by_contra fun halpha => hname ⟨rfl, d, hd, by simpa using halpha⟩
    by_cases hquote : c = '"'
    · subst hquote
      exact .quote fun hmem => hstring ⟨rfl, hmem⟩
    have hbracket : bracket? c = none := bracket?_eq_none_iff.2 (by simp_all)
    exact .other cs hc hbracket (by simp_all) (by simp_all) hhash hquote hdigit

/-! ## The longest match -/

/-- In the mode, the item is what there is to match at the front of the text, and the rest is what
stands behind it. -/
structure LongestAt (m : Mode) (c : Char) (cs : List Char) (i : Scanned) (rest : List Char) :
    Prop where
  pieces : c :: cs = i.text.toList ++ rest
  illegal : (∃ e, i = .illegal e) ↔ IllegalAt m c cs
  lexeme : ∀ t, i = .token t → Lexeme m t.text.toList rest t.kind
  /-- If a word begins here, the item is a token and no shorter than the word. -/
  longest : ∀ w kind, Word m w kind → w <+: c :: cs →
    (∃ t, i = .token t) ∧ w.length ≤ i.text.toList.length

theorem longestAt_illegal (p : Position) (h : Stray m c cs) :
    LongestAt m c cs (.illegal ⟨c, p⟩) cs where
  pieces := by rw [Scanned.text_illegal, List.singleton_append]
  illegal := ⟨fun _ => illegalAt_of_stray h, fun _ => ⟨_, rfl⟩⟩
  lexeme t ht := by cases ht
  longest w kind hw hfront := absurd hfront (h.no_word hw)

theorem longestAt_token (p : Position) (hc : Text.isBlank c = false)
    (hsplit : c :: cs = text ++ rest) (h : Lexeme m text rest kind) :
    LongestAt m c cs (.token (.placed kind p text)) rest := by
  have htext := Scanned.text_placed kind p text
  refine ⟨?_, ⟨fun ⟨e, he⟩ => ?_, fun hillegal => ?_⟩, fun t ht => ?_, fun w kind' hw hfront => ?_⟩
  · rw [htext, hsplit]
  · cases he
  · have hnone := (stray_of_illegalAt hc hillegal).token?_eq
    rw [hsplit, h.token?_eq] at hnone
    cases hnone
  · cases ht
    change Lexeme m (Scanned.token (.placed kind p text)).text.toList rest kind
    rwa [htext]
  · rw [htext]
    exact ⟨⟨_, rfl⟩, h.length_le hw (hsplit ▸ hfront)⟩

/-! ## Calls -/

namespace Scanner

variable {s t : Scanner} {i : Scanned}

/-- **A call** skips the blanks in front and takes the longest match behind them. -/
theorem longestAt_of_next? (h : s.next? = some (i, t)) :
    ∃ gap c cs, s.rest = gap ++ c :: cs ∧ (∀ d ∈ gap, Text.isBlank d) ∧ Text.isBlank c = false ∧
      i.StandsAt (s.position.advance gap) ∧ LongestAt s.mode c cs i t.rest ∧
      t.position = (s.position.advance gap).advance i.text.toList := by
  obtain ⟨c, cs, hdrop, hc, -⟩ := next?_eq_some h
  let gap := s.rest.takeWhile Text.isBlank
  let p := s.position.advance gap
  have hskip : s.skipBlanks = ⟨s.mode, p, c :: cs⟩ := by rw [skipBlanks, hdrop]
  have hnext : (Scanner.mk s.mode p (c :: cs)).next? = some (i, t) := by
    rw [next?_of_not_blank hc, ← hskip]
    exact h
  have hrest : s.rest = gap ++ c :: cs := by rw [← hdrop, Text.takeWhile_append_dropBlanks]
  refine ⟨gap, c, cs, hrest, fun d hd => List.mem_takeWhile_imp hd, hc, ?_⟩
  obtain hstray | ⟨text, rest, kind, hsplit, hlexeme⟩ := stray_or_lexeme s.mode cs hc
  · rw [next?_of_stray hstray p] at hnext
    cases hnext
    exact ⟨rfl, longestAt_illegal p hstray, by rw [Scanned.text_illegal]; rfl⟩
  · rw [hsplit, next?_of_lexeme hlexeme p] at hnext
    cases hnext
    exact ⟨Scanned.standsAt_placed kind p text, longestAt_token p hc hsplit hlexeme,
      by rw [Scanned.text_placed]⟩

theorem exists_passed_of_call (s : Scanner) :
    ∃ passed, s.rest = passed ++ s.call.2.rest ∧
      s.call.2.position = s.position.advance passed := by
  cases h : s.next? with
  | none =>
    rw [call_of_next?_eq_none h]
    exact ⟨_, (Text.takeWhile_append_dropBlanks s.rest).symm, rfl⟩
  | some r =>
    obtain ⟨i, t⟩ := r
    rw [call_of_next?_eq_some h]
    obtain ⟨gap, c, cs, hrest, -, -, -, hlongest, hposition⟩ := longestAt_of_next? h
    refine ⟨gap ++ i.text.toList, ?_, by rw [Position.advance_append, hposition]⟩
    rw [hrest, hlongest.pieces, List.append_assoc]

/-- **A run** stands where the text in front of it ends. -/
theorem exists_passed_of_behind (s : Scanner) (n : Nat) :
    ∃ passed, s.rest = passed ++ (s.behind n).rest ∧
      (s.behind n).position = s.position.advance passed := by
  induction n with
  | zero => exact ⟨[], rfl, rfl⟩
  | succ n ih =>
    obtain ⟨before, hbefore, hp⟩ := ih
    obtain ⟨passed, hpassed, hq⟩ := exists_passed_of_call (s.behind n)
    refine ⟨before ++ passed, ?_, ?_⟩
    · rw [List.append_assoc, hbefore, hpassed]
      rfl
    · rw [Position.advance_append, ← hp, ← hq]
      rfl

end Scanner

/-- **Longest match.** What a call gives stands behind the blanks in front. It is the longest match
there in the mode of the call, and the next call goes on right behind it. -/
theorem longest_match {source : String} {n : Nat} {i : Scanned}
    (h : (Scanner.ofSource source).yields n = some i) :
    let s := (Scanner.ofSource source).behind n
    let t := (Scanner.ofSource source).behind (n + 1)
    ∃ before gap c cs,
      source.toList = before ++ gap ++ c :: cs ∧ s.rest = gap ++ c :: cs ∧
      (∀ d ∈ gap, Text.isBlank d) ∧ Text.isBlank c = false ∧
      i.StandsAt (Position.start.advance (before ++ gap)) ∧ LongestAt s.mode c cs i t.rest := by
  intro s t
  have hyields : s.call.1 = some i := h
  cases hnext : s.next? with
  | none =>
    rw [Scanner.call_of_next?_eq_none hnext] at hyields
    cases hyields
  | some r =>
    obtain ⟨j, t'⟩ := r
    have hcall := Scanner.call_of_next?_eq_some hnext
    obtain rfl : j = i := Option.some.inj ((congrArg Prod.fst hcall).symm.trans hyields)
    have ht : t = t' := congrArg Prod.snd hcall
    obtain ⟨before, hbefore, hp⟩ := Scanner.exists_passed_of_behind (.ofSource source) n
    obtain ⟨gap, c, cs, hrest, hgap, hc, hstands, hlongest, -⟩ := Scanner.longestAt_of_next? hnext
    refine ⟨before, gap, c, cs, ?_, hrest, hgap, hc, ?_, ht ▸ hlongest⟩
    · rw [List.append_assoc, ← hrest]
      exact hbefore
    · rw [Position.advance_append]
      exact hp ▸ hstands

/-- Behind a quote that is not closed, the next character is read by itself. -/
theorem longest_match_open_quote :
    let source := "$style( \"7"
    let s : Scanner := .ofSource source
    let i : Scanned := .illegal ⟨'"', ⟨1, 9, 8⟩⟩
    s.yields 2 = some i ∧ (s.behind 2).mode = .arguments ∧ (s.behind 3).rest = ['7'] ∧
      ∃ before gap c cs,
        source.toList = before ++ gap ++ c :: cs ∧ (s.behind 2).rest = gap ++ c :: cs ∧
        (∀ d ∈ gap, Text.isBlank d) ∧ Text.isBlank c = false ∧
        i.StandsAt (Position.start.advance (before ++ gap)) ∧ LongestAt .arguments c cs i ['7'] := by
  intro source s i
  have hyields : s.yields 2 = some i := by decide +kernel
  have hmode : (s.behind 2).mode = .arguments := by decide +kernel
  have hrest : (s.behind 3).rest = ['7'] := by decide +kernel
  exact ⟨hyields, hmode, hrest, hmode ▸ hrest ▸ longest_match hyields⟩

end Folio
