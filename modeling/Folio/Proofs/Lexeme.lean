import Folio.Proofs.Scanning

/-!
# Lexemes

What a token is, said without the scanner.

**Lexemes** (`Lexeme`). The text of a token in front of the rest of the source. Free text, argument
names and numbers go on while they can, so for these the rest may not begin with a character that
would go on. The other lexemes end by themselves.

**Stray characters** (`Stray`). A character that begins no token, in front of the rest.

**Theorems.** A scanner takes the lexeme at the front of a text (`token?_eq_some_iff`) and takes
nothing just if the first character is stray (`token?_eq_none_iff`).
-/

namespace Folio

/-- The text is a token of the kind in the mode, in front of the rest. -/
inductive Lexeme : Mode → List Char → List Char → Kind → Prop
  | bracket {m : Mode} {c : Char} {kind : Kind} (rest : List Char) :
      bracket? c = some kind → Lexeme m [c] rest kind
  | keyword (k : Keyword) (rest : List Char) :
      Lexeme .document ('$' :: k.name.toList) rest (.keyword k)
  | text {c : Char} {more rest : List Char} : Text.isBlank c = false →
      (∀ d ∈ c :: more, endsText d = false) → (∀ d ∈ rest.head?, endsText d) →
      Lexeme .document (c :: more) rest (.text (String.ofList (c :: more)))
  | equals (rest : List Char) : Lexeme .arguments ['='] rest .equals
  | comma (rest : List Char) : Lexeme .arguments [','] rest .comma
  | name {c : Char} {more rest : List Char} : c.isAlpha →
      (∀ d ∈ more, isNameChar d) → (∀ d ∈ rest.head?, isNameChar d = false) →
      Lexeme .arguments ('#' :: c :: more) rest (.argumentName (String.ofList (c :: more)))
  | string {value : List Char} (rest : List Char) : '"' ∉ value →
      Lexeme .arguments ('"' :: value ++ ['"']) rest (.string (String.ofList value))
  | number {c : Char} {more rest : List Char} : (∀ d ∈ c :: more, d.isDigit) →
      (∀ d ∈ rest.head?, d.isDigit = false) →
      Lexeme .arguments (c :: more) rest
        (.number (min (Text.decimal (c :: more)) Text.maxInt64))

/-- No token begins with the character, in front of the rest. -/
inductive Stray : Mode → Char → List Char → Prop
  | hash (rest : List Char) : Stray .document '#' rest
  | dollar {rest : List Char} : (∀ k : Keyword, ¬ k.name.toList <+: rest) →
      Stray .document '$' rest
  | nameless {rest : List Char} : (∀ d ∈ rest.head?, d.isAlpha = false) →
      Stray .arguments '#' rest
  | quote {rest : List Char} : '"' ∉ rest → Stray .arguments '"' rest
  | other {c : Char} (rest : List Char) : Text.isBlank c = false → bracket? c = none →
      c ≠ '=' → c ≠ ',' → c ≠ '#' → c ≠ '"' → c.isDigit = false → Stray .arguments c rest

/-! ## Characters of a lexeme -/

theorem isBlank_of_bracket? {c : Char} {kind : Kind} (h : bracket? c = some kind) :
    Text.isBlank c = false := by
  unfold bracket? at h
  split_ifs at h with h₁ h₂ h₃ h₄ <;> subst c <;> rfl

theorem Lexeme.ne_nil {m : Mode} {text rest : List Char} {kind : Kind}
    (h : Lexeme m text rest kind) : text ≠ [] := by
  cases h <;> simp

theorem Lexeme.isBlank_head {m : Mode} {text rest : List Char} {kind : Kind}
    (h : Lexeme m text rest kind) : ∀ c ∈ text.head?, Text.isBlank c = false := by
  cases h with
  | bracket rest hc => rintro _ ⟨⟩; exact isBlank_of_bracket? hc
  | text hc => rintro _ ⟨⟩; exact hc
  | number hdigits => rintro _ ⟨⟩; exact isBlank_of_isDigit (hdigits _ List.mem_cons_self)
  | _ => rintro _ ⟨⟩; rfl

theorem Stray.isBlank {m : Mode} {c : Char} {rest : List Char} (h : Stray m c rest) :
    Text.isBlank c = false := by
  cases h with
  | other rest hc => exact hc
  | _ => rfl

/-! ## What the scanner takes -/

theorem atFront?_eq_none_iff {cs : List Char} :
    Keyword.atFront? cs = none ↔ ∀ k : Keyword, ¬ k.name.toList <+: cs := by
  rw [Keyword.atFront?, List.find?_eq_none]
  constructor
  · intro h k hk
    exact h k (Keyword.mem_all k) (List.isPrefixOf_iff_prefix.2 hk)
  · intro h k _ hk
    exact h k (List.isPrefixOf_iff_prefix.1 hk)

theorem atFront?_eq_some_iff {cs : List Char} {k : Keyword} :
    Keyword.atFront? cs = some k ↔ k.name.toList <+: cs := by
  constructor
  · intro h
    have hk := List.find?_some h
    rwa [List.isPrefixOf_iff_prefix] at hk
  · rintro ⟨rest, rfl⟩
    exact atFront?_name_append k rest

theorem token?_bracket {m : Mode} {c : Char} {cs : List Char} {kind : Kind}
    (h : bracket? c = some kind) : token? m (c :: cs) = some (kind, 1) := by
  simp [token?, h]

/-- A lexeme is taken. -/
theorem Lexeme.token?_eq {m : Mode} {text rest : List Char} {kind : Kind}
    (h : Lexeme m text rest kind) : token? m (text ++ rest) = some (kind, text.length) := by
  cases h with
  | bracket rest hc => exact token?_bracket hc
  | keyword k rest =>
    rw [List.cons_append, token?_document rfl]
    simp [documentToken?, atFront?_name_append, Nat.add_comm, String.length_toList]
  | @text c more rest hc hplain hrest =>
    obtain ⟨hends, hplain⟩ := List.forall_mem_cons.1 hplain
    have hmore : (more ++ rest).takeWhile (fun d => !endsText d) = more :=
      takeWhile_append_of_boundary (fun d hd => by simp [hplain d hd])
        fun d hd => by simp [hrest d hd]
    rw [List.cons_append, token?_document (bracket?_of_endsText hends), documentToken?_text hends,
      hmore, List.length_cons, Nat.add_comm]
  | equals rest => rfl
  | comma rest => rfl
  | @name c more rest hc hmore hrest =>
    have htake := takeWhile_append_of_boundary hmore hrest
    rw [List.cons_append, List.cons_append, token?_arguments rfl]
    simp [argumentToken?, htake, hc]
    omega
  | @string value rest hvalue =>
    have htake : (value ++ '"' :: rest).takeWhile (· != '"') = value :=
      takeWhile_append_of_boundary (fun d hd => bne_iff_ne.2 fun heq => hvalue (heq ▸ hd)) (by simp)
    have hsplit : '"' :: value ++ ['"'] ++ rest = '"' :: (value ++ '"' :: rest) := by simp
    rw [hsplit, token?_arguments rfl]
    simp [argumentToken?, htake]
    omega
  | @number c more rest hdigits hrest =>
    obtain ⟨hc, hmore⟩ := List.forall_mem_cons.1 hdigits
    have htake := takeWhile_append_of_boundary hmore hrest
    rw [List.cons_append, token?_arguments (bracket?_of_endsText (endsText_of_isDigit hc)),
      argumentToken?_number hc, htake, List.length_cons, Nat.add_comm]

theorem Stray.token?_eq {m : Mode} {c : Char} {rest : List Char} (h : Stray m c rest) :
    token? m (c :: rest) = none := by
  cases h with
  | hash => rfl
  | dollar hk =>
    rw [token?_document rfl]
    simp [documentToken?, atFront?_eq_none_iff.2 hk]
  | nameless hd =>
    rw [token?_arguments rfl]
    cases rest with
    | nil => rfl
    | cons d ds => simp [argumentToken?, hd d rfl]
  | quote hrest =>
    have htake : rest.takeWhile (· != '"') = rest :=
      List.takeWhile_eq_self_iff.2 fun d hd => bne_iff_ne.2 fun heq => hrest (heq ▸ hd)
    rw [token?_arguments rfl]
    simp [argumentToken?, htake]
  | other _ _ hb hequals hcomma hhash hquote hdigit =>
    rw [token?_arguments hb]
    unfold argumentToken?
    split <;> simp_all

/-- The longest beginning of a text in a class of characters, and what is behind it. -/
theorem exists_span (p : Char → Bool) (cs : List Char) :
    ∃ more rest, cs = more ++ rest ∧ (∀ d ∈ more, p d) ∧ ∀ d ∈ rest.head?, p d = false :=
  ⟨cs.takeWhile p, cs.dropWhile p, List.takeWhile_append_dropWhile.symm,
    fun _ hd => List.mem_takeWhile_imp hd, fun _ hd => not_of_mem_head?_dropWhile hd⟩

/-- A lexeme is at the front of the text. -/
def BeginsLexeme (m : Mode) (cs : List Char) : Prop :=
  ∃ text rest kind, cs = text ++ rest ∧ Lexeme m text rest kind

theorem stray_or_lexeme_document {c : Char} (cs : List Char) (hc : Text.isBlank c = false)
    (hb : bracket? c = none) : Stray .document c cs ∨ BeginsLexeme .document (c :: cs) := by
  by_cases hhash : c = '#'
  · subst hhash
    exact .inl (.hash cs)
  by_cases hdollar : c = '$'
  · subst hdollar
    cases hk : Keyword.atFront? cs with
    | none => exact .inl (.dollar (atFront?_eq_none_iff.1 hk))
    | some k =>
      obtain ⟨rest, rfl⟩ := atFront?_eq_some_iff.1 hk
      exact .inr ⟨_, rest, _, rfl, .keyword k rest⟩
  · obtain ⟨more, rest, rfl, hmore, hrest⟩ := exists_span (fun d => !endsText d) cs
    have hends := endsText_of_bracket? hb hdollar hhash
    refine .inr ⟨c :: more, rest, _, rfl, .text hc ?_ fun d hd => by simpa using hrest d hd⟩
    exact List.forall_mem_cons.2 ⟨hends, fun d hd => by simpa using hmore d hd⟩

theorem stray_or_lexeme_arguments {c : Char} (cs : List Char) (hc : Text.isBlank c = false)
    (hb : bracket? c = none) : Stray .arguments c cs ∨ BeginsLexeme .arguments (c :: cs) := by
  by_cases hequals : c = '='
  · subst hequals
    exact .inr ⟨_, cs, _, rfl, .equals cs⟩
  by_cases hcomma : c = ','
  · subst hcomma
    exact .inr ⟨_, cs, _, rfl, .comma cs⟩
  by_cases hhash : c = '#'
  · subst hhash
    cases cs with
    | nil => exact .inl (.nameless (by simp))
    | cons d ds =>
      by_cases hd : d.isAlpha
      · obtain ⟨more, rest, rfl, hmore, hrest⟩ := exists_span isNameChar ds
        exact .inr ⟨_, rest, _, rfl, .name hd hmore hrest⟩
      · exact .inl (.nameless (by simpa using hd))
  by_cases hquote : c = '"'
  · subst hquote
    by_cases hmem : '"' ∈ cs
    · obtain ⟨value, rest, rfl, hvalue⟩ := List.eq_append_cons_of_mem hmem
      exact .inr ⟨_, rest, _, by simp, .string rest hvalue⟩
    · exact .inl (.quote hmem)
  by_cases hdigit : c.isDigit
  · obtain ⟨more, rest, rfl, hmore, hrest⟩ := exists_span Char.isDigit cs
    exact .inr ⟨_, rest, _, rfl, .number (List.forall_mem_cons.2 ⟨hdigit, hmore⟩) hrest⟩
  · exact .inl (.other cs hc hb hequals hcomma hhash hquote (by simpa using hdigit))

/-- Every character that is not blank is stray or begins a lexeme. -/
theorem stray_or_lexeme (m : Mode) {c : Char} (cs : List Char) (hc : Text.isBlank c = false) :
    Stray m c cs ∨ BeginsLexeme m (c :: cs) := by
  cases hb : bracket? c with
  | some kind => exact .inr ⟨[c], cs, kind, rfl, .bracket cs hb⟩
  | none =>
    cases m with
    | document => exact stray_or_lexeme_document cs hc hb
    | arguments => exact stray_or_lexeme_arguments cs hc hb

/-- **A scanner takes the lexeme at the front.** -/
theorem token?_eq_some_iff {m : Mode} {c : Char} {cs : List Char} {kind : Kind} {n : Nat}
    (hc : Text.isBlank c = false) :
    token? m (c :: cs) = some (kind, n) ↔
      ∃ text rest, c :: cs = text ++ rest ∧ text.length = n ∧ Lexeme m text rest kind := by
  constructor
  · intro h
    obtain hstray | ⟨text, rest, kind', hsplit, hlexeme⟩ := stray_or_lexeme m cs hc
    · rw [hstray.token?_eq] at h
      cases h
    · rw [hsplit, hlexeme.token?_eq] at h
      obtain ⟨rfl, rfl⟩ := Prod.mk.inj (Option.some.inj h)
      exact ⟨text, rest, hsplit, rfl, hlexeme⟩
  · rintro ⟨text, rest, hsplit, rfl, hlexeme⟩
    rw [hsplit, hlexeme.token?_eq]

/-- **A scanner passes over stray characters**, and over no others. -/
theorem token?_eq_none_iff {m : Mode} {c : Char} {cs : List Char}
    (hc : Text.isBlank c = false) : token? m (c :: cs) = none ↔ Stray m c cs := by
  constructor
  · intro h
    obtain hstray | ⟨text, rest, kind, hsplit, hlexeme⟩ := stray_or_lexeme m cs hc
    · exact hstray
    · rw [hsplit, hlexeme.token?_eq] at h
      cases h
  · exact Stray.token?_eq

end Folio
