import Folio.Token.Scan
import Mathlib.Data.List.Chain
import Mathlib.Data.List.TakeWhile

/-!
# What a scan finds

**Scanned to given kinds** (`Scans`). A text is scanned in a mode to tokens of given kinds and to
nothing illegal. Each rule puts a blank or a token in front of a text, so a text that is built from
the back is scanned piece by piece: a lemma about a piece leaves the text behind it open, apart from
what its first character may not be, since that would make the piece longer.

**What tokens are like** (`Kind.Clean`, `texts_apart`). A string token holds no quote. A text token
begins with a character that is not blank and holds none that ends free text. Two text tokens never
follow each other, unless an illegal character lies between them.
-/

namespace Folio

/-! ## Texts and their kinds -/

/-- There is no quote in the text, so it can be written between quotes. -/
def Unquoted (s : String) : Prop := '"' ∉ s.toList

instance (s : String) : Decidable (Unquoted s) := inferInstanceAs (Decidable ('"' ∉ s.toList))

/-- The text can be written as free text. -/
def IsPlain (s : String) : Prop :=
  (∃ c ∈ s.toList.head?, Text.isBlank c = false) ∧ ∀ c ∈ s.toList, endsText c = false

/-- A letter, then letters, digits and underscores. -/
def isArgumentName (s : String) : Bool := s.toList.head?.any Char.isAlpha && s.toList.all isNameChar

/-- What text and string tokens hold. -/
def Kind.Clean : Kind → Prop
  | .text s => IsPlain s
  | .string s => Unquoted s
  | _ => True

def Kind.isText : Kind → Bool
  | .text _ => true
  | _ => false

/-- The text is scanned in the mode to tokens of the kinds, and nothing in it is illegal. -/
inductive Scans : Mode → List Char → List Kind → Prop
  | nil (m : Mode) : Scans m [] []
  | blank {m : Mode} {c : Char} {cs : List Char} {ks : List Kind} :
      Text.isBlank c → Scans m cs ks → Scans m (c :: cs) ks
  | token {m : Mode} {c : Char} {cs : List Char} {kind : Kind} {n : Nat} {ks : List Kind} :
      Text.isBlank c = false → token? m (c :: cs) = some (kind, n) →
      Scans (m.after kind) ((c :: cs).drop n) ks → Scans m (c :: cs) (kind :: ks)

/-! ## The scanner and the rules -/

namespace Scanner

theorem items_of_next?_eq_none {s : Scanner} (h : s.next? = none) : s.items = [] := by
  rw [items]
  split
  · rfl
  · next h' => simp [h] at h'

theorem items_of_next?_eq_some {s t : Scanner} {i : Scanned} (h : s.next? = some (i, t)) :
    s.items = i :: t.items := by
  rw [items]
  split
  · next h' => simp [h] at h'
  · next h' =>
    rw [h, Option.some.injEq, Prod.mk.injEq] at h'
    rw [h'.1, h'.2]

theorem items_congr {s t : Scanner} (h : s.next? = t.next?) : s.items = t.items := by
  cases ht : t.next? with
  | none => rw [items_of_next?_eq_none ht, items_of_next?_eq_none (h.trans ht)]
  | some r => rw [items_of_next?_eq_some ht, items_of_next?_eq_some (h.trans ht)]

theorem skipBlanks_of_not_blank {m : Mode} {p : Position} {c : Char} {cs : List Char}
    (h : Text.isBlank c = false) : (Scanner.mk m p (c :: cs)).skipBlanks = ⟨m, p, c :: cs⟩ := by
  simp [skipBlanks, Text.dropBlanks, h]

theorem skipBlanks_of_blank {m : Mode} {p : Position} {c : Char} {cs : List Char}
    (h : Text.isBlank c) :
    (Scanner.mk m p (c :: cs)).skipBlanks = (Scanner.mk m (p.step c) cs).skipBlanks := by
  simp [skipBlanks, Text.dropBlanks, h]

/-- What the rules say is what the scanner finds, wherever the text begins. -/
theorem items_of_scans {m : Mode} {cs : List Char} {ks : List Kind} (h : Scans m cs ks)
    (p : Position) :
    ∃ ts : List Token, (Scanner.mk m p cs).items = ts.map .token ∧ ts.map (·.kind) = ks := by
  induction h generalizing p with
  | nil m => exact ⟨[], items_of_next?_eq_none rfl, rfl⟩
  | @blank m c cs ks hc _ ih =>
    rw [items_congr (congrArg front? (skipBlanks_of_blank hc))]
    exact ih _
  | @token m c cs kind n ks hc ht _ ih =>
    have hnext : (Scanner.mk m p (c :: cs)).next? =
        some ((Scanner.mk m p (c :: cs)).take kind n) := by
      rw [next?, skipBlanks_of_not_blank hc, front?]
      simp only [ht]
    obtain ⟨ts, hts, hks⟩ := ih (p.advance ((c :: cs).take n))
    have hitems := items_of_next?_eq_some hnext
    rw [hts] at hitems
    exact ⟨_ :: ts, hitems, by rw [List.map_cons, hks]⟩

end Scanner

theorem Scan.ofItems_map_token (ts : List Token) :
    Scan.ofItems (ts.map .token) = ⟨ts, []⟩ := by
  rw [Scan.ofItems, List.filterMap_map, List.filterMap_map]
  congr
  · exact List.filterMap_some
  · exact List.filterMap_eq_nil_iff.2 (by simp)

/-- A text that is scanned to given kinds. -/
theorem Scan.ofSource_of_scans {source : String} {ks : List Kind}
    (h : Scans .document source.toList ks) :
    (Scan.ofSource source).illegal = [] ∧ (Scan.ofSource source).tokens.map (·.kind) = ks := by
  obtain ⟨ts, hitems, hks⟩ := Scanner.items_of_scans h .start
  rw [Scan.ofSource, Scanner.ofSource, hitems, Scan.ofItems_map_token]
  exact ⟨rfl, hks⟩

/-! ## One piece in front of a text -/

theorem takeWhile_append_of_boundary {α : Type} {p : α → Bool} {as bs : List α}
    (has : ∀ a ∈ as, p a) (hbs : ∀ b ∈ bs.head?, p b = false) :
    (as ++ bs).takeWhile p = as := by
  rw [List.takeWhile_append_of_pos has]
  cases bs with
  | nil => simp
  | cons b bs => simp [hbs b rfl]

section Pieces

variable {m : Mode} {rest : List Char} {ks : List Kind}

/-- A token that is written `c :: cs`. -/
theorem scans_piece {c : Char} {cs : List Char} {kind : Kind} (hc : Text.isBlank c = false)
    (ht : token? m (c :: cs ++ rest) = some (kind, 1 + cs.length))
    (h : Scans (m.after kind) rest ks) : Scans m (c :: cs ++ rest) (kind :: ks) := by
  refine .token hc ht ?_
  rw [Nat.add_comm, List.drop_succ_cons]
  exact List.drop_left.symm ▸ h

/-! ### Punctuation and keywords -/

theorem scans_bracket {c : Char} {kind : Kind} (hc : bracket? c = some kind)
    (h : Scans (m.after kind) rest ks) : Scans m (c :: rest) (kind :: ks) := by
  have hblank : Text.isBlank c = false := by
    unfold bracket? at hc
    split_ifs at hc with h₁ h₂ h₃ h₄ <;> subst c <;> rfl
  have ht : token? m (c :: rest) = some (kind, 1) := by simp [token?, hc]
  exact .token hblank ht h

theorem scans_openParen (h : Scans .arguments rest ks) :
    Scans m ('(' :: rest) (.openParen :: ks) := scans_bracket rfl h

theorem scans_closeParen (h : Scans .document rest ks) :
    Scans m (')' :: rest) (.closeParen :: ks) := scans_bracket rfl h

theorem scans_openBrace (h : Scans m rest ks) : Scans m ('\x7b' :: rest) (.openBrace :: ks) :=
  scans_bracket rfl h

theorem scans_closeBrace (h : Scans m rest ks) : Scans m ('\x7d' :: rest) (.closeBrace :: ks) :=
  scans_bracket rfl h

theorem scans_equals (h : Scans .arguments rest ks) :
    Scans .arguments ('=' :: rest) (.equals :: ks) :=
  .token rfl rfl h

/-- A comma with the blank behind it. -/
theorem scans_comma (h : Scans .arguments rest ks) :
    Scans .arguments (',' :: ' ' :: rest) (.comma :: ks) :=
  .token rfl rfl (.blank rfl h)

theorem atFront?_name_append (k : Keyword) (cs : List Char) :
    Keyword.atFront? (k.name.toList ++ cs) = some k := by
  have hk : k.name.toList.isPrefixOf (k.name.toList ++ cs) := by simp
  cases hf : Keyword.atFront? (k.name.toList ++ cs) with
  | none => exact absurd hk (List.find?_eq_none.1 hf k (Keyword.mem_all k))
  | some j =>
    have hj := List.find?_some hf
    rw [List.isPrefixOf_iff_prefix] at hj
    rcases List.prefix_or_prefix_of_prefix hj (List.prefix_append _ cs) with h | h
    · rw [Keyword.eq_of_name_isPrefixOf (List.isPrefixOf_iff_prefix.2 h)]
    · rw [Keyword.eq_of_name_isPrefixOf (List.isPrefixOf_iff_prefix.2 h)]

theorem token?_document {c : Char} {cs : List Char} (h : bracket? c = none) :
    token? .document (c :: cs) = documentToken? (c :: cs) := by
  simp [token?, h]

theorem token?_arguments {c : Char} {cs : List Char} (h : bracket? c = none) :
    token? .arguments (c :: cs) = argumentToken? (c :: cs) := by
  simp [token?, h]

theorem scans_keyword (k : Keyword) (h : Scans .document rest ks) :
    Scans .document (k.text.toList ++ rest) (.keyword k :: ks) := by
  rw [show k.text.toList = '$' :: k.name.toList by simp [Keyword.text]]
  refine scans_piece rfl ?_ h
  rw [List.cons_append, token?_document rfl]
  simp [documentToken?, atFront?_name_append, String.length_toList]

/-! ### Arguments -/

/-- A name ends where a character comes that no name has. -/
theorem scans_argumentName {name : String} (hname : isArgumentName name)
    (hrest : ∀ c ∈ rest.head?, isNameChar c = false) (h : Scans .arguments rest ks) :
    Scans .arguments ('#' :: name.toList ++ rest) (.argumentName name :: ks) := by
  obtain ⟨hhead, hall⟩ := Bool.and_eq_true_iff.1 hname
  obtain ⟨c, hc, halpha⟩ := (Option.any_eq_true _ _).1 hhead
  obtain ⟨cs, hcs⟩ := List.head?_eq_some_iff.1 hc
  have hmore : (cs ++ rest).takeWhile isNameChar = cs :=
    takeWhile_append_of_boundary
      (fun d hd => List.all_eq_true.1 hall d (hcs ▸ List.mem_cons_of_mem c hd)) hrest
  have hofList : String.ofList (c :: cs) = name := by rw [← hcs, String.ofList_toList]
  rw [hcs]
  refine scans_piece rfl ?_ h
  rw [List.cons_append, token?_arguments rfl]
  simp [argumentToken?, hmore, hofList, halpha]
  omega

theorem scans_string {v : String} (hv : Unquoted v) (h : Scans .arguments rest ks) :
    Scans .arguments ('"' :: v.toList ++ '"' :: rest) (.string v :: ks) := by
  have hvalue : (v.toList ++ '"' :: rest).takeWhile (· != '"') = v.toList :=
    takeWhile_append_of_boundary (fun d hd => bne_iff_ne.2 fun heq => hv (heq ▸ hd)) (by simp)
  rw [show '"' :: v.toList ++ '"' :: rest = '"' :: (v.toList ++ ['"']) ++ rest by simp]
  refine scans_piece rfl ?_ h
  rw [List.cons_append, token?_arguments rfl]
  simp [argumentToken?, hvalue]
  omega

theorem isBlank_of_isDigit {c : Char} (h : c.isDigit) : Text.isBlank c = false := by
  simp only [Char.isDigit, Bool.and_eq_true, decide_eq_true_eq] at h
  have hmin : 48 ≤ c.toNat := h.1
  have hmax : c.toNat ≤ 57 := h.2
  simp only [Text.isBlank, Bool.or_eq_false_iff, Bool.and_eq_false_iff, beq_eq_false_iff_ne,
    decide_eq_false_iff_not]
  omega

theorem bracket?_of_endsText {c : Char} (h : endsText c = false) : bracket? c = none := by
  simp_all [endsText, bracket?]

theorem endsText_of_isDigit {c : Char} (h : c.isDigit) : endsText c = false := by
  simp only [endsText, Bool.or_eq_false_iff, beq_eq_false_iff_ne]
  refine ⟨⟨⟨⟨⟨?_, ?_⟩, ?_⟩, ?_⟩, ?_⟩, ?_⟩ <;> rintro rfl <;> exact absurd h (by decide)

theorem argumentToken?_number {c : Char} {cs : List Char} (h : c.isDigit) :
    argumentToken? (c :: cs) =
      some (.number (min (Text.decimal (c :: cs.takeWhile Char.isDigit)) Text.maxInt64),
        1 + (cs.takeWhile Char.isDigit).length) := by
  unfold argumentToken?
  split <;> simp_all

/-- A number ends where no digit comes. -/
theorem scans_number {n : Nat} (hn : (n : Int) ≤ Text.maxInt64)
    (hrest : ∀ c ∈ rest.head?, c.isDigit = false) (h : Scans .arguments rest ks) :
    Scans .arguments ((toString (n : Int)).toList ++ rest) (.number n :: ks) := by
  have hdigits : (toString (n : Int)).toList = Nat.toDigits 10 n := Nat.toList_repr
  have hvalue : Text.decimal (Nat.toDigits 10 n) = n := Nat.ofDigitChars_ten_toDigits
  have hall : ∀ d ∈ Nat.toDigits 10 n, d.isDigit := fun d =>
    Nat.isDigit_of_mem_toDigits (by decide) (by decide)
  obtain ⟨c, cs, hcs⟩ := List.exists_cons_of_ne_nil (Nat.toDigits_ne_nil (n := n) (b := 10))
  rw [hdigits, hcs]
  rw [hcs] at hvalue hall
  obtain ⟨hc, hcs⟩ := List.forall_mem_cons.1 hall
  have hmore : (cs ++ rest).takeWhile Char.isDigit = cs := takeWhile_append_of_boundary hcs hrest
  refine scans_piece (isBlank_of_isDigit hc) ?_ h
  rw [List.cons_append, token?_arguments (bracket?_of_endsText (endsText_of_isDigit hc)),
    argumentToken?_number hc, hmore, hvalue, Int.min_eq_left hn]

/-! ### Free text -/

theorem documentToken?_text {c : Char} {cs : List Char} (h : endsText c = false) :
    documentToken? (c :: cs) =
      some (.text (String.ofList (c :: cs.takeWhile fun d => !endsText d)),
        1 + (cs.takeWhile fun d => !endsText d).length) := by
  unfold documentToken?
  split <;> simp_all [endsText]

/-- Free text ends where a character comes that ends it. -/
theorem scans_text {s : String} (hs : IsPlain s) (hrest : ∀ c ∈ rest.head?, endsText c)
    (h : Scans .document rest ks) : Scans .document (s.toList ++ rest) (.text s :: ks) := by
  obtain ⟨⟨c, hc, hblank⟩, hplain⟩ := hs
  obtain ⟨cs, hcs⟩ := List.head?_eq_some_iff.1 hc
  rw [hcs] at hplain
  obtain ⟨hends, hplain⟩ := List.forall_mem_cons.1 hplain
  have hmore : (cs ++ rest).takeWhile (fun d => !endsText d) = cs :=
    takeWhile_append_of_boundary (fun d hd => by simp [hplain d hd])
      fun d hd => by simp [hrest d hd]
  rw [hcs]
  refine scans_piece hblank ?_ h
  rw [List.cons_append, token?_document (bracket?_of_endsText hends), documentToken?_text hends,
    hmore, ← hcs, String.ofList_toList]

end Pieces

/-! ## What is found in any text -/

theorem drop_length_takeWhile {α : Type} (p : α → Bool) (l : List α) :
    l.drop (l.takeWhile p).length = l.dropWhile p := by
  calc
    l.drop (l.takeWhile p).length = (l.takeWhile p ++ l.dropWhile p).drop (l.takeWhile p).length := by
      rw [List.takeWhile_append_dropWhile]
    _ = l.dropWhile p := List.drop_left

theorem not_of_mem_head?_dropWhile {α : Type} {p : α → Bool} {l : List α} {a : α}
    (h : a ∈ (l.dropWhile p).head?) : p a = false := by
  have hl := List.head?_dropWhile_not p l
  rwa [Option.mem_def.1 h] at hl

theorem isText_of_bracket? {c : Char} {kind : Kind} (h : bracket? c = some kind) :
    kind.isText = false ∧ kind.Clean := by
  unfold bracket? at h
  split_ifs at h <;> cases h <;> exact ⟨rfl, trivial⟩

theorem endsText_of_bracket? {c : Char} (h : bracket? c = none) (hdollar : c ≠ '$')
    (hhash : c ≠ '#') : endsText c = false := by
  unfold bracket? at h
  split_ifs at h with h₁ h₂ h₃ h₄
  simp [endsText, *]

theorem documentToken?_eq_some {c : Char} {cs : List Char} {kind : Kind} {n : Nat}
    (hc : bracket? c = none) (h : documentToken? (c :: cs) = some (kind, n)) :
    (∃ k, kind = .keyword k) ∨ endsText c = false ∧
      kind = .text (String.ofList (c :: cs.takeWhile fun d => !endsText d)) ∧
        n = 1 + (cs.takeWhile fun d => !endsText d).length := by
  by_cases hdollar : c = '$'
  · subst hdollar
    obtain ⟨k, -, hk⟩ := Option.map_eq_some_iff.1 h
    exact .inl ⟨k, (congrArg Prod.fst hk).symm⟩
  by_cases hhash : c = '#'
  · subst hhash
    cases h
  have hends := endsText_of_bracket? hc hdollar hhash
  rw [documentToken?_text hends] at h
  cases h
  exact .inr ⟨hends, rfl, rfl⟩

theorem argumentToken?_clean {cs : List Char} {kind : Kind} {n : Nat}
    (h : argumentToken? cs = some (kind, n)) : kind.isText = false ∧ kind.Clean := by
  unfold argumentToken? at h
  split at h
  · cases h; exact ⟨rfl, trivial⟩
  · cases h; exact ⟨rfl, trivial⟩
  · split_ifs at h
    cases h; exact ⟨rfl, trivial⟩
  · next cs =>
    simp only at h
    split_ifs at h
    cases h
    refine ⟨rfl, fun hmem => ?_⟩
    rw [String.toList_ofList] at hmem
    simpa using List.mem_takeWhile_imp hmem
  · split_ifs at h
    cases h; exact ⟨rfl, trivial⟩
  · cases h

theorem clean_of_token? {m : Mode} {c : Char} {cs : List Char} {kind : Kind} {n : Nat}
    (hblank : Text.isBlank c = false) (h : token? m (c :: cs) = some (kind, n)) : kind.Clean := by
  cases hb : bracket? c with
  | some k =>
    simp only [token?, List.head?_cons, Option.bind_some, hb] at h
    cases h
    exact (isText_of_bracket? hb).2
  | none =>
    cases m with
    | arguments =>
      rw [token?_arguments hb] at h
      exact (argumentToken?_clean h).2
    | document =>
      rw [token?_document hb] at h
      obtain ⟨k, rfl⟩ | ⟨hends, rfl, -⟩ := documentToken?_eq_some hb h
      · trivial
      · refine ⟨⟨c, by simp, hblank⟩, ?_⟩
        rw [String.toList_ofList, List.forall_mem_cons]
        exact ⟨hends, fun d hd => by simpa using List.mem_takeWhile_imp hd⟩

theorem isBlank_of_endsText {c : Char} (h : endsText c) : Text.isBlank c = false := by
  simp only [endsText, Bool.or_eq_true, beq_iff_eq] at h
  rcases h with ((((rfl | rfl) | rfl) | rfl) | rfl) | rfl <;> rfl

/-- A text does not begin where one may end, and ends only there. -/
theorem endsText_of_token? {m : Mode} {c : Char} {cs : List Char} {kind : Kind} {n : Nat}
    (h : token? m (c :: cs) = some (kind, n)) (hk : kind.isText) :
    endsText c = false ∧ ∀ d ∈ ((c :: cs).drop n).head?, endsText d := by
  cases hb : bracket? c with
  | some k =>
    simp only [token?, List.head?_cons, Option.bind_some, hb] at h
    cases h
    simp [(isText_of_bracket? hb).1] at hk
  | none =>
    cases m with
    | arguments =>
      rw [token?_arguments hb] at h
      simp [(argumentToken?_clean h).1] at hk
    | document =>
      rw [token?_document hb] at h
      obtain ⟨k, rfl⟩ | ⟨hends, -, rfl⟩ := documentToken?_eq_some hb h
      · cases hk
      · refine ⟨hends, fun d hd => ?_⟩
        rw [Nat.add_comm, List.drop_succ_cons, drop_length_takeWhile] at hd
        simpa using not_of_mem_head?_dropWhile hd

/-! ## Tokens -/

namespace Scanned

def Clean : Scanned → Prop
  | token t => t.kind.Clean
  | illegal _ => True

def isText : Scanned → Bool
  | token t => t.kind.isText
  | illegal _ => false

end Scanned

namespace Scanner

theorem next?_eq_some {s t : Scanner} {i : Scanned} (h : s.next? = some (i, t)) :
    ∃ c cs, Text.dropBlanks s.rest = c :: cs ∧ Text.isBlank c = false ∧
      ∀ tok, i = .token tok →
        ∃ n, token? s.mode (c :: cs) = some (tok.kind, n) ∧ t.rest = (c :: cs).drop n := by
  cases hrest : Text.dropBlanks s.rest with
  | nil => simp [next?, front?, skipBlanks, hrest] at h
  | cons c cs =>
    have hc : c ∈ (Text.dropBlanks s.rest).head? := by rw [hrest]; rfl
    refine ⟨c, cs, rfl, not_of_mem_head?_dropWhile hc, ?_⟩
    rintro tok rfl
    simp only [next?, front?, skipBlanks, hrest] at h
    split at h
    · next kind n hk =>
      simp only [take] at h
      cases h
      exact ⟨n, hk, rfl⟩
    · cases h

theorem clean_items (s : Scanner) : ∀ i ∈ s.items, i.Clean := by
  induction s using items.induct with
  | case1 s h =>
    rw [items_of_next?_eq_none h]
    exact List.forall_mem_nil _
  | case2 s i t h ih =>
    rw [items_of_next?_eq_some h]
    refine List.forall_mem_cons.2 ⟨?_, ih⟩
    obtain ⟨c, cs, -, hc, htok⟩ := next?_eq_some h
    cases i with
    | illegal e => trivial
    | token tok =>
      obtain ⟨n, hn, -⟩ := htok tok rfl
      exact clean_of_token? hc hn

/-- Where a text may end, none begins. -/
theorem isText_of_next? {s t : Scanner} {i : Scanned} (hs : ∀ c ∈ s.rest.head?, endsText c)
    (h : s.next? = some (i, t)) : i.isText = false := by
  obtain ⟨c, cs, hdrop, -, htok⟩ := next?_eq_some h
  cases i with
  | illegal e => rfl
  | token tok =>
    obtain ⟨n, hn, -⟩ := htok tok rfl
    cases hrest : s.rest with
    | nil => simp [hrest, Text.dropBlanks] at hdrop
    | cons d ds =>
      have hd : endsText d := hs d (by rw [hrest]; rfl)
      rw [hrest, Text.dropBlanks, List.dropWhile_cons_of_neg (by simp [isBlank_of_endsText hd])]
        at hdrop
      obtain ⟨rfl, rfl⟩ := List.cons.inj hdrop
      by_contra hk
      have hc := (endsText_of_token? hn (Bool.not_eq_false _ ▸ hk)).1
      simp [hd] at hc

theorem texts_apart_items (s : Scanner) :
    s.items.IsChain fun i j => ¬ (i.isText ∧ j.isText) := by
  induction s using items.induct with
  | case1 s h =>
    rw [items_of_next?_eq_none h]
    exact .nil
  | case2 s i t h ih =>
    rw [items_of_next?_eq_some h]
    refine List.isChain_cons.2 ⟨fun j hj => ?_, ih⟩
    rintro ⟨hi, hj'⟩
    cases i with
    | illegal e => cases hi
    | token tok =>
      obtain ⟨c, cs, -, -, htok⟩ := next?_eq_some h
      obtain ⟨n, hn, hrest⟩ := htok tok rfl
      have hbound := (endsText_of_token? hn hi).2
      rw [← hrest] at hbound
      cases ht : t.next? with
      | none => simp [items_of_next?_eq_none ht] at hj
      | some r =>
        rw [items_of_next?_eq_some ht] at hj
        obtain rfl := Option.some.inj hj
        simp [isText_of_next? hbound ht] at hj'

end Scanner

/-- The tokens of a source are clean. -/
theorem clean_tokens (source : String) :
    ∀ t ∈ (Scan.ofSource source).tokens, t.kind.Clean := by
  intro t ht
  obtain ⟨i, hi, hit⟩ := List.mem_filterMap.1 ht
  cases i with
  | illegal e => cases hit
  | token tok =>
    cases hit
    exact Scanner.clean_items _ _ hi

/-- **Texts stand apart** in a source without illegal characters. -/
theorem texts_apart {source : String} (h : (Scan.ofSource source).illegal = []) :
    ((Scan.ofSource source).tokens.map (·.kind)).IsChain fun j k => ¬ (j.isText ∧ k.isText) := by
  have hitems : ∀ is : List Scanned, (Scan.ofItems is).illegal = [] →
      is = (Scan.ofItems is).tokens.map .token := by
    intro is his
    induction is with
    | nil => rfl
    | cons i is ih =>
      cases i with
      | illegal e => cases his
      | token t => exact congrArg (Scanned.token t :: ·) (ih his)
  have hchain := Scanner.texts_apart_items (.ofSource source)
  rw [hitems _ h, List.isChain_map] at hchain
  rw [List.isChain_map]
  exact hchain

end Folio
