import Folio.Compilation
import Folio.Proofs.Seam

/-!
# One document behind another

Two documents, one written behind the other, make a document with the instructions of both
(`documents_append`). Behind the seam everything is found where it was, as many lines and bytes
later.

**At the seam** the first document ends with a closing parenthesis or brace, which does not go on.
The second begins with a blank or a sigil, so no stray sigil of the first begins a token with it.

**An open quote** (`OpensQuote`) is the one thing that reaches across the seam. A quote that is not
closed is passed over. If the second document has a quote, the two make a string, and other tokens
are found. So this is excluded, and `documents_append` says that it has to be.
-/

namespace Folio

/-! ## A scan from a later position -/

namespace Position

/-- Lines and columns are counted from one. -/
def Counted (p : Position) : Prop := 0 < p.line ∧ 0 < p.column

theorem counted_start : start.Counted := ⟨Nat.one_pos, Nat.one_pos⟩

theorem Counted.step {p : Position} (h : p.Counted) (c : Char) : (p.step c).Counted := by
  unfold Position.step
  split
  · exact ⟨Nat.succ_pos _, Nat.one_pos⟩
  · exact ⟨h.1, Nat.succ_pos _⟩

theorem Counted.advance {p : Position} (h : p.Counted) (cs : List Char) :
    (p.advance cs).Counted := by
  induction cs generalizing p with
  | nil => exact h
  | cons c cs ih => exact ih (h.step c)

/-- Where the position comes to be if the text begins at `p`. -/
def shift (p q : Position) : Position :=
  ⟨p.line + q.line - 1, if q.line = 1 then p.column + q.column - 1 else q.column,
    p.offset + q.offset⟩

theorem shift_step (p : Position) {q : Position} (hq : q.Counted) (c : Char) :
    p.shift (q.step c) = (p.shift q).step c := by
  obtain ⟨line, column, offset⟩ := q
  obtain ⟨hline, hcolumn⟩ := hq
  simp only at hline hcolumn
  unfold Position.step shift
  by_cases hc : c = '\n'
  · simp only [hc, if_true, mk.injEq]
    refine ⟨by omega, ?_, by omega⟩
    rw [if_neg (by omega)]
  · simp only [hc, if_false, mk.injEq]
    refine ⟨trivial, ?_, by omega⟩
    by_cases hone : line = 1
    · rw [if_pos hone, if_pos hone]
      omega
    · rw [if_neg hone, if_neg hone]

theorem shift_advance (p : Position) {q : Position} (hq : q.Counted) (cs : List Char) :
    p.shift (q.advance cs) = (p.shift q).advance cs := by
  induction cs generalizing q with
  | nil => rfl
  | cons c cs ih => rw [advance_cons, advance_cons, ih (hq.step c), shift_step p hq]

end Position

/-- The token if the text begins at `p`. -/
def Token.shift (p : Position) (t : Token) : Token :=
  ⟨t.kind, t.text, p.line + t.line - 1, p.offset + t.first, p.offset + t.past⟩

def IllegalCharacter.shift (p : Position) (e : IllegalCharacter) : IllegalCharacter :=
  ⟨e.character, p.shift e.position⟩

def Scanned.shift (p : Position) : Scanned → Scanned
  | token t => token (t.shift p)
  | illegal e => illegal (e.shift p)

theorem Token.shift_placed (p : Position) {q : Position} (hq : q.Counted) (kind : Kind)
    (text : List Char) : (Token.placed kind q text).shift p = .placed kind (p.shift q) text := by
  rw [Token.placed, Token.placed, ← Position.shift_advance p hq]
  rfl

/-- The same is found, wherever the text begins. -/
theorem finds_shift (p : Position) {m : Mode} {q : Position} {cs : List Char} {is : List Scanned}
    (h : Finds m q cs is) (hq : q.Counted) :
    Finds m (p.shift q) cs (is.map (Scanned.shift p)) := by
  induction h with
  | nil => exact .nil _ _
  | @blank m q c cs is hc _ ih =>
    refine .blank hc ?_
    rw [← Position.shift_step p hq]
    exact ih (hq.step c)
  | @token m q text rest kind is hlexeme _ ih =>
    rw [List.map_cons, Scanned.shift, Token.shift_placed p hq]
    refine .token hlexeme ?_
    rw [← Position.shift_advance p hq]
    exact ih (hq.advance text)
  | @illegal m q c cs is hstray _ ih =>
    refine .illegal hstray ?_
    rw [← Position.shift_step p hq]
    exact ih (hq.step c)

/-! ## The seam -/

/-- A character that a document may begin with. -/
def isSeam (c : Char) : Bool := Text.isBlank c || c == '#' || c == '$'

theorem isBlank_of_isNameChar {c : Char} (h : isNameChar c) : Text.isBlank c = false := by
  have hrange : 48 ≤ c.toNat ∧ c.toNat ≤ 122 := by
    rcases Bool.or_eq_true_iff.1 h with halphanum | hunderscore
    · rcases Bool.or_eq_true_iff.1 halphanum with halpha | hdigit
      · rcases Bool.or_eq_true_iff.1 halpha with hupper | hlower
        · obtain ⟨hmin, hmax⟩ := of_decide_eq_true hupper
          exact ⟨Nat.le_trans (by decide) hmin, Nat.le_trans hmax (by decide)⟩
        · obtain ⟨hmin, hmax⟩ := Bool.and_eq_true_iff.1 hlower
          exact ⟨Nat.le_trans (by decide) (of_decide_eq_true hmin),
            Nat.le_trans (of_decide_eq_true hmax) (by decide)⟩
      · obtain ⟨hmin, hmax⟩ := Char.isDigit_iff_toNat.1 hdigit
        exact ⟨hmin, Nat.le_trans hmax (by decide)⟩
    · rw [eq_of_beq hunderscore]
      decide
  simp only [Text.isBlank, Bool.or_eq_false_iff, Bool.and_eq_false_iff, beq_eq_false_iff_ne,
    decide_eq_false_iff_not]
  omega

theorem isNameChar_of_isSeam {c : Char} (h : isSeam c) : isNameChar c = false := by
  by_contra hname
  rw [Bool.not_eq_false] at hname
  simp only [isSeam, Bool.or_eq_true, beq_iff_eq] at h
  rcases h with (h | rfl) | rfl
  · simp [isBlank_of_isNameChar hname] at h
  · cases hname
  · cases hname

theorem isNameChar_of_mem_name (k : Keyword) {c : Char} (h : c ∈ k.name.toList) : isNameChar c := by
  have hall : k.name.toList.all isNameChar := by
    rcases k with k | k | k <;> cases k <;> decide
  exact List.all_eq_true.1 hall c h

section Seam

variable {b : List Char} (hb : ∀ c ∈ b.head?, isSeam c)

include hb

/-- No keyword runs over the seam. -/
theorem not_name_prefix_append (k : Keyword) {rest : List Char} (h : ¬ k.name.toList <+: rest) :
    ¬ k.name.toList <+: rest ++ b := by
  intro hk
  rcases List.prefix_or_prefix_of_prefix hk (List.prefix_append rest b) with hrest | ⟨more, hmore⟩
  · exact h hrest
  rw [← hmore, List.prefix_append_right_inj] at hk
  cases more with
  | nil => exact h ⟨[], by rw [← hmore]; simp⟩
  | cons c more =>
    obtain ⟨_, rfl⟩ := hk
    have hc : isNameChar c := isNameChar_of_mem_name k (hmore ▸ by simp)
    simp [isNameChar_of_isSeam (hb c rfl)] at hc

/-- A stray character stays stray, unless it is an open quote that is closed behind the seam. -/
theorem Stray.append {m : Mode} {c : Char} {rest : List Char} (h : Stray m c rest)
    (hquote : c = '"' → '"' ∉ b) : Stray m c (rest ++ b) := by
  cases h with
  | hash => exact .hash _
  | dollar hk => exact .dollar fun k => not_name_prefix_append hb k (hk k)
  | nameless hrest =>
    refine .nameless (forall_head?_append hrest fun _ d hd => ?_)
    have hdname := isNameChar_of_isSeam (hb d hd)
    simp only [isNameChar, Char.isAlphanum, Bool.or_eq_false_iff] at hdname
    exact hdname.1.1
  | quote hrest => exact .quote (by simp [hrest, hquote rfl])
  | other _ hc hbracket hequals hcomma hhash hquote' hdigit =>
    exact .other _ hc hbracket hequals hcomma hhash hquote' hdigit

end Seam

/-! ## An open quote -/

/-- Where there is no quote there is no string. -/
theorem string_notMem_kindsOf {m : Mode} {p : Position} {cs : List Char} {is : List Scanned}
    (h : Finds m p cs is) (hcs : '"' ∉ cs) (v : String) : .string v ∉ kindsOf is := by
  induction h with
  | nil => exact List.not_mem_nil
  | blank _ _ ih => exact ih fun hmem => hcs (List.mem_cons_of_mem _ hmem)
  | @token m p text rest kind is hlexeme _ ih =>
    rw [kindsOf_token, List.mem_cons, not_or]
    refine ⟨?_, ih fun hmem => hcs (List.mem_append_right _ hmem)⟩
    rintro hkind
    change Kind.string v = kind at hkind
    subst hkind
    cases hlexeme with
    | bracket _ hc =>
      unfold bracket? at hc
      split_ifs at hc <;> cases hc
    | string => simp at hcs
  | illegal _ _ ih => exact ih fun hmem => hcs (List.mem_cons_of_mem _ hmem)

/-- In front of a quote an open one begins a string, which was not there. -/
theorem exists_finds_ne {b : List Char} (hb : ∀ c ∈ b.head?, isSeam c) {m : Mode} {p : Position}
    {a : List Char} {is : List Scanned} (h : Finds m p a is)
    (hleads : LeadsTo m .document b (kindsOf is)) (hopen : '"' ∈ straysOf is)
    (hquote : '"' ∈ b) :
    ∃ js, Finds m p (a ++ b) js ∧ ∀ ks, kindsOf js ≠ kindsOf is ++ ks := by
  induction h with
  | nil m p => cases hopen
  | blank hc _ ih =>
    obtain ⟨js, hjs, hne⟩ := ih hleads hopen
    exact ⟨js, .blank hc hjs, hne⟩
  | @token m p text rest kind is hlexeme hrest ih =>
    obtain ⟨js, hjs, hne⟩ := ih hleads.tail hopen
    refine ⟨.token (.placed kind p text) :: js, ?_, fun ks heq => hne ks (List.cons.inj heq).2⟩
    rw [List.append_assoc]
    exact .token (hlexeme.append (hleads.stopsAt hrest)) hjs
  | @illegal m p c cs is hstray hcs ih =>
    by_cases hc : c = '"'
    · subst hc
      cases hstray with
      | other => contradiction
      | quote hnone =>
        obtain ⟨value, behind, hsplit, hvalue⟩ :=
          List.eq_append_cons_of_mem (List.mem_append_right cs hquote)
        let text := '"' :: value ++ ['"']
        have htext : '"' :: cs ++ b = text ++ behind := by simp [text, hsplit]
        have hfinds : Finds .arguments p (text ++ behind) _ :=
          .token (.string behind hvalue) (Scanner.finds_items _ _ behind)
        refine ⟨_, htext ▸ hfinds, fun ks heq => ?_⟩
        rw [kindsOf_illegal] at hleads heq
        -- An argument list is open here, so a token follows in the first text.
        cases hkinds : kindsOf is with
        | nil =>
          have hmode := hleads.mode
          rw [hkinds] at hmode
          cases hmode
        | cons k more =>
          rw [kindsOf_token, hkinds] at heq
          have hk : Kind.string (String.ofList value) = k := (List.cons.inj heq).1
          refine string_notMem_kindsOf hcs hnone (String.ofList value) ?_
          rw [hkinds, hk]
          exact List.mem_cons_self
    · rw [straysOf_illegal, List.mem_cons] at hopen
      obtain ⟨js, hjs, hne⟩ := ih hleads (hopen.resolve_left (Ne.symm hc))
      exact ⟨_, .illegal (hstray.append hb fun h => absurd h hc) hjs, hne⟩

/-! ## Documents -/

theorem head?_of_derives {trees : List Tree} {ts : List Token} (h : Derives trees ts) :
    ∃ k ks, ts.map (·.kind) = .keyword k :: ks := by
  obtain ⟨hne, hleaves⟩ := h
  obtain ⟨t, trees, rfl⟩ := List.exists_cons_of_ne_nil hne
  obtain ⟨k, line, ls, ht⟩ := t.exists_first
  rw [← Token.kinds_leaves, hleaves, List.flatMap_cons, ht]
  exact ⟨k, _, rfl⟩

/-- Where the first token is a keyword, the text begins with a blank or a sigil. -/
theorem isSeam_of_finds {p : Position} {b : List Char} {is : List Scanned}
    (h : Finds .document p b is) {k : Keyword} {ks : List Kind}
    (hk : kindsOf is = .keyword k :: ks) : ∀ c ∈ b.head?, isSeam c := by
  cases h with
  | nil => simp
  | blank hc =>
    rintro _ ⟨⟩
    simp [isSeam, hc]
  | token hlexeme =>
    rw [kindsOf_token] at hk
    obtain ⟨hkind, -⟩ := List.cons.inj hk
    rw [Token.placed] at hkind
    subst hkind
    cases hlexeme with
    | keyword => rintro _ ⟨⟩; rfl
    | bracket rest hc => exact absurd hc (by unfold bracket?; split_ifs <;> simp)
  | illegal hstray =>
    rintro _ ⟨⟩
    cases hstray <;> rfl

/-! ## One document behind another -/

/-- The tokens of two documents in turn are a document. -/
theorem read_append {ts us : List Token} {is js : List Instruction}
    (hts : Instruction.read ts = .ok is) (hus : Instruction.read us = .ok js) :
    Instruction.read (ts ++ us) = .ok (is ++ js) := by
  obtain ⟨as, ⟨hne, has⟩, rfl⟩ := read_eq_ok_iff.1 hts
  obtain ⟨bs, ⟨-, hbs⟩, rfl⟩ := read_eq_ok_iff.1 hus
  refine read_eq_ok_iff.2 ⟨as ++ bs, ⟨by simp [hne], ?_⟩, List.map_append.symm⟩
  rw [List.map_append, has, hbs, List.flatMap_append]

theorem read_congr {ts us : List Token} {is : List Instruction}
    (h : ts.map Token.leaf = us.map Token.leaf) (hts : Instruction.read ts = .ok is) :
    Instruction.read us = .ok is := by
  obtain ⟨trees, ⟨hne, hleaves⟩, his⟩ := read_eq_ok_iff.1 hts
  exact read_eq_ok_iff.2 ⟨trees, ⟨hne, h ▸ hleaves⟩, his⟩

/-- Tokens that are moved are read as instructions some lines later. -/
theorem read_shift (p : Position) {ts : List Token} {is : List Instruction}
    (h : Instruction.read ts = .ok is) :
    Instruction.read (ts.map (Token.shift p)) =
      .ok (is.map (Instruction.mapLine fun line => p.line + line - 1)) := by
  have hmap := (read_mapLine_eq_ok_iff fun line => p.line + line - 1).2 ⟨is, h, rfl⟩
  refine read_congr ?_ hmap
  rw [List.map_map, List.map_map]
  rfl

theorem Scan.ofItems_append (is js : List Scanned) :
    Scan.ofItems (is ++ js) =
      ⟨(ofItems is).tokens ++ (ofItems js).tokens, (ofItems is).illegal ++ (ofItems js).illegal⟩ := by
  rw [ofItems, List.filterMap_append, List.filterMap_append]
  rfl

theorem Scan.ofItems_shift (p : Position) (is : List Scanned) :
    Scan.ofItems (is.map (Scanned.shift p)) =
      ⟨(ofItems is).tokens.map (Token.shift p),
        (ofItems is).illegal.map (IllegalCharacter.shift p)⟩ := by
  rw [ofItems, ofItems, List.filterMap_map, List.filterMap_map, List.map_filterMap,
    List.map_filterMap]
  congr 2
  · funext i
    cases i <;> rfl
  · funext i
    cases i <;> rfl

/-- There is a quote in the source that is not closed, where an argument was to begin. -/
def OpensQuote (source : String) : Prop :=
  ∃ e ∈ (Scan.ofSource source).illegal, e.character = '"'

instance (source : String) : Decidable (OpensQuote source) :=
  inferInstanceAs (Decidable (∃ e ∈ (Scan.ofSource source).illegal, e.character = '"'))

theorem mapLine_start_advance (a : String) (is : List Instruction) :
    is.map (Instruction.mapLine fun line => (Position.start.advance a.toList).line + line - 1) =
      is.map (Instruction.mapLine (· + a.toList.count '\n')) := by
  have hline : (fun line => (Position.start.advance a.toList).line + line - 1) =
      (· + a.toList.count '\n') := by
    funext line
    rw [Position.line_advance]
    show 1 + _ + line - 1 = _
    omega
  rw [hline]

theorem finds_ofSource (source : String) :
    Finds .document .start source.toList (Scanner.ofSource source).items :=
  Scanner.finds_items _ _ _

theorem leadsTo_of_ofSource {a : String} {is : List Instruction}
    (ha : Instruction.ofSource a = .ok is) (b : List Char) :
    LeadsTo .document .document b (kindsOf (Scanner.ofSource a).items) := by
  obtain ⟨trees, ⟨-, hleaves⟩, -⟩ := read_eq_ok_iff.1 ha
  have hleads := leadsTo_of_leaves b trees
  rwa [← hleaves, Token.kinds_leaves] at hleads

theorem isSeam_of_ofSource {a : String} {is : List Instruction}
    (ha : Instruction.ofSource a = .ok is) : ∀ c ∈ a.toList.head?, isSeam c := by
  obtain ⟨trees, htrees, -⟩ := read_eq_ok_iff.1 ha
  obtain ⟨k, ks, hk⟩ := head?_of_derives htrees
  exact isSeam_of_finds (finds_ofSource a) hk

theorem quote_mem_straysOf_iff {a : String} :
    '"' ∈ straysOf (Scanner.ofSource a).items ↔ OpensQuote a := by
  rw [straysOf, List.mem_map]
  rfl

/-- What is found in two documents, one behind the other. -/
theorem scan_append {a b : String} {is js : List Instruction} (ha : Instruction.ofSource a = .ok is)
    (hb : Instruction.ofSource b = .ok js) (hquote : OpensQuote a → Unquoted b) :
    Scan.ofSource (a ++ b) =
      ⟨(Scan.ofSource a).tokens ++
          (Scan.ofSource b).tokens.map (.shift (Position.start.advance a.toList)),
        (Scan.ofSource a).illegal ++
          (Scan.ofSource b).illegal.map (.shift (Position.start.advance a.toList))⟩ := by
  have hshift := finds_shift (Position.start.advance a.toList) (finds_ofSource b)
    Position.counted_start
  have hstrays : ∀ m c rest, c ∈ straysOf (Scanner.ofSource a).items → Stray m c rest →
      Stray m c (rest ++ b.toList) := by
    intro m c rest hc hstray
    refine hstray.append (isSeam_of_ofSource hb) ?_
    rintro rfl
    exact hquote (quote_mem_straysOf_iff.1 hc)
  have hfinds := finds_append (finds_ofSource a) (leadsTo_of_ofSource ha b.toList) hstrays hshift
  have hitems := Scanner.items_of_finds hfinds
  rw [← String.toList_append] at hitems
  rw [Scan.ofSource, Scanner.ofSource, hitems, Scan.ofItems_append, Scan.ofItems_shift]
  rfl

/-- An open quote that is closed behind the seam changes the kinds of the tokens. -/
theorem kinds_ne_of_opensQuote {a b : String} {is js : List Instruction}
    (ha : Instruction.ofSource a = .ok is) (hb : Instruction.ofSource b = .ok js)
    (hopen : OpensQuote a) (hquote : ¬ Unquoted b) :
    (Scan.ofSource (a ++ b)).tokens.map (·.kind) ≠
      (Scan.ofSource a).tokens.map (·.kind) ++ (Scan.ofSource b).tokens.map (·.kind) := by
  obtain ⟨found, hfound, hne⟩ := exists_finds_ne (isSeam_of_ofSource hb) (finds_ofSource a)
    (leadsTo_of_ofSource ha b.toList) (quote_mem_straysOf_iff.2 hopen) (not_not.1 hquote)
  have hitems := Scanner.items_of_finds hfound
  rw [← String.toList_append] at hitems
  rw [Scan.ofSource, Scanner.ofSource, hitems]
  exact hne _

/-- **Documents in turn.** Two sources that are documents are one document, when one is written
behind the other. Its instructions are those of the first and then those of the second, as many
lines later as the first has line feeds; and the characters passed over are those of the first and
then those of the second. This holds if the first opens no quote or the second has none, and if
neither is so, the kinds of the tokens are not those of the two sources in turn. -/
theorem documents_append {a b : String} {is js : List Instruction}
    (ha : Instruction.ofSource a = .ok is) (hb : Instruction.ofSource b = .ok js) :
    ((Scan.ofSource (a ++ b)).tokens.map (·.kind) =
        (Scan.ofSource a).tokens.map (·.kind) ++ (Scan.ofSource b).tokens.map (·.kind) ↔
      (OpensQuote a → Unquoted b)) ∧
    ((OpensQuote a → Unquoted b) →
      Instruction.ofSource (a ++ b) =
          .ok (is ++ js.map (Instruction.mapLine (· + a.toList.count '\n'))) ∧
        (Scan.ofSource (a ++ b)).illegal = (Scan.ofSource a).illegal ++
          (Scan.ofSource b).illegal.map (.shift (Position.start.advance a.toList))) := by
  refine ⟨⟨fun heq hopen => ?_, fun hquote => ?_⟩, fun hquote => ?_⟩
  · by_contra hquote
    exact kinds_ne_of_opensQuote ha hb hopen hquote heq
  · rw [scan_append ha hb hquote, List.map_append, List.map_map]
    rfl
  · have hscan := scan_append ha hb hquote
    refine ⟨?_, by rw [hscan]⟩
    rw [Instruction.ofSource, hscan, ← mapLine_start_advance]
    exact read_append ha (read_shift _ hb)

/-- An open quote in the first document, and none in the second. -/
theorem documents_append_unquoted :
    let a := "$style(\")\n$title(){A $B}"
    let b := " $section(){c # d}"
    ∃ is js, Instruction.ofSource a = .ok is ∧ Instruction.ofSource b = .ok js ∧
      ((Scan.ofSource (a ++ b)).tokens.map (·.kind) =
          (Scan.ofSource a).tokens.map (·.kind) ++ (Scan.ofSource b).tokens.map (·.kind) ↔
        (OpensQuote a → Unquoted b)) ∧
      ((OpensQuote a → Unquoted b) →
        Instruction.ofSource (a ++ b) =
            .ok (is ++ js.map (Instruction.mapLine (· + a.toList.count '\n'))) ∧
          (Scan.ofSource (a ++ b)).illegal = (Scan.ofSource a).illegal ++
            (Scan.ofSource b).illegal.map (.shift (Position.start.advance a.toList))) := by
  intro a b
  have hokA : (Instruction.ofSource a).isOk := by decide +kernel
  have hokB : (Instruction.ofSource b).isOk := by decide +kernel
  cases ha : Instruction.ofSource a with
  | error e => simp [ha, Except.isOk, Except.toBool] at hokA
  | ok is =>
    cases hb : Instruction.ofSource b with
    | error e => simp [hb, Except.isOk, Except.toBool] at hokB
    | ok js => exact ⟨is, js, rfl, rfl, documents_append ha hb⟩

/-- Two documents with an open quote each are not a document, since the quotes make a string. -/
theorem open_quotes_append :
    ¬ ∀ (a b : String) (is js : List Instruction),
      Instruction.ofSource a = .ok is → Instruction.ofSource b = .ok js →
        Instruction.ofSource (a ++ b) =
            .ok (is ++ js.map (Instruction.mapLine (· + a.toList.count '\n'))) ∧
          (Scan.ofSource (a ++ b)).tokens.map (·.kind) =
            (Scan.ofSource a).tokens.map (·.kind) ++ (Scan.ofSource b).tokens.map (·.kind) ∧
          (Scan.ofSource (a ++ b)).illegal.map (·.character) =
            (Scan.ofSource a).illegal.map (·.character) ++
              (Scan.ofSource b).illegal.map (·.character) := by
  intro h
  let a := "$style(\")"
  have hok : (Instruction.ofSource a).isOk := by decide +kernel
  have hfails : (Instruction.ofSource (a ++ a)).isOk = false := by decide +kernel
  cases ha : Instruction.ofSource a with
  | error e => simp [ha, Except.isOk, Except.toBool] at hok
  | ok is =>
    have happend := (h a a is is ha ha).1
    rw [happend] at hfails
    cases hfails

end Folio
