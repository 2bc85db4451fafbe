import Folio.Instruction.Combinators
import Mathlib.Data.List.Nodup

/-!
# Parsers and the reader

A parser and the reader begin at the same token.

**Mirroring** (`Mirrors`). Where the parser fails the reader stops, with the same token found, and
where it succeeds the reader goes on behind what was read, in a state that the value decides.

**What was given up** (`Located.AllBefore`). When a parser has succeeded, the errors it has given up
lie in front of the place it has come to. What fails later fails further on, and the merge of errors
leaves it as it is. An error at the next token, without a label, adds nothing to an error of the
same input either (`Located.Within.furthest_miss`, `Located.Within.miss_furthest`), so a parser that
cannot use the next token makes no difference to a choice.

There is a lemma for each way of putting parsers together. Lists are taken with the token that
closes them: only then is the reader at the same place again.
-/

namespace Folio

open Located (mergeAlternatives)

variable {α β γ : Type}

/-! ## Errors given up -/

namespace Located

variable {e : Located} {s : Input}

/-- The place is one of the input, and the token there was found. -/
structure Within (e : Located) (s : Input) : Prop where
  offset_le : s.offset ≤ e.offset
  found : e.found = s.rest[e.offset - s.offset]?

theorem within_miss (s : Input) : s.miss.Within s := by
  refine ⟨Nat.le_refl _, ?_⟩
  rw [Input.miss, Nat.sub_self, List.head?_eq_getElem?]

theorem Within.labelled (h : e.Within s) (c : Context) : (e.labelled c).Within s :=
  ⟨h.offset_le, h.found⟩

theorem furthest_of_lt {e f : Located} (h : f.offset < e.offset) : e.furthest f = e :=
  if_pos h

theorem furthest_of_gt {e f : Located} (h : e.offset < f.offset) : e.furthest f = f := by
  rw [furthest, if_neg (by omega), if_pos h]

theorem furthest_of_eq {e f : Located} (h : e.offset = f.offset) :
    e.furthest f = { e with label := e.label.merge f.label } := by
  rw [furthest, if_neg (by omega), if_neg (by omega)]

/-- An error without a label at the next token adds nothing to another one. -/
theorem Within.furthest_miss (h : e.Within s) : e.furthest s.miss = e := by
  rcases Nat.lt_or_eq_of_le h.offset_le with hlt | heq
  · exact furthest_of_lt hlt
  · rw [furthest_of_eq (show e.offset = s.miss.offset from heq.symm), Input.miss, Label.merge_none]

theorem Within.miss_furthest (h : e.Within s) : s.miss.furthest e = e := by
  rcases Nat.lt_or_eq_of_le h.offset_le with hlt | heq
  · exact furthest_of_gt hlt
  · have hfound : s.miss.found = e.found := by
      rw [h.found, Input.miss, ← heq, Nat.sub_self, List.head?_eq_getElem?]
    rw [furthest_of_eq (show s.miss.offset = e.offset from heq), hfound, Input.miss,
      Label.none_merge]
    simp only [heq]

/-- All of what was given up is in front of the place. -/
def AllBefore (alternative : Option Located) (offset : Nat) : Prop :=
  ∀ e ∈ alternative, e.offset < offset

theorem allBefore_none (offset : Nat) : AllBefore none offset := by
  rintro e ⟨⟩

theorem allBefore_some {offset : Nat} (h : e.offset < offset) : AllBefore (some e) offset := by
  rintro f ⟨⟩
  exact h

theorem AllBefore.mono {alternative : Option Located} {m n : Nat} (h : AllBefore alternative m)
    (hmn : m ≤ n) : AllBefore alternative n :=
  fun e he => Nat.lt_of_lt_of_le (h e he) hmn

theorem AllBefore.merge {a b : Option Located} {offset : Nat} (ha : AllBefore a offset)
    (hb : AllBefore b offset) : AllBefore (mergeAlternatives a b) offset := by
  cases a with
  | none => exact hb
  | some e =>
    cases b with
    | none => exact ha
    | some f =>
      refine allBefore_some ?_
      have he := ha e rfl
      have hf := hb f rfl
      unfold furthest
      split_ifs <;> assumption

theorem AllBefore.map_labelled {a : Option Located} {offset : Nat} (h : AllBefore a offset)
    (c : Context) : AllBefore (a.map (labelled c)) offset := by
  cases a with
  | none => exact h
  | some e => exact allBefore_some (h e rfl)

theorem orAlternative_of_allBefore {alternative : Option Located}
    (h : AllBefore alternative e.offset) : e.orAlternative alternative = e := by
  cases alternative with
  | none => rfl
  | some f => exact furthest_of_lt (h f rfl)

theorem mergeAlternatives_of_allBefore {alternative : Option Located}
    (h : AllBefore alternative e.offset) : mergeAlternatives alternative (some e) = some e := by
  cases alternative with
  | none => rfl
  | some f => rw [mergeAlternatives, furthest_of_lt (h f rfl)]

end Located

open Located (AllBefore)

/-! ## Attempts -/

namespace Attempt

theorem map_thenIgnore (a : Attempt α) (f : α → β) (q : Parser γ) :
    (a.map f).thenIgnore q = (a.thenIgnore q).map f := by
  cases a with
  | error e => rfl
  | ok reply =>
    rw [map, thenIgnore, andThen, thenIgnore, andThen]
    cases q reply.input <;> rfl

/-- Behind what has given up nothing, another parser fails and succeeds as it does alone. -/
theorem ok_ignoreThen (v : α) (s : Input) (q : Parser β) :
    ignoreThen (.ok ⟨v, s, none⟩) q = q s := by
  rw [ignoreThen, andThen]
  cases q s <;> rfl

/-- If what ended because of an error cannot go on there, the error counts. -/
theorem thenIgnore_of_miss {v : α} {s : Input} {e : Located} {q : Parser β} (he : e.Within s)
    (hq : q s = .error s.miss) : thenIgnore (.ok ⟨v, s, some e⟩) q = .error e := by
  simp only [thenIgnore, andThen, hq, Located.orAlternative, he.miss_furthest, map]

end Attempt

/-! ## Parsers at the next token -/

namespace Parser

variable {s : Input} {n : Nat} {t : Token} {ts : List Token} {k : Kind}

theorem filterMap_of_some {f : Token → Option α} {v : α} (h : f t = some v) :
    filterMap f ⟨n, t :: ts⟩ = .ok ⟨v, ⟨n + 1, ts⟩, none⟩ := by
  simp only [filterMap, h]

theorem filterMap_of_none {f : Token → Option α} (h : ∀ t ∈ s.rest.head?, f t = none) :
    filterMap f s = .error s.miss := by
  obtain ⟨n, _ | ⟨t, ts⟩⟩ := s
  · rfl
  · simp only [filterMap, h t rfl]

theorem kind_of_eq (h : t.kind = k) : kind k ⟨n, t :: ts⟩ = .ok ⟨t, ⟨n + 1, ts⟩, none⟩ :=
  filterMap_of_some (if_pos h)

theorem exists_head {P : Token → Prop} (h : ¬∀ t ∈ s.rest.head?, ¬P t) :
    ∃ n t ts, s = ⟨n, t :: ts⟩ ∧ P t := by
  obtain ⟨n, _ | ⟨t, ts⟩⟩ := s
  · simp at h
  · exact ⟨n, t, ts, rfl, by simpa using h⟩

theorem kind_of_ne (h : ∀ t ∈ s.rest.head?, t.kind ≠ k) : kind k s = .error s.miss :=
  filterMap_of_none fun t ht => if_neg (h t ht)

/-- The opening token leaves nothing to go back to. -/
theorem delimitedBy_kind (p : Parser α) (k : Kind) (q : Parser Token) :
    p.delimitedBy (kind k) q = (kind k).ignoreThen (p.thenIgnore q) := by
  funext s
  rw [delimitedBy, thenIgnore, ignoreThen, ignoreThen]
  by_cases h : ∀ t ∈ s.rest.head?, t.kind ≠ k
  · rw [kind_of_ne h]
    rfl
  · obtain ⟨n, t, ts, rfl, ht⟩ := exists_head h
    rw [kind_of_eq ht, Attempt.ok_ignoreThen, Attempt.ok_ignoreThen]
    rfl

/-! ### Choices -/

variable {p : Parser α} {ps qs : List (Parser α)} {e : Located}

theorem choiceFrom_of_misses (he : e.Within s) (h : ∀ p ∈ ps, p s = .error s.miss) :
    choiceFrom (some e) ps s = .error e := by
  induction ps with
  | nil => rfl
  | cons p ps ih =>
    obtain ⟨hp, hps⟩ := List.forall_mem_cons.1 h
    simp only [choiceFrom, hp, mergeAlternatives, he.miss_furthest]
    exact ih hps

/-- If no parser can use the next token, the choice cannot. -/
theorem choice_of_misses (h : ∀ p ∈ ps, p s = .error s.miss) : choice ps s = .error s.miss := by
  cases ps with
  | nil => rfl
  | cons p ps =>
    obtain ⟨hp, hps⟩ := List.forall_mem_cons.1 h
    simp only [choice, choiceFrom, hp, mergeAlternatives]
    exact choiceFrom_of_misses (Located.within_miss s) hps

/-- If only one parser can use the next token, the choice does what this one does. -/
theorem choice_of_hit (hps : ∀ p ∈ ps, p s = .error s.miss) (hqs : ∀ p ∈ qs, p s = .error s.miss)
    (hp : ∀ e, p s = .error e → e.Within s) : choice (ps ++ p :: qs) s = p s := by
  suffices h : ∀ alternative, (alternative = none ∨ alternative = some s.miss) →
      choiceFrom alternative (ps ++ p :: qs) s = p s from h none (.inl rfl)
  induction ps with
  | nil =>
    intro alternative halternative
    rw [List.nil_append, choiceFrom]
    cases h : p s with
    | ok reply => rfl
    | error e =>
      have hwithin := hp e h
      have hmerge : mergeAlternatives alternative (some e) = some e := by
        rcases halternative with rfl | rfl
        · rfl
        · rw [mergeAlternatives, hwithin.furthest_miss]
      simp only [hmerge]
      exact choiceFrom_of_misses hwithin hqs
  | cons o ps ih =>
    obtain ⟨ho, hps⟩ := List.forall_mem_cons.1 hps
    intro alternative halternative
    have hmerge : mergeAlternatives alternative (some s.miss) = some s.miss := by
      rcases halternative with rfl | rfl
      · rfl
      · rw [mergeAlternatives, (Located.within_miss s).furthest_miss]
    rw [List.cons_append, choiceFrom]
    simp only [ho, hmerge]
    exact ih hps _ (.inr rfl)

theorem choice_map_of_hit {κ : Type} {f : κ → Parser α} {ks : List κ} {k : κ} (hks : ks.Nodup)
    (hk : k ∈ ks) (hother : ∀ j, j ≠ k → f j s = .error s.miss)
    (hf : ∀ e, f k s = .error e → e.Within s) : choice (ks.map f) s = f k s := by
  obtain ⟨front, behind, rfl⟩ := List.append_of_mem hk
  have hnot : k ∉ front ++ behind := (List.nodup_cons.1 (List.nodup_middle.1 hks)).1
  have hne : ∀ j ∈ front ++ behind, j ≠ k := by
    rintro j hj rfl
    exact hnot hj
  rw [List.map_append, List.map_cons]
  refine choice_of_hit ?_ ?_ hf
  · exact List.forall_mem_map.2 fun j hj => hother j (hne j (List.mem_append_left _ hj))
  · exact List.forall_mem_map.2 fun j hj => hother j (hne j (List.mem_append_right _ hj))

end Parser

/-! ## Runs of the reader -/

/-- The line of the last token, or else the given one. -/
def lineBehind (line : Nat) (ts : List Token) : Nat := ts.foldl (fun _ t => t.line) line

theorem lineBehind_append (line : Nat) (ts us : List Token) :
    lineBehind line (ts ++ us) = lineBehind (lineBehind line ts) us :=
  List.foldl_append

theorem lineBehind_eq (line : Nat) (ts : List Token) :
    lineBehind line ts = (ts.getLast?.map Token.line).getD line := by
  induction ts generalizing line with
  | nil => rfl
  | cons t ts ih =>
    rw [lineBehind, List.foldl_cons, ← lineBehind, ih, List.getLast?_cons]
    cases ts.getLast? <;> rfl

/-- The error as the reader reports it. -/
def Located.report (e : Located) (c : Context) (line : Nat) : SyntaxError :=
  ⟨e.found, (e.found.map Token.line).getD line, c⟩

/-- The only kind of token that can come next, if there is just one. -/
def Phase.only? : Phase → Option Kind
  | .openList _ | .emphasisList _ _ => some .openParen
  | .emphasisListEnd _ _ => some .closeParen
  | .openContent _ _ _ | .emphasisOpen _ _ => some .openBrace
  | .emphasisClose _ _ _ => some .closeBrace
  | .equals _ _ _ => some .equals
  | .between | .firstName _ | .nextName _ _ | .value _ _ _ | .separator _ _ | .emphasisText _ _ =>
    none

theorem Reader.step?_of_ne_only {r : Reader} {k : Kind} {t : Token} (h : r.phase.only? = some k)
    (ht : t.kind ≠ k) : r.step? t = none := by
  obtain ⟨finished, frames, phase⟩ := r
  cases phase <;> cases h <;> cases hk : t.kind <;>
    first | rfl | exact absurd hk ht | simp [step?, hk]

theorem Reader.document?_of_only {r : Reader} {k : Kind} (h : r.phase.only? = some k) :
    r.document? = none := by
  obtain ⟨finished, frames, phase⟩ := r
  cases phase <;> first | rfl | cases h

/-- Some tokens lead the reader from one state to another, and the input to what is behind them. -/
def Passes (r : Reader) (s : Input) (r' : Reader) (s' : Input) : Prop :=
  ∃ passed ≠ [], s.rest = passed ++ s'.rest ∧ s'.offset = s.offset + passed.length ∧
    ∀ line, r.readFrom line s.rest = r'.readFrom (lineBehind line passed) s'.rest

namespace Passes

variable {r r' r'' : Reader} {s s' s'' : Input}

theorem offset_lt (h : Passes r s r' s') : s.offset < s'.offset := by
  obtain ⟨passed, hpassed, -, hoffset, -⟩ := h
  have := List.length_pos_of_ne_nil hpassed
  omega

theorem length_lt (h : Passes r s r' s') : s'.rest.length < s.rest.length := by
  obtain ⟨passed, hpassed, hrest, -, -⟩ := h
  have := List.length_pos_of_ne_nil hpassed
  rw [hrest, List.length_append]
  omega

theorem trans (h : Passes r s r' s') (h' : Passes r' s' r'' s'') : Passes r s r'' s'' := by
  obtain ⟨passed, hpassed, hrest, hoffset, hread⟩ := h
  obtain ⟨more, -, hrest', hoffset', hread'⟩ := h'
  refine ⟨passed ++ more, ?_, ?_, ?_, ?_⟩
  · simp [hpassed]
  · rw [hrest, hrest', List.append_assoc]
  · rw [hoffset', hoffset, List.length_append, Nat.add_assoc]
  · intro line
    rw [hread, hread', lineBehind_append]

theorem of_step {t : Token} {n : Nat} {ts : List Token} (h : r.step? t = some r') :
    Passes r ⟨n, t :: ts⟩ r' ⟨n + 1, ts⟩ := by
  refine ⟨[t], by simp, rfl, rfl, ?_⟩
  intro line
  rw [Reader.readFrom, h]
  rfl

/-- An error behind what is passed is an error of the whole. -/
theorem within {e : Located} (h : Passes r s r' s') (he : e.Within s') : e.Within s := by
  have hle := he.offset_le
  have hlt := h.offset_lt
  obtain ⟨passed, -, hrest, hoffset, -⟩ := h
  refine ⟨by omega, ?_⟩
  rw [he.found, hrest, List.getElem?_append_right (by omega)]
  congr 1
  omega

end Passes

/-! ## Mirroring -/

/-- The parser does what the reader does. Where it fails the reader stops, with the label of the
error, or with `c` if it has none. Where it succeeds the reader goes on behind what was read, and
nothing was given up that could matter there. -/
inductive Mirrors (c : Option Context) (r : Reader) (post : α → Reader) (s : Input) :
    Attempt α → Prop where
  | stops {e : Located} {d : Context} (hwithin : e.Within s)
      (hlabel : e.label.context?.or c = some d)
      (hread : ∀ line, r.readFrom line s.rest = .error (e.report d (lineBehind line s.rest))) :
      Mirrors c r post s (.error e)
  | goes {reply : Reply α} (hpasses : Passes r s (post reply.value) reply.input)
      (hbefore : AllBefore reply.alternative reply.input.offset) : Mirrors c r post s (.ok reply)

namespace Mirrors

variable {c : Option Context} {r r' : Reader} {post : α → Reader} {s s' : Input} {a : Attempt α}
  {e : Located}

theorem within (h : Mirrors c r post s (.error e)) : e.Within s := by
  cases h with
  | stops hwithin => exact hwithin

/-- Where there is an error, it does not matter what a success would lead to. -/
theorem error {post' : β → Reader} (h : Mirrors c r post s (.error e)) :
    Mirrors c r post' s (.error e) := by
  cases h with
  | stops hwithin hlabel hread => exact .stops hwithin hlabel hread

theorem map {post' : β → Reader} {f : α → β} (h : Mirrors c r post s a)
    (hf : ∀ v, post v = post' (f v)) : Mirrors c r post' s (a.map f) := by
  cases h with
  | stops hwithin hlabel hread => exact .stops hwithin hlabel hread
  | goes hpasses hbefore => exact .goes (hf _ ▸ hpasses) hbefore

/-- A label settles what errors without one are about. -/
theorem labelled {l : Context} (h : Mirrors (some l) r post s a) :
    Mirrors c r post s (a.labelled l) := by
  cases h with
  | @stops e d hwithin hlabel hread =>
    have hknown : (e.labelled l).label.context?.or c = some d := by
      rw [← hlabel, Located.labelled]
      cases e.label <;> rfl
    exact .stops (hwithin.labelled l) hknown hread
  | goes hpasses hbefore => exact .goes hpasses (hbefore.map_labelled l)

/-- What is read in front. -/
theorem after (hpasses : Passes r s r' s') (h : Mirrors c r' post s' a) : Mirrors c r post s a := by
  cases h with
  | stops hwithin hlabel hread =>
    refine .stops (hpasses.within hwithin) hlabel ?_
    obtain ⟨passed, -, hrest, -, hpassed⟩ := hpasses
    intro line
    rw [hpassed, hread, hrest, lineBehind_append]
  | goes hpasses' hbefore => exact .goes (hpasses.trans hpasses') hbefore

/-! ### One token -/

/-- The reader cannot use the next token either. -/
theorem stuck (hcontext : some r.phase.context = c) (hdocument : s.rest = [] → r.document? = none)
    (hstep : ∀ t ∈ s.rest.head?, r.step? t = none) : Mirrors c r post s (.error s.miss) := by
  refine .stops (Located.within_miss s) hcontext.symm ?_
  intro line
  obtain ⟨n, _ | ⟨t, ts⟩⟩ := s
  · rw [Reader.readFrom, hdocument rfl]
    rfl
  · rw [Reader.readFrom, hstep t rfl]
    rfl

theorem filterMap {f : Token → Option α} (hcontext : some r.phase.context = c)
    (hdocument : r.document? = none) (hnone : ∀ t ∈ s.rest.head?, f t = none → r.step? t = none)
    (hsome : ∀ t v, f t = some v → r.step? t = some (post v)) :
    Mirrors c r post s (Parser.filterMap f s) := by
  by_cases h : ∀ t ∈ s.rest.head?, f t = none
  · rw [Parser.filterMap_of_none h]
    exact stuck hcontext (fun _ => hdocument) fun t ht => hnone t ht (h t ht)
  · obtain ⟨n, _ | ⟨t, ts⟩⟩ := s
    · simp at h
    · obtain ⟨v, hv⟩ := Option.ne_none_iff_exists'.1 (by simpa using h)
      rw [Parser.filterMap_of_some hv]
      exact .goes (.of_step (hsome t v hv)) (Located.allBefore_none _)

/-- The only kind of token that the reader can use. -/
theorem kind {k : Kind} (honly : r.phase.only? = some k) (hcontext : some r.phase.context = c)
    (hstep : ∀ t : Token, r.step? { t with kind := k } = some r') :
    Mirrors c r (fun _ => r') s (Parser.kind k s) := by
  refine filterMap hcontext (Reader.document?_of_only honly) ?_ ?_
  · intro t _ h
    exact Reader.step?_of_ne_only honly (by simpa using h)
  · intro t v h
    have hk : t.kind = k := by simpa using congrArg Option.isSome h
    subst hk
    exact hstep t

/-! ### Sequences -/

theorem andThen {mid : α → Reader} {post : α × β → Reader} {q : Parser β}
    (h : Mirrors c r mid s a)
    (hq : ∀ v s', s'.rest.length < s.rest.length →
      Mirrors c (mid v) (fun w => post (v, w)) s' (q s')) :
    Mirrors c r post s (a.andThen q) := by
  cases h with
  | stops hwithin hlabel hread => exact .stops hwithin hlabel hread
  | @goes reply hpasses hbefore =>
    have hmore := hq reply.value reply.input hpasses.length_lt
    rw [Attempt.andThen]
    cases hattempt : q reply.input with
    | error e =>
      rw [hattempt] at hmore
      have hfurther : e.orAlternative reply.alternative = e :=
        Located.orAlternative_of_allBefore (hbefore.mono hmore.within.offset_le)
      simp only [hfurther]
      exact after hpasses hmore.error
    | ok more =>
      rw [hattempt] at hmore
      cases hmore with
      | goes hpasses' hbefore' =>
        have hle := Nat.le_of_lt hpasses'.offset_lt
        exact .goes (hpasses.trans hpasses') ((hbefore.mono hle).merge hbefore')

theorem ignoreThen {mid : α → Reader} {post : β → Reader} {q : Parser β} (h : Mirrors c r mid s a)
    (hq : ∀ v s', s'.rest.length < s.rest.length → Mirrors c (mid v) post s' (q s')) :
    Mirrors c r post s (a.ignoreThen q) := by
  have hboth : Mirrors c r (fun v => post v.2) s (a.andThen q) := h.andThen hq
  exact hboth.map fun _ => rfl

theorem thenIgnore {mid : α → Reader} {q : Parser β} (h : Mirrors c r mid s a)
    (hq : ∀ v s', s'.rest.length < s.rest.length →
      Mirrors c (mid v) (fun _ => post v) s' (q s')) :
    Mirrors c r post s (a.thenIgnore q) := by
  have hboth : Mirrors c r (fun v => post v.1) s (a.andThen q) := h.andThen hq
  exact hboth.map fun _ => rfl

/-- A first parser that cannot use the next token makes no difference. -/
theorem or_of_miss {p q : Parser α} (hp : p s = .error s.miss) (h : Mirrors c r post s (q s)) :
    Mirrors c r post s (p.or q s) := by
  simp only [Parser.or, hp]
  cases hattempt : q s with
  | error e =>
    rw [hattempt] at h
    simp only [h.within.miss_furthest]
    exact h
  | ok reply =>
    rw [hattempt] at h
    cases h with
    | goes hpasses hbefore =>
      exact .goes hpasses (hbefore.merge (Located.allBefore_some hpasses.offset_lt))

/-! ### Lists up to a closing token -/

variable {k : Kind} {alternative : Option Located}

/-- The list ends in front of an item that fails, and is not closed there. -/
theorem unclosed {v : α} {q : Parser β} (h : Mirrors c r post s (.error e))
    (hq : q s = .error s.miss) :
    Mirrors c r post s (Attempt.thenIgnore (.ok ⟨v, s, some e⟩) q) := by
  rw [Attempt.thenIgnore_of_miss h.within hq]
  exact h

/-- The list is closed, so the missing item does not matter any more. -/
theorem closed {v : α} {n : Nat} {t : Token} {ts : List Token} (hk : t.kind = k)
    (hstep : r.step? t = some (post v)) (he : e.offset = n) :
    Mirrors c r post ⟨n, t :: ts⟩
      (Attempt.thenIgnore (.ok ⟨v, ⟨n, t :: ts⟩, some e⟩) (Parser.kind k)) := by
  simp only [Attempt.thenIgnore, Attempt.andThen, Parser.kind_of_eq hk]
  exact .goes (.of_step hstep) (Located.allBefore_some (he ▸ Nat.lt_succ_self n))

/-- **An item or the closing token.** The closing token begins no item, so an error of an item is
either at the closing token, which is taken, or the reader stops with it too. -/
theorem item_or_end {item : Parser α} (mid : α → Reader) {post : γ → Reader} {a : Attempt γ} {v : γ}
    (halternative : AllBefore alternative s.offset)
    (hclose : ∀ t, t.kind = k → r.step? t = some (post v))
    (hmiss : ∀ t ∈ s.rest.head?, t.kind = k → ∃ e, item s = .error e ∧ e.offset = s.offset)
    (hitem : (∀ t ∈ s.rest.head?, t.kind ≠ k) → Mirrors c r mid s (item s))
    (herror : ∀ e, item s = .error e → a = .ok ⟨v, s, mergeAlternatives alternative (some e)⟩)
    (hok : ∀ reply, item s = .ok reply → Mirrors c r mid s (.ok reply) →
      Mirrors c r post s (a.thenIgnore (Parser.kind k))) :
    Mirrors c r post s (a.thenIgnore (Parser.kind k)) := by
  by_cases hhead : ∀ t ∈ s.rest.head?, t.kind ≠ k
  · have h := hitem hhead
    cases hattempt : item s with
    | error e =>
      rw [hattempt] at h
      rw [herror e hattempt, Located.mergeAlternatives_of_allBefore
        (halternative.mono h.within.offset_le)]
      exact unclosed h.error (Parser.kind_of_ne hhead)
    | ok reply => exact hok reply hattempt (hattempt ▸ h)
  · obtain ⟨n, t, ts, rfl, hk⟩ := Parser.exists_head hhead
    obtain ⟨e, hattempt, he⟩ := hmiss t rfl hk
    rw [herror e hattempt, Located.mergeAlternatives_of_allBefore
      (halternative.mono (Nat.le_of_eq he.symm))]
    exact closed hk (hclose t hk) he

/-- **At most one item**, up to a closing token. -/
theorem orNot {item : Parser α} (mid : α → Reader) {post : Option α → Reader}
    (hclose : ∀ t, t.kind = k → r.step? t = some (post none))
    (hmiss : ∀ t ∈ s.rest.head?, t.kind = k → ∃ e, item s = .error e ∧ e.offset = s.offset)
    (hitem : (∀ t ∈ s.rest.head?, t.kind ≠ k) → Mirrors c r mid s (item s))
    (hlast : ∀ v s', Mirrors c (mid v) (fun _ => post (some v)) s' (Parser.kind k s')) :
    Mirrors c r post s ((item.orNot.thenIgnore (Parser.kind k)) s) := by
  refine item_or_end mid (Located.allBefore_none _) hclose hmiss hitem ?_ ?_
  · intro e he
    rw [Parser.orNot, he]
    rfl
  · intro reply hreply h
    have hclosed : Mirrors c r (fun v => post (some v)) s
        (Attempt.thenIgnore (.ok reply) (Parser.kind k)) := h.thenIgnore fun v s' _ => hlast v s'
    have hsome : item.orNot s = Attempt.map some (.ok reply) := by
      rw [Parser.orNot, hreply]
      rfl
    rw [hsome, Attempt.map_thenIgnore]
    exact hclosed.map fun _ => rfl

/-- **Items with separators between**, up to a closing token. The ones behind the first are those of
`separatedFrom`. -/
theorem separatedBy {item : Parser α} {separator : Parser γ} (mid : α → Reader)
    {post : List α → Reader} (hclose : ∀ t, t.kind = k → r.step? t = some (post []))
    (hmiss : ∀ t ∈ s.rest.head?, t.kind = k → ∃ e, item s = .error e ∧ e.offset = s.offset)
    (hitem : (∀ t ∈ s.rest.head?, t.kind ≠ k) → Mirrors c r mid s (item s))
    (hrest : ∀ v s' alternative, AllBefore alternative s'.offset →
      Mirrors c (mid v) (fun vs => post (v :: vs)) s'
        ((Parser.separatedFrom item separator s' alternative).thenIgnore (Parser.kind k))) :
    Mirrors c r post s (((item.separatedBy separator).thenIgnore (Parser.kind k)) s) := by
  refine item_or_end mid (Located.allBefore_none _) hclose hmiss hitem ?_ ?_
  · intro e he
    rw [Parser.separatedBy, he]
    rfl
  · intro reply hreply h
    cases h with
    | goes hpasses hbefore =>
      simp only [Parser.separatedBy, hreply, Attempt.map_thenIgnore]
      exact (after hpasses (hrest reply.value reply.input _ hbefore)).map fun _ => rfl

variable (state last : β → Reader) {add : β → α → β} {item : Parser α}

/-- **Items one behind the other**, up to a closing token. -/
theorem repeatedFrom (hclose : ∀ b t, t.kind = k → (state b).step? t = some (last b))
    (hmiss : ∀ s', s'.rest.length ≤ s.rest.length → ∀ t ∈ s'.rest.head?, t.kind = k →
      ∃ e, item s' = .error e ∧ e.offset = s'.offset)
    (hitem : ∀ b s', s'.rest.length ≤ s.rest.length → (∀ t ∈ s'.rest.head?, t.kind ≠ k) →
      Mirrors c (state b) (fun v => state (add b v)) s' (item s'))
    (b : β) (halternative : AllBefore alternative s.offset) :
    Mirrors c (state b) (fun vs => last (vs.foldl add b)) s
      ((Parser.repeatedFrom item 0 s alternative).thenIgnore (Parser.kind k)) := by
  induction hn : s.rest.length using Nat.strongRecOn generalizing s b alternative with
  | ind n ih =>
    subst hn
    refine item_or_end (v := []) (fun v => state (add b v)) halternative (hclose b)
      (hmiss s (Nat.le_refl _)) (hitem b s (Nat.le_refl _)) ?_ ?_
    · intro e he
      rw [Parser.repeatedFrom, he]
      rfl
    · intro reply hreply h
      cases h with
      | goes hpasses hbefore =>
        have hle := Nat.le_of_lt hpasses.offset_lt
        have hlt := hpasses.length_lt
        have hrest := ih _ hlt (fun s' hs' => hmiss s' (by omega))
          (fun b s' hs' => hitem b s' (by omega)) (add b reply.value)
          ((halternative.mono hle).merge hbefore) rfl
        rw [Parser.repeatedFrom, hreply]
        simp only [if_pos hlt, Attempt.map_thenIgnore]
        exact (after hpasses hrest).map fun _ => rfl

/-- **Items behind separators**, up to a closing token. -/
theorem separatedFrom (between : β → Reader) {separator : Kind} (hne : separator ≠ k)
    (hclose : ∀ b t, t.kind = k → (state b).step? t = some (last b))
    (hseparator : ∀ b s', (∀ t ∈ s'.rest.head?, t.kind ≠ k) →
      Mirrors c (state b) (fun _ => between b) s' (Parser.kind separator s'))
    (hitem : ∀ b s', Mirrors c (between b) (fun v => state (add b v)) s' (item s'))
    (b : β) (halternative : AllBefore alternative s.offset) :
    Mirrors c (state b) (fun vs => last (vs.foldl add b)) s
      ((Parser.separatedFrom item (Parser.kind separator) s alternative).thenIgnore
        (Parser.kind k)) := by
  have hmiss : ∀ s' : Input, ∀ t ∈ s'.rest.head?, t.kind = k →
      Parser.kind separator s' = .error s'.miss := by
    intro s' t ht hk
    refine Parser.kind_of_ne fun u hu => ?_
    rw [Option.mem_unique hu ht, hk]
    exact hne.symm
  induction hn : s.rest.length using Nat.strongRecOn generalizing s b alternative with
  | ind n ih =>
    subst hn
    refine item_or_end (v := []) (fun _ => between b) halternative (hclose b)
      (fun t ht hk => ⟨_, hmiss s t ht hk, rfl⟩) (hseparator b s) ?_ ?_
    · intro e he
      rw [Parser.separatedFrom, he]
    · intro passed hpassed h
      have hhead : ∀ t ∈ s.rest.head?, t.kind ≠ k := by
        intro t ht hk
        rw [hmiss s t ht hk] at hpassed
        cases hpassed
      cases h with
      | goes hpasses hbefore =>
        -- The separator is passed, but without an item it is given up with what follows it.
        have hbehind := (halternative.mono (Nat.le_of_lt hpasses.offset_lt)).merge hbefore
        have h := hitem b passed.input
        rw [Parser.separatedFrom]
        simp only [hpassed]
        cases hattempt : item passed.input with
        | error e =>
          rw [hattempt] at h
          simp only [Located.mergeAlternatives_of_allBefore
            (hbehind.mono h.within.offset_le)]
          exact unclosed (after hpasses h.error) (Parser.kind_of_ne hhead)
        | ok reply =>
          rw [hattempt] at h
          cases h with
          | goes hpasses' hbefore' =>
            have hall := hpasses.trans hpasses'
            have hlt := hall.length_lt
            have hrest := ih _ hlt (add b reply.value)
              ((hbehind.mono (Nat.le_of_lt hpasses'.offset_lt)).merge hbefore') rfl
            simp only [if_pos hlt, Attempt.map_thenIgnore]
            exact (after hall hrest).map fun _ => rfl

end Mirrors

end Folio
