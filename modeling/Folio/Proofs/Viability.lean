import Folio.Proofs.Reading

/-!
# Where reading stops

**Viable tokens** (`Viable`). Tokens that some document begins with.

Every state of the reader can be led to a document: the instruction begun is ended in the shortest
way (`Phase.ending`), the open blocks are closed, and one more instruction makes sure that there is
one (`exists_document`). So tokens are viable just if the reader can follow them (`viable_iff`).

**Theorem (`error_at_first_impossible`).** A syntax error stands where the tokens cease to be
viable: what is in front of it begins some document, and together with the offending token it begins
none.

**Theorem (`error_independent_of_rest`).** All of a syntax error, its context included, is decided
by the longest viable beginning and the token behind it.
-/

namespace Folio

/-- The tokens are the beginning of a document. -/
def Viable (ts : List Token) : Prop := ∃ us is, Instruction.read (ts ++ us) = .ok is

theorem Viable.of_append {ts us : List Token} (h : Viable (ts ++ us)) : Viable ts := by
  obtain ⟨vs, is, h⟩ := h
  rw [List.append_assoc] at h
  exact ⟨us ++ vs, is, h⟩

/-! ## The shortest way out of a phase -/

/-- What an instruction needs behind its argument list. -/
def Head.ending : Head → List Kind
  | .directive _ _ => []
  | .block _ _ => [.openBrace, .closeBrace]

/-- A shortest end of the instruction that is being read. -/
def Phase.ending : Phase → List Kind
  | .between => []
  | .openList head => .openParen :: .closeParen :: head.ending
  | .firstName head => .closeParen :: head.ending
  | .nextName head _ => [.argumentName "name", .equals, .number 0, .closeParen] ++ head.ending
  | .equals head _ _ => [.equals, .number 0, .closeParen] ++ head.ending
  | .value head _ _ => [.number 0, .closeParen] ++ head.ending
  | .separator head _ => .closeParen :: head.ending
  | .openContent _ _ _ => [.openBrace, .closeBrace]
  | .emphasisList _ _ => [.openParen, .closeParen, .openBrace, .closeBrace]
  | .emphasisListEnd _ _ => [.closeParen, .openBrace, .closeBrace]
  | .emphasisOpen _ _ => [.openBrace, .closeBrace]
  | .emphasisText _ _ => [.closeBrace]
  | .emphasisClose _ _ _ => [.closeBrace]

namespace Reader

/-- The plainest tokens of some leaves lead where the leaves do. -/
theorem follow?_map_token (r : Reader) (ls : List Leaf) :
    r.follow? ((ls.map Leaf.token).map Token.leaf) = r.follow? ls := by
  induction ls generalizing r with
  | nil => rfl
  | cons l ls ih =>
    rw [List.map_cons, List.map_cons, follow?, follow?, step?_token_leaf]
    exact congrArg _ (funext ih)

theorem follow?_append (r : Reader) (as bs : List Leaf) :
    r.follow? (as ++ bs) = (r.follow? as).bind (·.follow? bs) := by
  induction as generalizing r with
  | nil => rfl
  | cons a as ih =>
    rw [List.cons_append, follow?, follow?, Option.bind_assoc]
    exact congrArg _ (funext ih)

theorem phase_finish (r : Reader) (i : Instruction) : (r.finish i).phase = .between := by
  unfold finish
  cases r.frames <;> rfl

/-- The end of an instruction leads to between instructions. -/
theorem follow?_ending (r : Reader) :
    ∃ r', r.follow? (r.phase.ending.map .plain) = some r' ∧ r'.phase = .between := by
  obtain ⟨finished, frames, phase⟩ := r
  cases phase with
  | between => exact ⟨_, rfl, rfl⟩
  | openList head => cases head <;> exact ⟨_, rfl, phase_finish _ _⟩
  | firstName head => cases head <;> exact ⟨_, rfl, phase_finish _ _⟩
  | nextName head args => cases head <;> exact ⟨_, rfl, phase_finish _ _⟩
  | equals head args name => cases head <;> exact ⟨_, rfl, phase_finish _ _⟩
  | value head args name => cases head <;> exact ⟨_, rfl, phase_finish _ _⟩
  | separator head args => cases head <;> exact ⟨_, rfl, phase_finish _ _⟩
  | _ => exact ⟨_, rfl, phase_finish _ _⟩

/-- As many closing braces as there are open blocks lead out of all of them. -/
theorem follow?_closeBraces (finished : List Instruction) (frames : List Frame) :
    ∃ finished', (Reader.mk finished frames .between).follow?
        (List.replicate frames.length (.plain .closeBrace)) = some ⟨finished', [], .between⟩ := by
  -- A block that is closed changes the block around it, so the induction is on how many there are.
  induction hn : frames.length generalizing finished frames with
  | zero =>
    obtain rfl := List.length_eq_zero_iff.1 hn
    exact ⟨finished, rfl⟩
  | succ n ih =>
    obtain ⟨f, fs, rfl⟩ := List.exists_cons_of_length_eq_add_one hn
    have hlength : fs.length = n := Nat.succ.inj hn
    cases fs with
    | nil => exact ih (f.close :: finished) [] hlength
    | cons g gs => exact ih finished (g.add (.instruction f.close) :: gs) hlength

/-- From every state some leaves lead to a document. -/
theorem exists_document (r : Reader) :
    ∃ ls r' is, r.follow? ls = some r' ∧ r'.document? = some is := by
  obtain ⟨⟨finished, frames, phase⟩, hending, rfl⟩ := follow?_ending r
  obtain ⟨finished', hbraces⟩ := follow?_closeBraces finished frames
  -- The last instruction is there because a document is never empty.
  have hmore := follow?_trees [.directive .style [] 1] finished'
  refine ⟨r.phase.ending.map .plain ++ (List.replicate frames.length (.plain .closeBrace) ++
    [Tree.directive .style [] 1].flatMap Tree.leaves),
    ⟨.directive .style .empty 1 :: finished', [], .between⟩, _, ?_, rfl⟩
  rw [follow?_append, hending, Option.bind_some, follow?_append, hbraces, Option.bind_some]
  exact hmore

/-- Where reading stops: at the first token that the reader cannot take, or at the end. -/
theorem readFrom_eq_error {r : Reader} {line : Nat} {ts : List Token} {e : SyntaxError}
    (h : r.readFrom line ts = .error e) :
    ∃ before behind r', ts = before ++ behind ∧
      r.follow? (before.map Token.leaf) = some r' ∧ e.found = behind.head? ∧
      (∀ t ∈ behind.head?, r'.step? t = none) ∧
        e.line = ((behind.head?.or before.getLast?).map Token.line).getD line := by
  induction ts generalizing r line with
  | nil =>
    rw [readFrom] at h
    split at h
    · cases h
    · cases h
      exact ⟨[], [], r, rfl, rfl, rfl, by simp, rfl⟩
  | cons t ts ih =>
    rw [readFrom] at h
    split at h
    · next s hs =>
      obtain ⟨before, behind, r', rfl, hr', hfound, hstop, hline⟩ := ih h
      refine ⟨t :: before, behind, r', rfl, ?_, hfound, hstop, ?_⟩
      · rw [List.map_cons, follow?, step?_token_leaf, hs]
        exact hr'
      · rw [hline, List.getLast?_cons]
        cases behind.head? <;> cases before.getLast? <;> rfl
    · next hs =>
      cases h
      exact ⟨[], t :: ts, r, rfl, rfl, rfl, by simpa using hs, rfl⟩

end Reader

/-! ## Viable tokens -/

/-- **Tokens are viable just if the reader can follow them.** -/
theorem viable_iff {ts : List Token} :
    Viable ts ↔ ∃ r, Reader.start.follow? (ts.map Token.leaf) = some r := by
  constructor
  · rintro ⟨us, is, h⟩
    obtain ⟨r', hr', -⟩ := Reader.readFrom_eq_ok_iff.1 h
    rw [List.map_append, Reader.follow?_append] at hr'
    obtain ⟨r, hr, -⟩ := Option.bind_eq_some_iff.1 hr'
    exact ⟨r, hr⟩
  · rintro ⟨r, hr⟩
    obtain ⟨ls, r', is, hls, his⟩ := r.exists_document
    refine ⟨ls.map Leaf.token, is, Reader.readFrom_eq_ok_iff.2 ⟨r', ?_, his⟩⟩
    rw [List.map_append, Reader.follow?_append, hr, Option.bind_some, Reader.follow?_map_token, hls]

theorem not_viable_of_step? {ts : List Token} {t : Token} {r : Reader}
    (hr : Reader.start.follow? (ts.map Token.leaf) = some r) (ht : r.step? t = none) :
    ¬ Viable (ts ++ [t]) := by
  rw [viable_iff, List.map_append, Reader.follow?_append, hr, Option.bind_some, List.map_singleton,
    Reader.follow?, Reader.step?_token_leaf, ht]
  simp

/-- Reading fails at the end of the tokens just if they are viable: then something is missing. -/
theorem found_eq_none_iff_viable {ts : List Token} {e : SyntaxError}
    (h : Instruction.read ts = .error e) : e.found = none ↔ Viable ts := by
  obtain ⟨before, behind, r, rfl, hr, hfound, hstop, -⟩ := Reader.readFrom_eq_error h
  rw [hfound, List.head?_eq_none_iff]
  constructor
  · rintro rfl
    rw [List.append_nil]
    exact viable_iff.2 ⟨r, hr⟩
  · intro hviable
    cases behind with
    | nil => rfl
    | cons t behind =>
      rw [List.append_cons] at hviable
      exact absurd hviable.of_append (not_viable_of_step? hr (hstop t rfl))

/-- **A syntax error stands at the first impossible token.** What is in front of it is the beginning
of some document, and with it there is none. Where the tokens end too early, all of them are the
beginning of some document. The line is that of the offending token, or else of the last. -/
theorem error_at_first_impossible {ts : List Token} {e : SyntaxError}
    (h : Instruction.read ts = .error e) :
    ∃ k ≤ ts.length, e.found = ts[k]? ∧ Viable (ts.take k) ∧
      (k < ts.length → ¬ Viable (ts.take (k + 1))) ∧
        e.line = ((ts[k]?.or ts.getLast?).map Token.line).getD 1 := by
  obtain ⟨before, behind, r, rfl, hr, hfound, hstop, hline⟩ := Reader.readFrom_eq_error h
  have hat : (before ++ behind)[before.length]? = behind.head? := by
    rw [List.getElem?_append_right (Nat.le_refl _), Nat.sub_self, List.head?_eq_getElem?]
  refine ⟨before.length, by simp, hfound.trans hat.symm, ?_, fun hlt => ?_, ?_⟩
  · rw [List.take_left]
    exact viable_iff.2 ⟨r, hr⟩
  · cases behind with
    | nil => simp at hlt
    | cons t behind =>
      rw [List.append_cons, List.take_left' (by simp)]
      exact not_viable_of_step? hr (hstop t rfl)
  · rw [hat, hline]
    cases behind with
    | nil => rw [List.append_nil]
    | cons t behind => rfl

/-- Where the first argument name is missing, the comma is impossible. -/
theorem error_at_first_impossible_comma :
    let comma : Token := ⟨.comma, ",", 2, 8, 9⟩
    let ts : List Token := [⟨.keyword (.directive .style), "$style", 1, 0, 6⟩,
      ⟨.openParen, "(", 1, 6, 7⟩, comma, ⟨.closeParen, ")", 2, 9, 10⟩]
    ∃ k ≤ ts.length, some comma = ts[k]? ∧ Viable (ts.take k) ∧
      (k < ts.length → ¬ Viable (ts.take (k + 1))) ∧
        2 = ((ts[k]?.or ts.getLast?).map Token.line).getD 1 :=
  error_at_first_impossible (e := ⟨some ⟨.comma, ",", 2, 8, 9⟩, 2, .argument⟩) rfl

/-! ## Nothing behind the offending token counts -/

/-- The error at a token that the reader cannot take, with nothing behind it. -/
theorem Reader.readFrom_concat_of_follow? {r s : Reader} {before : List Token} {t : Token}
    (line : Nat) (hs : r.follow? (before.map Token.leaf) = some s) (ht : s.step? t = none) :
    r.readFrom line (before ++ [t]) = .error ⟨some t, t.line, s.phase.context⟩ := by
  induction before generalizing r line with
  | nil =>
    cases hs
    simp [readFrom, ht]
  | cons u before ih =>
    rw [List.map_cons, follow?, step?_token_leaf] at hs
    obtain ⟨r', hr', hs⟩ := Option.bind_eq_some_iff.1 hs
    rw [List.cons_append, readFrom, hr']
    exact ih u.line hs

/-- The first tokens, as many as given, are viable, and no more are. -/
structure LongestViable (ts : List Token) (k : Nat) : Prop where
  le_length : k ≤ ts.length
  viable : Viable (ts.take k)
  longest : ∀ j ≤ ts.length, Viable (ts.take j) → j ≤ k

theorem LongestViable.unique {ts : List Token} {j k : Nat} (hj : LongestViable ts j)
    (hk : LongestViable ts k) : j = k :=
  Nat.le_antisymm (hk.longest j hj.le_length hj.viable) (hj.longest k hk.le_length hk.viable)

theorem Viable.take {ts : List Token} {j k : Nat} (h : Viable (ts.take k)) (hjk : j ≤ k) :
    Viable (ts.take j) := by
  have hsplit : (ts.take k).take j = ts.take j := by rw [List.take_take, Nat.min_eq_left hjk]
  rw [← List.take_append_drop j (ts.take k), hsplit] at h
  exact h.of_append

/-- What is in front of a token that the reader cannot take is the longest viable beginning. -/
theorem longestViable_of_step? {before behind : List Token} {t : Token} {r : Reader}
    (hr : Reader.start.follow? (before.map Token.leaf) = some r) (ht : r.step? t = none) :
    LongestViable (before ++ t :: behind) before.length where
  le_length := by simp
  viable := by
    rw [List.take_left]
    exact viable_iff.2 ⟨r, hr⟩
  longest := by
    intro j hj hviable
    by_contra hlt
    have hnext : before.length + 1 ≤ j := by omega
    have hstop := hviable.take hnext
    rw [List.append_cons, List.take_left' (by simp)] at hstop
    exact not_viable_of_step? hr ht hstop

theorem longestViable_of_viable {ts : List Token} (h : Viable ts) :
    LongestViable ts ts.length where
  le_length := Nat.le_refl _
  viable := by
    rw [List.take_length]
    exact h
  longest := fun _ hj _ => hj

/-- Tokens that agree up to the offending one have the error there. -/
theorem read_eq_error_of_agree {before behind us : List Token} {t : Token} {r : Reader}
    (hr : Reader.start.follow? (before.map Token.leaf) = some r) (ht : r.step? t = none)
    (hagree : ∀ i ≤ before.length, us[i]? = (before ++ t :: behind)[i]?) :
    Instruction.read us = .error ⟨some t, t.line, r.phase.context⟩ := by
  have hstop : Instruction.read (before ++ [t]) = .error ⟨some t, t.line, r.phase.context⟩ :=
    Reader.readFrom_concat_of_follow? 1 hr ht
  have hbeginning : us.take (before.length + 1) = before ++ [t] := by
    apply List.ext_getElem?
    intro i
    rw [List.getElem?_take]
    by_cases hi : i < (before ++ [t]).length
    · rw [List.length_append, List.length_singleton] at hi
      rw [if_pos hi, hagree i (Nat.le_of_lt_succ hi), List.append_cons,
        List.getElem?_append_left (by rwa [List.length_append, List.length_singleton])]
    · rw [List.getElem?_eq_none (Nat.le_of_not_lt hi), if_neg]
      rwa [List.length_append, List.length_singleton] at hi
  rw [← us.take_append_drop (before.length + 1), hbeginning]
  exact read_append_of_error hstop rfl

/-- **A syntax error depends on nothing behind the offending token.** The tokens have a longest
viable beginning. Unless that is all of them, any tokens that agree with them so far and in the
token behind it are rejected with the same error: the same token, line and context. -/
theorem error_independent_of_rest {ts : List Token} {e : SyntaxError}
    (h : Instruction.read ts = .error e) :
    (∃ k, LongestViable ts k) ∧
      ∀ k us, LongestViable ts k → k < ts.length → (∀ i ≤ k, us[i]? = ts[i]?) →
        Instruction.read us = .error e := by
  obtain ⟨before, behind, r, rfl, hr, -, hstop, -⟩ := Reader.readFrom_eq_error h
  cases behind with
  | nil =>
    have hall : LongestViable (before ++ []) before.length := by
      rw [List.append_nil]
      exact longestViable_of_viable (viable_iff.2 ⟨r, hr⟩)
    refine ⟨⟨_, hall⟩, ?_⟩
    intro k us hk hlt
    rw [hk.unique hall, List.append_nil] at hlt
    exact absurd hlt (Nat.lt_irrefl _)
  | cons t behind =>
    have hstep := hstop t rfl
    have hlongest : LongestViable (before ++ t :: behind) before.length :=
      longestViable_of_step? hr hstep
    refine ⟨⟨_, hlongest⟩, ?_⟩
    intro k us hk _ hagree
    obtain rfl := hk.unique hlongest
    rw [read_eq_error_of_agree hr hstep hagree, ← h]
    exact (read_eq_error_of_agree hr hstep fun i _ => rfl).symm

/-- Behind the impossible comma the list may be closed, or the tokens end. -/
theorem error_independent_of_rest_comma :
    let style : Token := ⟨.keyword (.directive .style), "$style", 1, 0, 6⟩
    let opening : Token := ⟨.openParen, "(", 1, 6, 7⟩
    let comma : Token := ⟨.comma, ",", 2, 8, 9⟩
    let ts : List Token := [style, opening, comma, ⟨.closeParen, ")", 2, 9, 10⟩]
    let us : List Token := [style, opening, comma]
    Instruction.read ts = .error ⟨some comma, 2, .argument⟩ ∧ LongestViable ts 2 ∧
      (∀ i ≤ 2, us[i]? = ts[i]?) ∧ Instruction.read us = .error ⟨some comma, 2, .argument⟩ := by
  intro style opening comma ts us
  have hread : Instruction.read ts = .error ⟨some comma, 2, .argument⟩ := rfl
  have hlongest : LongestViable ([style, opening] ++ comma :: [⟨.closeParen, ")", 2, 9, 10⟩]) 2 :=
    longestViable_of_step? rfl rfl
  have hagree : ∀ i ≤ 2, us[i]? = ts[i]? := by decide
  exact ⟨hread, hlongest, hagree,
    (error_independent_of_rest hread).2 2 us hlongest (by decide) hagree⟩

end Folio
