import Folio.Proofs.Seam

/-!
# Modes over a whole run

**Calls** (`Scanner.call`). A scanner is asked for one item after the other, and may be asked again
behind the last one. `behind n` is the scanner behind `n` calls, `yields n` what the next call
gives, and `yielded n` what the `n` calls have given: the first of the items (`yielded_eq_take`).

**Theorem (`modes_of_run`).** Behind any number of calls the mode is arguments mode just if an
opening parenthesis was given and no closing one since. Every token is of a kind that the mode
reads, and behind the last item nothing more is given and the mode stays.

A call moves the mode by the token that it gives (`mode_call`), so a run moves it by all its tokens
in turn (`mode_behind`). Of these the last parenthesis decides (`behind_eq_arguments_iff`).
-/

namespace Folio

/-! ## Calls -/

namespace Scanner

/-- What a call gives, and the scanner behind it. Behind the last item a call only skips blanks. -/
def call (s : Scanner) : Option Scanned × Scanner :=
  match s.next? with
  | some (i, t) => (some i, t)
  | none => (none, s.skipBlanks)

/-- The scanner behind `n` calls. -/
def behind (s : Scanner) : Nat → Scanner
  | 0 => s
  | n + 1 => (s.behind n).call.2

/-- What the call behind `n` others gives. -/
def yields (s : Scanner) (n : Nat) : Option Scanned := (s.behind n).call.1

/-- What `n` calls give. -/
def yielded (s : Scanner) : Nat → List Scanned
  | 0 => []
  | n + 1 => s.yielded n ++ (s.yields n).toList

variable {s t : Scanner} {i : Scanned}

theorem call_of_next?_eq_some (h : s.next? = some (i, t)) : s.call = (some i, t) := by
  rw [call, h]

theorem call_of_next?_eq_none (h : s.next? = none) : s.call = (none, s.skipBlanks) := by
  rw [call, h]

theorem front?_eq_none_iff : s.front? = none ↔ s.rest = [] := by
  unfold front?
  split
  · next h => simp [h]
  · next c cs h => split <;> simp [h]

theorem items_skipBlanks (h : s.next? = none) : s.skipBlanks.items = [] := by
  have hrest : Text.dropBlanks s.rest = [] := front?_eq_none_iff.1 h
  refine items_of_next?_eq_none (front?_eq_none_iff.2 ?_)
  show Text.dropBlanks (Text.dropBlanks s.rest) = []
  rw [hrest]
  rfl

/-- A call gives the first of the items that are left, and leaves the others. -/
theorem items_call (s : Scanner) : s.items.head? = s.call.1 ∧ s.items.tail = s.call.2.items := by
  cases h : s.next? with
  | some r =>
    rw [call_of_next?_eq_some h, items_of_next?_eq_some h]
    exact ⟨rfl, rfl⟩
  | none =>
    rw [call_of_next?_eq_none h, items_of_next?_eq_none h, items_skipBlanks h]
    exact ⟨rfl, rfl⟩

theorem items_behind (s : Scanner) (n : Nat) : (s.behind n).items = s.items.drop n := by
  induction n with
  | zero => rfl
  | succ n ih =>
    calc
      (s.behind n).call.2.items = (s.behind n).items.tail := (items_call _).2.symm
      _ = s.items.drop (n + 1) := by rw [ih, List.tail_drop]

theorem yields_eq_getElem? (s : Scanner) (n : Nat) : s.yields n = s.items[n]? := by
  rw [yields, ← (items_call _).1, items_behind, List.head?_drop]

/-- The calls give the items in turn. -/
theorem yielded_eq_take (s : Scanner) (n : Nat) : s.yielded n = s.items.take n := by
  induction n with
  | zero => rfl
  | succ n ih => rw [yielded, ih, yields_eq_getElem?, List.take_add_one]

/-- Behind the last item nothing more is given. -/
theorem yields_of_le {n k : Nat} (h : s.yields n = none) (hk : n ≤ k) : s.yields k = none := by
  rw [yields_eq_getElem?, List.getElem?_eq_none_iff] at h ⊢
  exact h.trans hk

theorem yielded_of_le {n k : Nat} (h : s.yields n = none) (hk : n ≤ k) :
    s.yielded k = s.yielded n := by
  rw [yields_eq_getElem?, List.getElem?_eq_none_iff] at h
  rw [yielded_eq_take, yielded_eq_take, List.take_of_length_le h,
    List.take_of_length_le (h.trans hk)]

end Scanner

/-! ## Kinds that a mode reads -/

/-- Tokens of the kind are read in the mode. Brackets are read in both. -/
def Mode.Reads : Mode → Kind → Prop
  | _, .openParen | _, .closeParen | _, .openBrace | _, .closeBrace => True
  | .document, .keyword _ | .document, .text _ => True
  | .arguments, .argumentName _ | .arguments, .string _ | .arguments, .number _ => True
  | .arguments, .equals | .arguments, .comma => True
  | _, _ => False

theorem reads_of_bracket? (m : Mode) {c : Char} {kind : Kind} (h : bracket? c = some kind) :
    m.Reads kind := by
  unfold bracket? at h
  split_ifs at h <;> cases h <;> trivial

theorem Lexeme.reads {m : Mode} {text rest : List Char} {kind : Kind}
    (h : Lexeme m text rest kind) : m.Reads kind := by
  cases h with
  | bracket rest hc => exact reads_of_bracket? m hc
  | _ => trivial

/-! ## The mode behind some tokens -/

/-- There is an opening parenthesis with no closing one behind it. -/
def LeftOpen (ks : List Kind) : Prop :=
  ∃ before since, ks = before ++ .openParen :: since ∧ .closeParen ∉ since

theorem leftOpen_cons {k : Kind} {ks : List Kind} :
    LeftOpen (k :: ks) ↔ LeftOpen ks ∨ k = .openParen ∧ .closeParen ∉ ks := by
  constructor
  · rintro ⟨before, since, h, hsince⟩
    cases before with
    | nil =>
      obtain ⟨rfl, rfl⟩ := List.cons.inj h
      exact .inr ⟨rfl, hsince⟩
    | cons j before => exact .inl ⟨before, since, (List.cons.inj h).2, hsince⟩
  · rintro (⟨before, since, rfl, hsince⟩ | ⟨rfl, hsince⟩)
    · exact ⟨k :: before, since, rfl, hsince⟩
    · exact ⟨[], ks, rfl, hsince⟩

/-- The last parenthesis decides, and without one the mode stays. -/
theorem behind_eq_arguments_iff (m : Mode) (ks : List Kind) :
    m.behind ks = .arguments ↔ LeftOpen ks ∨ m = .arguments ∧ .closeParen ∉ ks := by
  induction ks generalizing m with
  | nil => simp [Mode.behind, LeftOpen]
  | cons k ks ih =>
    show (m.after k).behind ks = .arguments ↔ _
    rw [ih, leftOpen_cons]
    cases k with
    | openParen =>
      simp only [Mode.after, List.mem_cons, reduceCtorEq, false_or, true_and]
      tauto
    | _ => simp [Mode.after]

namespace Scanner

variable {s : Scanner}

/-- A call moves the mode by the token that it gives. -/
theorem mode_call (s : Scanner) : s.call.2.mode = s.mode.behind (kindsOf s.call.1.toList) := by
  cases h : s.next? with
  | none =>
    rw [call_of_next?_eq_none h]
    rfl
  | some r =>
    obtain ⟨i, t⟩ := r
    rw [call_of_next?_eq_some h]
    unfold next? front? at h
    split at h
    · cases h
    · split at h
      · cases h
        rfl
      · cases h
        rfl

/-- A run moves the mode by its tokens. -/
theorem mode_behind (s : Scanner) (n : Nat) :
    (s.behind n).mode = s.mode.behind (kindsOf (s.yielded n)) := by
  induction n with
  | zero => rfl
  | succ n ih =>
    calc
      (s.behind n).call.2.mode = (s.behind n).mode.behind (kindsOf (s.yields n).toList) :=
        mode_call _
      _ = s.mode.behind (kindsOf (s.yielded (n + 1))) := by
        rw [ih, ← Mode.behind_append, ← kindsOf_append, yielded]

/-- A token is of a kind that the mode reads. -/
theorem reads_of_call {tok : Token} (h : s.call.1 = some (.token tok)) : s.mode.Reads tok.kind := by
  cases hnext : s.next? with
  | none =>
    rw [call_of_next?_eq_none hnext] at h
    cases h
  | some r =>
    rw [call_of_next?_eq_some hnext] at h
    obtain ⟨c, cs, -, hc, htoken⟩ := next?_eq_some hnext
    obtain ⟨n, hn, -⟩ := htoken tok (Option.some.inj h)
    obtain ⟨text, rest, -, -, hlexeme⟩ := (token?_eq_some_iff hc).1 hn
    exact hlexeme.reads

end Scanner

/-- **Modes over a whole run.** Behind any number of calls the mode is arguments mode just if an
opening parenthesis was given and no closing one since. A token is of a kind that the mode reads, an
illegal character leaves the mode, and if nothing is given then nothing is given any more and the
mode stays. -/
theorem modes_of_run (source : String) (n : Nat) :
    let s : Scanner := .ofSource source
    ((s.behind n).mode = .arguments ↔ LeftOpen (kindsOf (s.yielded n))) ∧
    (∀ t, s.yields n = some (.token t) → (s.behind n).mode.Reads t.kind) ∧
    (∀ e, s.yields n = some (.illegal e) → (s.behind (n + 1)).mode = (s.behind n).mode) ∧
    (s.yields n = none →
      ∀ k, n ≤ k → s.yields k = none ∧ (s.behind k).mode = (s.behind n).mode) := by
  intro s
  refine ⟨?_, fun t ht => Scanner.reads_of_call ht, fun e he => ?_, fun hnone k hk => ⟨?_, ?_⟩⟩
  · have hstart : s.mode ≠ .arguments := Mode.noConfusion
    rw [Scanner.mode_behind, behind_eq_arguments_iff]
    simp [hstart]
  · have hcall := Scanner.mode_call (s.behind n)
    rw [show (s.behind n).call.1 = _ from he] at hcall
    exact hcall
  · exact Scanner.yields_of_le hnone hk
  · rw [Scanner.mode_behind, Scanner.mode_behind, Scanner.yielded_of_le hnone hk]

theorem modes_of_run_stray :
    let s : Scanner := .ofSource "$title(]"
    (s.behind 2).mode = .arguments ∧ LeftOpen (kindsOf (s.yielded 2)) ∧
      (s.behind 0).mode.Reads (.keyword (.block .title)) ∧ (s.behind 3).mode = .arguments ∧
      s.yields 3 = none ∧ ∀ k, 3 ≤ k → s.yields k = none ∧ (s.behind k).mode = .arguments := by
  intro s
  have h₀ := modes_of_run "$title(]" 0
  have h₂ := modes_of_run "$title(]" 2
  have h₃ := modes_of_run "$title(]" 3
  have hmode : (s.behind 2).mode = .arguments := by decide +kernel
  have hnone : s.yields 3 = none := by decide +kernel
  have hstray : s.yields 2 = some (.illegal ⟨']', ⟨1, 8, 7⟩⟩) := by decide +kernel
  have htitle : s.yields 0 = some (.token ⟨.keyword (.block .title), "$title", 1, 0, 6⟩) := by
    decide +kernel
  have hstays := (h₂.2.2.1 _ hstray).trans hmode
  refine ⟨hmode, h₂.1.1 hmode, h₀.2.1 _ htitle, hstays, hnone, fun k hk => ?_⟩
  obtain ⟨hk, hsame⟩ := h₃.2.2.2 hnone k hk
  exact ⟨hk, hsame.trans hstays⟩

end Folio
