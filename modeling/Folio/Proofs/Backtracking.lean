import Folio.Instruction.Productions
import Folio.Proofs.Mirroring

/-!
# Reading needs no going back

The productions are read with parsers that go back. Where an item of a list fails, the list ends in
front of the item, and what stands behind a list is tried at that place. The reader takes every
token once.

**Theorem (`parse_eq_read`).** Both find the same instructions, or the same error: at the same
token, on the same line, and with the same label.

Each production mirrors the reader (`Mirrors`), from the phase in which its first token is expected.
Two facts about the grammar carry this. One token tells whether a list goes on, since no token that
closes a list begins an item of it; and the keyword tells which production it is. So what is given
up when a list ends is either an error at the closing token, which is forgotten behind it, or it is
further on than any other. Behind a comma, for example, an argument has to follow. If it does not,
the list ends in front of the comma and the parenthesis is missed there, but the error of the
argument counts.
-/

namespace Folio

open Folio.Parser
open Located (AllBefore)

theorem Frame.close_foldl_add (f : Frame) (nodes : List Node) :
    (nodes.foldl Frame.add f).close =
      .block f.kind f.arguments (f.content.reverse ++ nodes) f.line := by
  induction nodes generalizing f with
  | nil => simp [Frame.close]
  | cons node nodes ih => simp [ih, Frame.add]

namespace Production

variable {c : Option Context} {r : Reader} {s : Input} {t : Token} {p : Parser Instruction}

/-! ## Argument lists -/

theorem mirrors_literal (r : Reader) (head : Head) (args : Arguments) (name : String) (s : Input) :
    Mirrors (some .argument) (r.goto (.value head args name))
      (fun v => r.goto (.separator head (args.insert name v))) s (literal s) := by
  refine Mirrors.filterMap rfl rfl ?_ ?_
  · intro t _ h
    cases hk : t.kind <;> simp_all [Reader.step?, Reader.goto]
  · intro t v h
    cases hk : t.kind <;> simp_all [Reader.step?, Reader.goto]

/-- **An argument**, where the reader knows what to do with a name. -/
theorem mirrors_argument {phase : Phase} {head : Head} {args : Arguments}
    (hcontext : phase.context = .argument)
    (hname : ∀ t name, t.kind = .argumentName name →
      (r.goto phase).step? t = some (r.goto (.equals head args name)))
    (hother : ∀ t ∈ s.rest.head?, (∀ name, t.kind ≠ .argumentName name) →
      (r.goto phase).step? t = none) :
    Mirrors c (r.goto phase) (fun w => r.goto (.separator head (args.insert w.1 w.2))) s
      (argument s) := by
  have hdocument : (r.goto phase).document? = none := by
    cases phase <;> first | rfl | cases hcontext
  have hargumentName : Mirrors (some .argument) (r.goto phase)
      (fun name => r.goto (.equals head args name)) s (argumentName s) := by
    refine Mirrors.filterMap (congrArg some hcontext) hdocument ?_ ?_
    · intro t ht h
      refine hother t ht ?_
      intro name hk
      simp [hk] at h
    · intro t name h
      refine hname t name ?_
      revert h
      cases t.kind <;> simp
  have hequals : Mirrors (some .argument) (r.goto phase)
      (fun name => r.goto (.value head args name)) s
      ((argumentName.thenIgnore (kind .equals)) s) :=
    hargumentName.thenIgnore fun _ _ _ => Mirrors.kind rfl rfl fun _ => rfl
  exact Mirrors.labelled (hequals.andThen fun name s' _ => mirrors_literal r head args name s')

theorem argument_of_closeParen (ht : t ∈ s.rest.head?) (hk : t.kind = .closeParen) :
    argument s = .error (s.miss.labelled .argument) := by
  have hmiss : argumentName s = .error s.miss := by
    refine filterMap_of_none ?_
    intro u hu
    rw [Option.mem_unique hu ht, hk]
  simp only [argument, Parser.labelled, Parser.andThen, Parser.thenIgnore, hmiss]
  rfl

/-- The arguments behind one, up to the end of the list. -/
theorem mirrors_separatedFrom (r : Reader) (head : Head) (args : Arguments)
    {alternative : Option Located} (halternative : AllBefore alternative s.offset) :
    Mirrors (some .argumentList) (r.goto (.separator head args))
      (fun ws => r.closeList (ws.foldl (fun args w => args.insert w.1 w.2) args) head) s
      ((separatedFrom argument (kind .comma) s alternative).thenIgnore (kind .closeParen)) := by
  refine Mirrors.separatedFrom (fun args => r.goto (.separator head args))
    (fun args => r.closeList args head) (fun args => r.goto (.nextName head args))
    (by decide) ?_ ?_ ?_ args halternative
  · intro args t ht
    simp [Reader.step?, Reader.goto, ht, Reader.closeList, Reader.finish]
  · intro args s' hclose
    refine Mirrors.filterMap rfl rfl ?_ ?_
    · intro t ht h
      have := hclose t ht
      cases hk : t.kind <;> simp_all [Reader.step?, Reader.goto]
    · intro t v h
      cases hk : t.kind <;> simp_all [Reader.step?, Reader.goto]
  · intro args s'
    refine mirrors_argument rfl ?_ ?_
    · intro t name ht
      simp [Reader.step?, Reader.goto, ht]
    · intro t _ h
      cases hk : t.kind <;> simp_all [Reader.step?, Reader.goto]

theorem mirrors_separatedBy (r : Reader) (head : Head) (s : Input) :
    Mirrors (some .argumentList) (r.goto (.firstName head))
      (fun ws => r.closeList (.ofList ws) head) s
      (((argument.separatedBy (kind .comma)).thenIgnore (kind .closeParen)) s) := by
  refine Mirrors.separatedBy
    (fun w => r.goto (.separator head (Arguments.empty.insert w.1 w.2))) ?_ ?_ ?_ ?_
  · intro t ht
    simp [Reader.step?, Reader.goto, ht, Reader.closeList, Reader.finish, Arguments.ofList]
  · intro t ht hk
    exact ⟨_, argument_of_closeParen ht hk, rfl⟩
  · intro hclose
    refine mirrors_argument rfl ?_ ?_
    · intro t name ht
      simp [Reader.step?, Reader.goto, ht]
    · intro t ht h
      have := hclose t ht
      cases hk : t.kind <;> simp_all [Reader.step?, Reader.goto]
  · intro w s' alternative halternative
    exact mirrors_separatedFrom r head _ halternative

theorem mirrors_argumentList (r : Reader) (head : Head) (s : Input) :
    Mirrors c (r.goto (.openList head)) (fun args => r.closeList args head) s (argumentList s) := by
  have h : Mirrors (some .argumentList) (r.goto (.openList head))
      (fun ws => r.closeList (.ofList ws) head) s
      (((argument.separatedBy (kind .comma)).delimitedBy (kind .openParen) (kind .closeParen))
        s) := by
    rw [delimitedBy_kind]
    refine Mirrors.ignoreThen (Mirrors.kind rfl rfl fun _ => rfl) ?_
    intro _ s' _
    exact mirrors_separatedBy r head s'
  exact (h.map fun _ => rfl).labelled

/-! ## Emphasis -/

theorem mirrors_emptyArgumentList (r : Reader) (kind : EmphasisKind) (line : Nat) (s : Input) :
    Mirrors c (r.goto (.emphasisList kind line)) (fun _ => r.goto (.emphasisOpen kind line)) s
      (emptyArgumentList s) := by
  have hopen : Mirrors (some .emptyArgumentList) (r.goto (.emphasisList kind line))
      (fun _ => r.goto (.emphasisListEnd kind line)) s (Parser.kind .openParen s) :=
    Mirrors.kind rfl rfl fun _ => rfl
  have hclose : Mirrors (some .emptyArgumentList) (r.goto (.emphasisList kind line))
      (fun _ => r.goto (.emphasisOpen kind line)) s
      (((Parser.kind .openParen).andThen (Parser.kind .closeParen)) s) :=
    hopen.andThen fun _ _ _ => Mirrors.kind rfl rfl fun _ => rfl
  refine Mirrors.labelled (Mirrors.map hclose ?_)
  intro _
  rfl

theorem text_of_other (h : ∀ t ∈ s.rest.head?, ∀ v, t.kind ≠ .text v) :
    text s = .error s.miss := by
  refine filterMap_of_none ?_
  intro t ht
  cases hk : t.kind <;> first | rfl | exact absurd hk (h t ht _)

theorem text_of_closeBrace (ht : t ∈ s.rest.head?) (hk : t.kind = .closeBrace) :
    text s = .error s.miss := by
  refine text_of_other ?_
  intro u hu v
  simp [Option.mem_unique hu ht, hk]

/-- The braces of an emphasis. -/
theorem mirrors_emphasisBraces (r : Reader) (kind : EmphasisKind) (line : Nat) (s : Input) :
    Mirrors (some .instruction) (r.goto (.emphasisOpen kind line))
      (fun text => r.finish (.emphasis kind (text.getD "") line)) s
      ((text.orNot.delimitedBy (Parser.kind .openBrace) (Parser.kind .closeBrace)) s) := by
  rw [delimitedBy_kind]
  refine Mirrors.ignoreThen (Mirrors.kind rfl rfl fun _ => rfl) ?_
  intro _ s' _
  refine Mirrors.orNot (fun text => r.goto (.emphasisClose kind line text)) ?_ ?_ ?_ ?_
  · intro t ht
    simp [Reader.step?, Reader.goto, ht, Reader.finish]
  · intro t ht hk
    exact ⟨_, text_of_closeBrace ht hk, rfl⟩
  · intro hclose
    refine Mirrors.filterMap rfl rfl ?_ ?_
    · intro t ht h
      have := hclose t ht
      cases hk : t.kind <;> simp_all [Reader.step?, Reader.goto]
    · intro t v h
      cases hk : t.kind <;> simp_all [Reader.step?, Reader.goto]
  · intro text s'
    exact Mirrors.kind rfl rfl fun _ => rfl

/-! ## Content -/

/-- An instruction is read if the next token is a keyword, and else there is an error at it. -/
structure ReadsInstruction (s : Input) (a : Attempt Instruction) : Prop where
  reads {c : Option Context} {r : Reader} {t : Token} {k : Keyword} (hr : r.phase = .between)
    (ht : t ∈ s.rest.head?) (hk : t.kind = .keyword k) : Mirrors c r r.finish s a
  misses (h : ∀ t ∈ s.rest.head?, ∀ k, t.kind ≠ .keyword k) :
    a = .error (s.miss.labelled .instruction)

/-- A text or an instruction in an open block. -/
theorem mirrors_node (hp : ReadsInstruction s (p s)) (finished : List Instruction) (f : Frame)
    (fs : List Frame) (hclose : ∀ t ∈ s.rest.head?, t.kind ≠ .closeBrace) :
    Mirrors c ⟨finished, f :: fs, .between⟩ (fun node => ⟨finished, f.add node :: fs, .between⟩) s
      (node p s) := by
  by_cases htext : ∀ t ∈ s.rest.head?, ¬∃ v, t.kind = .text v
  · have hmiss : text s = .error s.miss := text_of_other fun t ht v hv => htext t ht ⟨v, hv⟩
    refine Mirrors.or_of_miss (by rw [Parser.map, hmiss]; rfl) ?_
    by_cases hkeyword : ∀ t ∈ s.rest.head?, ¬∃ k, t.kind = .keyword k
    · -- Neither begins here, and the error is labelled as that of an instruction.
      rw [Parser.map, hp.misses fun t ht k hk => hkeyword t ht ⟨k, hk⟩]
      refine Mirrors.labelled (.stuck rfl (fun _ => rfl) ?_)
      intro t ht
      have := htext t ht
      have := hkeyword t ht
      have := hclose t ht
      cases hk : t.kind <;> simp_all [Reader.step?, Reader.between?]
    · obtain ⟨n, t, ts, rfl, k, hk⟩ := exists_head hkeyword
      have h : Mirrors c ⟨finished, f :: fs, .between⟩ (Reader.finish ⟨finished, f :: fs, .between⟩)
          ⟨n, t :: ts⟩ (p ⟨n, t :: ts⟩) := hp.reads rfl rfl hk
      exact h.map fun _ => rfl
  · obtain ⟨n, t, ts, rfl, v, hv⟩ := exists_head htext
    have hread : text ⟨n, t :: ts⟩ = .ok ⟨v, ⟨n + 1, ts⟩, none⟩ :=
      filterMap_of_some (by rw [hv])
    simp only [node, Parser.or, Parser.map, hread]
    refine .goes (.of_step ?_) (Located.allBefore_none _)
    simp [Reader.step?, Reader.between?, hv]

theorem node_of_closeBrace (hp : ReadsInstruction s (p s)) (ht : t ∈ s.rest.head?)
    (hk : t.kind = .closeBrace) :
    node p s = .error (s.miss.labelled .instruction) := by
  have hmiss : p s = .error (s.miss.labelled .instruction) := by
    refine hp.misses ?_
    intro u hu k
    simp [Option.mem_unique hu ht, hk]
  simp only [node, Parser.or, Parser.map, text_of_closeBrace ht hk, hmiss, Attempt.map,
    ((Located.within_miss s).labelled .instruction).miss_furthest]

theorem mirrors_content
    (hp : ∀ s', s'.rest.length < s.rest.length → ReadsInstruction s' (p s')) (r : Reader)
    (kind : BlockKind) (line : Nat) (args : Arguments) :
    Mirrors c (r.goto (.openContent kind line args))
      (fun nodes => r.finish (.block kind args nodes line)) s (content p s) := by
  refine Mirrors.labelled ?_
  rw [delimitedBy_kind]
  refine Mirrors.ignoreThen (Mirrors.kind rfl rfl fun _ => rfl) ?_
  intro _ s' hs'
  rw [Parser.thenIgnore, repeated]
  -- The reader adds the nodes to its innermost block one by one.
  have hpost : ∀ nodes, r.finish (.block kind args nodes line) =
      r.finish (nodes.foldl Frame.add ⟨kind, line, args, []⟩).close := by
    intro nodes
    rw [Frame.close_foldl_add]
    rfl
  simp only [hpost]
  refine Mirrors.repeatedFrom (fun f => ⟨r.finished, f :: r.frames, .between⟩)
    (fun f => r.finish f.close) ?_ ?_ ?_ _ (Located.allBefore_none _)
  · intro f t ht
    simp [Reader.step?, Reader.between?, Reader.finish, ht]
  · intro s'' hs'' t ht hclose
    exact ⟨_, node_of_closeBrace (hp s'' (Nat.lt_of_le_of_lt hs'' hs')) ht hclose, rfl⟩
  · intro f s'' hs'' hclose
    exact mirrors_node (hp s'' (Nat.lt_of_le_of_lt hs'' hs')) r.finished f r.frames hclose

/-! ## Instructions -/

section

variable {n : Nat} {ts : List Token}

theorem mirrors_keyword {k : Keyword} {post : Token → Reader} (hk : t.kind = .keyword k)
    (hstep : r.step? t = some (post t)) :
    Mirrors c r post ⟨n, t :: ts⟩ (keyword k ⟨n, t :: ts⟩) := by
  rw [keyword, kind_of_eq hk]
  exact .goes (.of_step hstep) (Located.allBefore_none _)

theorem mirrors_directive {kind : DirectiveKind} (hk : t.kind = .keyword (.directive kind))
    (hr : r.phase = .between) :
    Mirrors (some .instruction) r r.finish ⟨n, t :: ts⟩ (directive kind ⟨n, t :: ts⟩) := by
  have hkeyword : Mirrors (some .instruction) r
      (fun t => r.goto (.openList (.directive kind t.line))) ⟨n, t :: ts⟩
      (keyword (.directive kind) ⟨n, t :: ts⟩) :=
    mirrors_keyword hk (by simp [Reader.step?, Reader.between?, hr, hk])
  have hlist : Mirrors (some .instruction) r (fun v => r.finish (.directive kind v.2 v.1.line))
      ⟨n, t :: ts⟩ (((keyword (.directive kind)).andThen argumentList) ⟨n, t :: ts⟩) :=
    hkeyword.andThen fun t s' _ => mirrors_argumentList r (.directive kind t.line) s'
  exact hlist.map fun _ => rfl

theorem mirrors_block
    (hp : ∀ s : Input, s.rest.length < (t :: ts).length → ReadsInstruction s (p s))
    {kind : BlockKind} (hk : t.kind = .keyword (.block kind)) (hr : r.phase = .between) :
    Mirrors (some .instruction) r r.finish ⟨n, t :: ts⟩ (block kind (content p) ⟨n, t :: ts⟩) := by
  have hkeyword : Mirrors (some .instruction) r
      (fun t => r.goto (.openList (.block kind t.line))) ⟨n, t :: ts⟩
      (keyword (.block kind) ⟨n, t :: ts⟩) :=
    mirrors_keyword hk (by simp [Reader.step?, Reader.between?, hr, hk])
  have hlist : Mirrors (some .instruction) r (fun v => r.goto (.openContent kind v.1.line v.2))
      ⟨n, t :: ts⟩ (((keyword (.block kind)).andThen argumentList) ⟨n, t :: ts⟩) :=
    hkeyword.andThen fun t s' _ => mirrors_argumentList r (.block kind t.line) s'
  have hcontent : Mirrors (some .instruction) r
      (fun v => r.finish (.block kind v.1.2 v.2 v.1.1.line)) ⟨n, t :: ts⟩
      ((((keyword (.block kind)).andThen argumentList).andThen (content p)) ⟨n, t :: ts⟩) :=
    hlist.andThen fun v s' hs' =>
      mirrors_content (fun u hu => hp u (Nat.lt_trans hu hs')) r kind v.1.line v.2
  exact hcontent.map fun _ => rfl

theorem mirrors_emphasis {kind : EmphasisKind} (hk : t.kind = .keyword (.emphasis kind))
    (hr : r.phase = .between) :
    Mirrors (some .instruction) r r.finish ⟨n, t :: ts⟩ (emphasis kind ⟨n, t :: ts⟩) := by
  have hkeyword : Mirrors (some .instruction) r (fun t => r.goto (.emphasisList kind t.line))
      ⟨n, t :: ts⟩ (keyword (.emphasis kind) ⟨n, t :: ts⟩) :=
    mirrors_keyword hk (by simp [Reader.step?, Reader.between?, hr, hk])
  have hlist : Mirrors (some .instruction) r (fun t => r.goto (.emphasisOpen kind t.line))
      ⟨n, t :: ts⟩ (((keyword (.emphasis kind)).thenIgnore emptyArgumentList) ⟨n, t :: ts⟩) :=
    hkeyword.thenIgnore fun t s' _ => mirrors_emptyArgumentList r kind t.line s'
  have hbraces : Mirrors (some .instruction) r
      (fun v => r.finish (.emphasis kind (v.2.getD "") v.1.line)) ⟨n, t :: ts⟩
      ((((keyword (.emphasis kind)).thenIgnore emptyArgumentList).andThen
        (text.orNot.delimitedBy (Parser.kind .openBrace) (Parser.kind .closeBrace)))
          ⟨n, t :: ts⟩) :=
    hlist.andThen fun t s' _ => mirrors_emphasisBraces r kind t.line s'
  exact hbraces.map fun _ => rfl

/-- What a keyword begins, where the instructions in its content are read. -/
theorem mirrors_ofKeyword
    (hp : ∀ s : Input, s.rest.length < (t :: ts).length → ReadsInstruction s (p s)) {k : Keyword}
    (hk : t.kind = .keyword k) (hr : r.phase = .between) :
    Mirrors (some .instruction) r r.finish ⟨n, t :: ts⟩ (ofKeyword p k ⟨n, t :: ts⟩) := by
  cases k with
  | directive kind => exact mirrors_directive hk hr
  | block kind => exact mirrors_block hp hk hr
  | emphasis kind => exact mirrors_emphasis hk hr

end

theorem ofKeyword_of_other {k : Keyword} (h : ∀ t ∈ s.rest.head?, t.kind ≠ .keyword k) :
    ofKeyword p k s = .error s.miss := by
  have hmiss : keyword k s = .error s.miss := kind_of_ne h
  cases k <;> simp only [ofKeyword, directive, block, emphasis, Parser.map, Parser.andThen,
    Parser.thenIgnore, hmiss] <;> rfl

theorem readsInstruction_choice
    (hp : ∀ s', s'.rest.length < s.rest.length → ReadsInstruction s' (p s')) :
    ReadsInstruction s (((choice (Keyword.all.map (ofKeyword p))).labelled .instruction) s) := by
  constructor
  · intro c r t k hr ht hk
    obtain ⟨n, rest⟩ := s
    obtain ⟨ts, rfl⟩ := List.head?_eq_some_iff.1 ht
    have hhit := mirrors_ofKeyword (n := n) hp hk hr
    have hchoice : choice (Keyword.all.map (ofKeyword p)) ⟨n, t :: ts⟩ =
        ofKeyword p k ⟨n, t :: ts⟩ := by
      refine choice_map_of_hit (by decide) (Keyword.mem_all k) ?_ ?_
      · intro j hj
        refine ofKeyword_of_other ?_
        rintro u ⟨⟩ hu
        exact hj (Kind.keyword.inj (hu.symm.trans hk))
      · intro e he
        rw [he] at hhit
        exact hhit.within
    rw [Parser.labelled, hchoice]
    exact hhit.labelled
  · intro h
    have hchoice : choice (Keyword.all.map (ofKeyword p)) s = .error s.miss := by
      refine choice_of_misses (List.forall_mem_map.2 ?_)
      intro k _
      exact ofKeyword_of_other fun t ht => h t ht k
    rw [Parser.labelled, hchoice]
    rfl

/-- **An instruction.** Those in its content are behind its keyword, hence the induction on the rest
of the input. -/
theorem readsInstruction (s : Input) : ReadsInstruction s (instruction s) := by
  induction hn : s.rest.length using Nat.strongRecOn generalizing s with
  | ind n ih =>
    subst hn
    rw [instruction, recursive]
    refine readsInstruction_choice ?_
    intro s' hs'
    rw [if_pos hs']
    exact ih _ hs' s' rfl

/-! ## Documents -/

theorem mirrors_instruction (finished : List Instruction) (h : s.rest = [] → finished = []) :
    Mirrors c ⟨finished, [], .between⟩ (fun i => ⟨i :: finished, [], .between⟩) s
      (instruction s) := by
  by_cases hkeyword : ∀ t ∈ s.rest.head?, ¬∃ k, t.kind = .keyword k
  · rw [(readsInstruction s).misses fun t ht k hk => hkeyword t ht ⟨k, hk⟩]
    refine Mirrors.labelled (.stuck rfl ?_ ?_)
    · intro hrest
      rw [h hrest]
      rfl
    · intro t ht
      have := hkeyword t ht
      cases hk : t.kind <;> simp_all [Reader.step?, Reader.between?]
  · obtain ⟨n, t, ts, rfl, k, hk⟩ := exists_head hkeyword
    exact (readsInstruction ⟨n, t :: ts⟩).reads rfl rfl hk

/-- What comes of the rest of a document, where some instructions are finished. No label is left
open. -/
inductive Concludes (finished : List Instruction) (s : Input) : Attempt (List Instruction) → Prop
    where
  | fails {e : Located} {d : Context} (hlabel : e.label.context? = some d)
      (hread : ∀ line, (Reader.mk finished [] .between).readFrom line s.rest =
        .error (e.report d (lineBehind line s.rest))) : Concludes finished s (.error e)
  | succeeds {reply : Reply (List Instruction)}
      (hread : ∀ line, (Reader.mk finished [] .between).readFrom line s.rest =
        .ok (finished.reverse ++ reply.value)) : Concludes finished s (.ok reply)

namespace Concludes

variable {finished : List Instruction} {alternative : Option Located}

theorem after {i : Instruction} {s' : Input} {a : Attempt (List Instruction)}
    (hpasses : Passes ⟨finished, [], .between⟩ s ⟨i :: finished, [], .between⟩ s')
    (h : Concludes (i :: finished) s' a) : Concludes finished s (a.map (i :: ·)) := by
  obtain ⟨passed, -, hrest, -, hpassed⟩ := hpasses
  cases h with
  | fails hlabel hread =>
    refine .fails hlabel ?_
    intro line
    rw [hpassed, hread, hrest, lineBehind_append]
  | succeeds hread =>
    refine .succeeds ?_
    intro line
    rw [hpassed, hread]
    simp

/-- At the end of the input a document is complete if it has an instruction. -/
theorem of_end (n : Nat) (hfinished : finished ≠ []) :
    Concludes finished ⟨n, []⟩
      ((repeatedFrom instruction (1 - finished.length) ⟨n, []⟩ alternative).thenIgnore
        endOfInput) := by
  obtain ⟨i, is, rfl⟩ := List.exists_cons_of_ne_nil hfinished
  have hmiss := (readsInstruction ⟨n, []⟩).misses (by simp)
  have hleast : 1 - (i :: is).length = 0 := by simp
  simp only [repeatedFrom, hmiss, if_pos hleast]
  refine .succeeds ?_
  intro line
  rw [Reader.readFrom]
  simp [Reader.document?]

/-- Anywhere else the error of an instruction is the error of the document. -/
theorem of_error {e : Located} (hrest : s.rest = [] → finished = [])
    (halternative : AllBefore alternative s.offset) (hattempt : instruction s = .error e) :
    Concludes finished s
      ((repeatedFrom instruction (1 - finished.length) s alternative).thenIgnore endOfInput) := by
  have h : Mirrors none ⟨finished, [], .between⟩ (fun i => ⟨i :: finished, [], .between⟩) s
      (.error e) := hattempt ▸ mirrors_instruction finished hrest
  have hbefore := halternative.mono h.within.offset_le
  have herror : (repeatedFrom instruction (1 - finished.length) s alternative).thenIgnore
      endOfInput = .error e := by
    rw [repeatedFrom, hattempt]
    by_cases hleast : 1 - finished.length = 0
    · have hend : endOfInput s = .error s.miss := by
        obtain ⟨n, _ | ⟨t, ts⟩⟩ := s
        · rw [hrest rfl] at hleast
          cases hleast
        · rfl
      simp only [if_pos hleast, Located.mergeAlternatives_of_allBefore hbefore,
        Attempt.thenIgnore_of_miss h.within hend]
    · simp only [if_neg hleast, Located.orAlternative_of_allBefore hbefore]
      rfl
  rw [herror]
  cases h with
  | stops _ hlabel hread => exact .fails (by simpa using hlabel) hread

end Concludes

/-- The instructions of a document from here on, up to the end of the input. The first has to be
there, the others need not. -/
theorem concludes_document (finished : List Instruction) (s : Input) {alternative : Option Located}
    (halternative : AllBefore alternative s.offset) :
    Concludes finished s
      ((repeatedFrom instruction (1 - finished.length) s alternative).thenIgnore endOfInput) := by
  induction hn : s.rest.length using Nat.strongRecOn generalizing finished s alternative with
  | ind n ih =>
    subst hn
    by_cases hrest : s.rest = [] → finished = []
    · cases hattempt : instruction s with
      | error e => exact .of_error hrest halternative hattempt
      | ok reply =>
        have h := mirrors_instruction (c := none) finished hrest
        rw [hattempt] at h
        cases h with
        | goes hpasses hbefore =>
          have hlt := hpasses.length_lt
          have hle := Nat.le_of_lt hpasses.offset_lt
          have hmore := ih _ hlt (reply.value :: finished) reply.input
            ((halternative.mono hle).merge hbefore) rfl
          have hleast : 1 - finished.length - 1 = 1 - (reply.value :: finished).length := by
            rw [List.length_cons]
            omega
          rw [repeatedFrom, hattempt]
          simp only [if_pos hlt, Attempt.map_thenIgnore, hleast]
          exact hmore.after hpasses
    · obtain ⟨n, rest⟩ := s
      obtain ⟨rfl, hfinished⟩ := Classical.not_imp.1 hrest
      exact .of_end n hfinished

end Production

/-- A syntax error as an error of a parser. -/
def SyntaxError.parseError (e : SyntaxError) : ParseError := ⟨e.found, e.line, some e.context⟩

/-- **The productions and the reader agree**: on the instructions of a document, on the offending
token and its line, and on what was being read there. -/
theorem parse_eq_read (tokens : List Token) :
    Instruction.parse tokens = (Instruction.read tokens).mapError SyntaxError.parseError := by
  have h : Production.Concludes [] ⟨0, tokens⟩ (Production.document ⟨0, tokens⟩) :=
    Production.concludes_document [] ⟨0, tokens⟩ (Located.allBefore_none 0)
  rw [Instruction.parse, Instruction.read, Reader.start]
  cases hattempt : Production.document ⟨0, tokens⟩ with
  | error e =>
    rw [hattempt] at h
    cases h with
    | fails hlabel hread =>
      rw [hread, lineBehind_eq]
      simp only [hlabel]
      rfl
  | ok reply =>
    rw [hattempt] at h
    cases h with
    | succeeds hread =>
      rw [hread]
      rfl

/-- What was being read is known of every error. -/
theorem isSome_context_of_parse {tokens : List Token} {e : ParseError}
    (h : Instruction.parse tokens = .error e) : e.context.isSome := by
  rw [parse_eq_read] at h
  cases hread : Instruction.read tokens with
  | error f =>
    rw [hread] at h
    cases h
    rfl
  | ok is =>
    rw [hread] at h
    cases h

example :
    let token (kind : Kind) : Token := ⟨kind, "", 1, 0, 0⟩
    Instruction.parse ([.keyword (.directive .style), .openParen, .argumentName "name", .equals,
      .string "S", .comma, .closeParen].map token) =
        .error ⟨some (token .closeParen), 1, some .argument⟩ := by
  intro token
  rw [parse_eq_read]
  rfl

end Folio
