import Folio.Proofs.Grammar
import Mathlib.Data.List.Forall2

/-!
# The reader accepts the grammar

**Theorem (`read_eq_ok_iff_derives`).** Reading accepts exactly the token lists whose kinds some
derivation has, and gives the instructions of that derivation. There is only one.

Completeness is an induction over the derivation: read in front of any rest, the leaves of an
instruction lead from between two instructions to between two instructions (`follow?_tree`).
Soundness is the invariant `Reader.Reads` of a run: whatever was read is the leaves of finished
instructions, then of the beginnings of the open blocks, then of what the phase has begun.
-/

namespace Folio

/-! ## Runs of the reader -/

def Head.leaf : Head → Leaf
  | .directive kind line => .keyword (.directive kind) line
  | .block kind line => .keyword (.block kind) line

namespace Reader

/-- The state behind a sequence of leaves, if a document can go on with them. -/
def follow? (r : Reader) : List Leaf → Option Reader
  | [] => some r
  | l :: ls => (r.step? l.token).bind (·.follow? ls)

@[simp] theorem follow?_nil (r : Reader) : r.follow? [] = some r := rfl

/-- A step sees nothing of a token but its leaf. -/
theorem step?_token_leaf (r : Reader) (t : Token) : r.step? t.leaf.token = r.step? t := by
  have hk : t.leaf.token.kind = t.kind := t.kind_leaf
  by_cases h : ∃ k, t.kind = .keyword k
  · obtain ⟨k, h⟩ := h
    have hl : t.leaf.token.line = t.line := by rw [Token.leaf_of_keyword h]; rfl
    unfold step? between?
    rw [hk, hl]
  · unfold step? between?
    rw [hk]
    rcases r.phase <;> cases hk' : t.kind <;> simp_all

theorem readFrom_eq_ok_iff {r : Reader} {line : Nat} {ts : List Token}
    {is : List Instruction} :
    r.readFrom line ts = .ok is ↔
      ∃ r', r.follow? (ts.map Token.leaf) = some r' ∧ r'.document? = some is := by
  induction ts generalizing r line with
  | nil => cases h : r.document? <;> simp [readFrom, h]
  | cons t ts ih =>
    rw [List.map_cons, follow?, step?_token_leaf, readFrom]
    cases h : r.step? t with
    | none => simp
    | some r' => simpa using ih

/-! ## Completeness -/

/-- Behind the name of an argument. -/
theorem follow?_argument (r : Reader) (head : Head) (args : Arguments) (w : String × Literal)
    (ls : List Leaf) :
    (r.goto (.equals head args w.1)).follow? (.plain .equals :: .plain w.2.kind :: ls) =
      (r.goto (.separator head (args.insert w.1 w.2))).follow? ls := by
  obtain ⟨name, v⟩ := w
  cases v <;> rfl

theorem follow?_moreArguments (r : Reader) (head : Head) (ws vs : Written) (ls : List Leaf) :
    (r.goto (.separator head (.ofList ws))).follow?
        ((vs.flatMap fun v => .comma :: argumentKinds v).map .plain ++ ls) =
      (r.goto (.separator head (.ofList (ws ++ vs)))).follow? ls := by
  induction vs generalizing ws with
  | nil => simp
  | cons v vs ih =>
    have h : (r.goto (.separator head (.ofList ws))).follow?
          (.plain .comma :: (argumentKinds v).map .plain ++
            ((vs.flatMap fun v => .comma :: argumentKinds v).map .plain ++ ls)) =
        (r.goto (.separator head ((Arguments.ofList ws).insert v.1 v.2))).follow?
          ((vs.flatMap fun v => .comma :: argumentKinds v).map .plain ++ ls) :=
      follow?_argument r head (.ofList ws) v _
    rw [← Arguments.ofList_concat, ih] at h
    simpa using h

/-- An argument list leads behind it. -/
theorem follow?_list (r : Reader) (head : Head) (ws : Written) (ls : List Leaf) :
    (r.goto (.openList head)).follow? ((listKinds ws).map .plain ++ ls) =
      (r.closeList (.ofList ws) head).follow? ls := by
  have hclose : ∀ vs, (r.goto (.separator head (.ofList vs))).follow?
      (.plain .closeParen :: ls) = (r.closeList (.ofList vs) head).follow? ls := by
    intro vs
    cases head <;> rfl
  cases ws with
  | nil => cases head <;> rfl
  | cons w ws =>
    have h : (r.goto (.openList head)).follow? (.plain .openParen ::
          (argumentKinds w).map .plain ++
            ((ws.flatMap fun v => .comma :: argumentKinds v).map .plain ++
              .plain .closeParen :: ls)) =
        (r.goto (.separator head (.ofList [w]))).follow?
          ((ws.flatMap fun v => .comma :: argumentKinds v).map .plain ++
              .plain .closeParen :: ls) :=
      follow?_argument r head .empty w _
    rw [follow?_moreArguments, hclose] at h
    simpa [listKinds, separatedKinds] using h

theorem follow?_emphasis (r : Reader) (kind : EmphasisKind) (text : Option String) (line : Nat)
    (ls : List Leaf) :
    (r.goto (.emphasisList kind line)).follow? ((emphasisKinds text).map .plain ++ ls) =
      (r.finish (.emphasis kind (text.getD "") line)).follow? ls := by
  cases text <;> rfl

/-- The keyword of an instruction leads to what the keyword asks for. -/
theorem follow?_keyword {r : Reader} (hr : r.phase = .between) (head : Head) (ls : List Leaf) :
    r.follow? (head.leaf :: ls) = (r.goto (.openList head)).follow? ls := by
  cases head <;> simp [Head.leaf, Leaf.keyword, Leaf.token, follow?, step?, hr, between?]

mutual

/-- **The leaves of an instruction lead from between instructions to between instructions.** -/
theorem follow?_tree (r : Reader) (hr : r.phase = .between) (ls : List Leaf) :
    ∀ t : Tree, r.follow? (t.leaves ++ ls) = (r.finish t.instruction).follow? ls
  | .directive kind ws line => by
    have h := follow?_keyword hr (.directive kind line) ((listKinds ws).map .plain ++ ls)
    rw [follow?_list] at h
    exact h
  | .block kind ws content line => by
    have h := follow?_keyword hr (.block kind line) ((listKinds ws).map .plain ++
      .plain .openBrace :: (Branch.leaves content ++ .plain .closeBrace :: ls))
    have hopen : (r.closeList (.ofList ws) (.block kind line)).follow? (.plain .openBrace ::
          (Branch.leaves content ++ .plain .closeBrace :: ls)) =
        (Reader.mk r.finished (⟨kind, line, .ofList ws, []⟩ :: r.frames) .between).follow?
          (Branch.leaves content ++ .plain .closeBrace :: ls) := rfl
    have hfinish : ∀ i, (Reader.mk r.finished r.frames .between).finish i = r.finish i :=
      fun _ => rfl
    rw [follow?_list, hopen, follow?_content, hfinish] at h
    simpa [Tree.leaves, Tree.instruction, Head.leaf] using h
  | .emphasis kind text line => by
    have h : r.follow? (.keyword (.emphasis kind) line :: ((emphasisKinds text).map .plain ++ ls))
        = (r.goto (.emphasisList kind line)).follow? ((emphasisKinds text).map .plain ++ ls) := by
      simp [Leaf.keyword, Leaf.token, follow?, step?, hr, between?]
    rw [follow?_emphasis] at h
    simpa [Tree.leaves, Tree.instruction] using h

/-- The content of a block and the closing brace complete the block. -/
theorem follow?_content (finished : List Instruction) (f : Frame) (fs : List Frame)
    (ls : List Leaf) :
    ∀ content : List Branch,
      (Reader.mk finished (f :: fs) .between).follow?
          (Branch.leaves content ++ .plain .closeBrace :: ls) =
        ((Reader.mk finished fs .between).finish
          (.block f.kind f.arguments (f.content.reverse ++ Branch.nodes content) f.line)).follow?
            ls
  | [] => by
    simp [Branch.leaves, Branch.nodes, follow?, Leaf.plain, Leaf.token, step?, between?,
      Frame.close]
  | .text s :: content => by
    have h := follow?_content finished (f.add (.text s)) fs ls content
    have hs : (Reader.mk finished (f :: fs) .between).follow?
          (.plain (.text s) :: (Branch.leaves content ++ .plain .closeBrace :: ls)) =
        (Reader.mk finished (f.add (.text s) :: fs) .between).follow?
          (Branch.leaves content ++ .plain .closeBrace :: ls) := rfl
    rw [← hs] at h
    simpa [Branch.leaves, Branch.nodes, Frame.add] using h
  | .tree t :: content => by
    have h := follow?_tree (Reader.mk finished (f :: fs) .between) rfl
      (Branch.leaves content ++ .plain .closeBrace :: ls) t
    have hf : (Reader.mk finished (f :: fs) .between).finish t.instruction =
        Reader.mk finished (f.add (.instruction t.instruction) :: fs) .between := rfl
    rw [hf, follow?_content finished (f.add (.instruction t.instruction)) fs ls content] at h
    simpa [Branch.leaves, Branch.nodes, Frame.add] using h

end

theorem follow?_trees (trees : List Tree) (finished : List Instruction) :
    (Reader.mk finished [] .between).follow? (trees.flatMap Tree.leaves) =
      some ⟨(trees.map Tree.instruction).reverse ++ finished, [], .between⟩ := by
  induction trees generalizing finished with
  | nil => rfl
  | cons t trees ih =>
    rw [List.flatMap_cons, follow?_tree _ rfl]
    show (Reader.mk (t.instruction :: finished) [] .between).follow? _ = _
    rw [ih]
    simp

end Reader

/-! ## Soundness -/

/-- The leaves from a head to the middle of its argument list. -/
def listBegun (head : Head) (kinds : List Kind) : List Leaf :=
  head.leaf :: (.openParen :: kinds).map .plain

def emphasisBegun (kind : EmphasisKind) (line : Nat) (kinds : List Kind) : List Leaf :=
  .keyword (.emphasis kind) line :: kinds.map .plain

/-- What a phase has read of the instruction it is in. -/
def Phase.Reads : Phase → List Leaf → Prop
  | .between, ls => ls = []
  | .openList head, ls => ls = [head.leaf]
  | .firstName head, ls => ls = listBegun head []
  | .nextName head args, ls => ∃ ws ≠ [], args = .ofList ws ∧ ls = listBegun head (kindsAhead ws)
  | .equals head args name, ls =>
    ∃ ws, args = .ofList ws ∧ ls = listBegun head (kindsAhead ws ++ [.argumentName name])
  | .value head args name, ls =>
    ∃ ws, args = .ofList ws ∧ ls = listBegun head (kindsAhead ws ++ [.argumentName name, .equals])
  | .separator head args, ls =>
    ∃ ws ≠ [], args = .ofList ws ∧ ls = listBegun head (separatedKinds ws)
  | .openContent kind line args, ls =>
    ∃ ws, args = .ofList ws ∧ ls = (Head.block kind line).leaf :: (listKinds ws).map .plain
  | .emphasisList kind line, ls => ls = emphasisBegun kind line []
  | .emphasisListEnd kind line, ls => ls = emphasisBegun kind line [.openParen]
  | .emphasisOpen kind line, ls => ls = emphasisBegun kind line [.openParen, .closeParen]
  | .emphasisText kind line, ls =>
    ls = emphasisBegun kind line [.openParen, .closeParen, .openBrace]
  | .emphasisClose kind line s, ls =>
    ls = emphasisBegun kind line [.openParen, .closeParen, .openBrace, .text s]

/-- What an open block has read, up to the piece of content being read. -/
def Frame.Reads (f : Frame) (ls : List Leaf) : Prop :=
  ∃ ws content, f.arguments = .ofList ws ∧ f.content = (Branch.nodes content).reverse ∧
    ls = (Head.block f.kind f.line).leaf :: (listKinds ws).map .plain ++
      .plain .openBrace :: Branch.leaves content

namespace Reader

/-- What is behind the reader when no instruction is begun: finished instructions and the
beginnings of the open blocks, outermost first. -/
def ReadsBetween (r : Reader) (ls : List Leaf) : Prop :=
  ∃ (trees : List Tree) (opened : List (List Leaf)),
    r.finished = (trees.map Tree.instruction).reverse ∧ List.Forall₂ Frame.Reads r.frames opened ∧
      ls = trees.flatMap Tree.leaves ++ opened.reverse.flatten

/-- **The invariant.** What the reader has read so far. -/
def Reads (r : Reader) (ls : List Leaf) : Prop :=
  ∃ before begun, r.ReadsBetween before ∧ r.phase.Reads begun ∧ ls = before ++ begun

theorem reads_start : start.Reads [] :=
  ⟨[], [], ⟨[], [], rfl, .nil, rfl⟩, rfl, rfl⟩

/-- A piece of content joins the innermost open block. -/
theorem reads_add {finished : List Instruction} {f : Frame} {fs : List Frame} {phase : Phase}
    {before : List Leaf} (h : (Reader.mk finished (f :: fs) phase).ReadsBetween before)
    {b : Branch} {n : Node} (hn : Branch.nodes [b] = [n]) :
    (Reader.mk finished (f.add n :: fs) .between).Reads (before ++ Branch.leaves [b]) := by
  obtain ⟨trees, opened, hfin, hframes, rfl⟩ := h
  cases hframes with
  | @cons f ls fs opened hf hfs =>
    obtain ⟨ws, content, hargs, hcontent, rfl⟩ := hf
    refine ⟨_, [], ⟨trees, _ :: opened, hfin, .cons ⟨ws, content ++ [b], hargs, ?_, rfl⟩ hfs,
      rfl⟩, rfl, ?_⟩
    · simp [Frame.add, hcontent, Branch.nodes_append, hn]
    · simp [Frame.add, Branch.leaves_append]

/-- A whole instruction joins the finished ones or the innermost open block. -/
theorem reads_finish {r : Reader} {before : List Leaf} (h : r.ReadsBetween before) (t : Tree) :
    (r.finish t.instruction).Reads (before ++ t.leaves) := by
  obtain ⟨finished, frames, phase⟩ := r
  cases frames with
  | nil =>
    obtain ⟨trees, opened, hfin, hframes, rfl⟩ := h
    cases hframes
    simp only at hfin
    refine ⟨_, [], ⟨trees ++ [t], [], ?_, .nil, rfl⟩, rfl, by simp⟩
    simp [finish, hfin]
  | cons f fs =>
    have hadd := reads_add h (b := .tree t) rfl
    rwa [Branch.leaves, Branch.leaves, List.append_nil] at hadd

/-- The closing brace completes the innermost open block. -/
theorem reads_close {finished : List Instruction} {f : Frame} {fs : List Frame} {phase : Phase}
    {before : List Leaf} (h : (Reader.mk finished (f :: fs) phase).ReadsBetween before) :
    ((Reader.mk finished fs .between).finish f.close).Reads (before ++ [.plain .closeBrace]) := by
  obtain ⟨trees, opened, hfin, hframes, rfl⟩ := h
  cases hframes with
  | @cons f ls fs opened hf hfs =>
    obtain ⟨ws, content, hargs, hcontent, rfl⟩ := hf
    have hclose : f.close = (Tree.block f.kind ws content f.line).instruction := by
      simp [Frame.close, Tree.instruction, hargs, hcontent]
    have h' := reads_finish (r := ⟨finished, fs, .between⟩) ⟨trees, opened, hfin, hfs, rfl⟩
      (.block f.kind ws content f.line)
    rw [hclose]
    simpa [Tree.leaves, Head.leaf] using h'

/-- An argument list ends. -/
theorem reads_closeList {r : Reader} {before : List Leaf} (h : r.ReadsBetween before)
    (head : Head) (ws : Written) :
    (r.closeList (.ofList ws) head).Reads
      (before ++ listBegun head (separatedKinds ws ++ [.closeParen])) := by
  cases head with
  | directive kind line => exact reads_finish h (.directive kind ws line)
  | block kind line => exact ⟨before, _, h, ⟨ws, rfl, rfl⟩, rfl⟩

theorem reads_between {r r' : Reader} {before : List Leaf} {t : Token}
    (h : r.ReadsBetween before) (ht : r.between? t = some r') :
    r'.Reads (before ++ [t.leaf]) := by
  unfold between? at ht
  split at ht
  · next kind hk =>
    cases ht
    exact ⟨before, _, h, rfl, by rw [Token.leaf_of_keyword hk]; rfl⟩
  · next kind hk =>
    cases ht
    exact ⟨before, _, h, rfl, by rw [Token.leaf_of_keyword hk]; rfl⟩
  · next kind hk =>
    cases ht
    exact ⟨before, _, h, rfl, by rw [Token.leaf_of_keyword hk]; rfl⟩
  · next s hk =>
    obtain ⟨finished, frames, phase⟩ := r
    cases frames with
    | nil => simp at ht
    | cons f fs =>
      cases ht
      rw [Token.leaf_of_plain hk (by simp)]
      exact reads_add h (b := .text s) rfl
  · next hk =>
    obtain ⟨finished, frames, phase⟩ := r
    cases frames with
    | nil => simp at ht
    | cons f fs =>
      cases ht
      rw [Token.leaf_of_plain hk (by simp)]
      exact reads_close h
  · simp at ht

/-- The instruction being read goes on. -/
theorem reads_goto {r : Reader} {before begun : List Leaf} {phase : Phase} {l : Leaf}
    (h : r.ReadsBetween before) (hp : phase.Reads (begun ++ [l])) :
    (r.goto phase).Reads (before ++ (begun ++ [l])) :=
  ⟨before, _, h, hp, rfl⟩

/-- The value of an argument completes the argument. -/
theorem reads_value {r : Reader} {before begun : List Leaf} {head : Head} {args : Arguments}
    {name : String} (h : r.ReadsBetween before) (hp : (Phase.value head args name).Reads begun)
    (v : Literal) :
    (r.goto (.separator head (args.insert name v))).Reads
      (before ++ (begun ++ [.plain v.kind])) := by
  obtain ⟨ws, rfl, rfl⟩ := hp
  refine reads_goto h ⟨ws ++ [(name, v)], by simp, (Arguments.ofList_concat ws name v).symm, ?_⟩
  rw [← kindsAhead_append_argumentKinds]
  simp [listBegun, argumentKinds]

/-- **One step keeps the invariant.** -/
theorem reads_step {r r' : Reader} {ls : List Leaf} {t : Token} (h : r.Reads ls)
    (ht : r.step? t = some r') : r'.Reads (ls ++ [t.leaf]) := by
  obtain ⟨before, begun, hb, hp, rfl⟩ := h
  rw [List.append_assoc]
  unfold step? at ht
  split at ht
  case h_1 hphase =>
    rw [hphase] at hp
    subst hp
    exact reads_between hb ht
  case h_18 => simp at ht
  -- The cases of the other phases, in the order of the definition.
  all_goals
    rename_i hphase hk
    rw [hphase] at hp
    rw [Token.leaf_of_plain hk (by simp)]
    cases ht
  next head =>
    subst hp
    exact reads_goto hb rfl
  next head name =>
    subst hp
    exact reads_goto hb ⟨[], rfl, rfl⟩
  next head =>
    subst hp
    exact reads_closeList hb head []
  next head args name =>
    obtain ⟨ws, -, rfl, rfl⟩ := hp
    exact reads_goto hb ⟨ws, rfl, by simp [listBegun]⟩
  next head args name =>
    obtain ⟨ws, rfl, rfl⟩ := hp
    exact reads_goto hb ⟨ws, rfl, by simp [listBegun]⟩
  next head args name s => exact reads_value hb hp (.text s)
  next head args name n => exact reads_value hb hp (.number n)
  next head args =>
    obtain ⟨ws, hws, rfl, rfl⟩ := hp
    exact reads_goto hb ⟨ws, hws, rfl, by simp [listBegun, kindsAhead, hws]⟩
  next head args =>
    obtain ⟨ws, -, rfl, rfl⟩ := hp
    simpa [listBegun] using reads_closeList hb head ws
  next kind line args =>
    obtain ⟨ws, rfl, rfl⟩ := hp
    obtain ⟨trees, opened, hfin, hframes, rfl⟩ := hb
    exact ⟨_, [], ⟨trees, _ :: opened, hfin, .cons ⟨ws, [], rfl, rfl, rfl⟩ hframes, rfl⟩, rfl,
      by simp [Branch.leaves]⟩
  next kind line =>
    subst hp
    exact reads_goto hb rfl
  next kind line =>
    subst hp
    exact reads_goto hb rfl
  next kind line =>
    subst hp
    exact reads_goto hb rfl
  next kind line s =>
    subst hp
    exact reads_goto hb rfl
  next kind line =>
    subst hp
    exact reads_finish hb (.emphasis kind none line)
  next kind line s =>
    subst hp
    exact reads_finish hb (.emphasis kind (some s) line)

theorem reads_follow {r r' : Reader} {ls : List Leaf} {ts : List Token} (h : r.Reads ls)
    (ht : r.follow? (ts.map Token.leaf) = some r') : r'.Reads (ls ++ ts.map Token.leaf) := by
  induction ts generalizing r ls with
  | nil =>
    cases ht
    simpa using h
  | cons t ts ih =>
    rw [List.map_cons, follow?, step?_token_leaf] at ht
    obtain ⟨s, hs, hts⟩ := Option.bind_eq_some_iff.1 ht
    simpa using ih (reads_step h hs) hts

theorem document?_between {finished : List Instruction} (h : finished ≠ []) :
    (Reader.mk finished [] .between).document? = some finished.reverse := by
  cases finished with
  | nil => exact absurd rfl h
  | cons i is => rfl

/-- A complete document is what its instructions derive. -/
theorem derives_of_document {r : Reader} {ls : List Leaf} {is : List Instruction}
    (h : r.Reads ls) (hd : r.document? = some is) :
    ∃ trees : List Tree, trees ≠ [] ∧ ls = trees.flatMap Tree.leaves ∧
      is = trees.map Tree.instruction := by
  obtain ⟨before, begun, ⟨trees, opened, hfin, hframes, rfl⟩, hp, rfl⟩ := h
  obtain ⟨finished, frames, phase⟩ := r
  unfold document? at hd
  split at hd
  · next i is' hphase hfr hfi =>
    simp only at hphase hfr hfi hfin
    subst hphase hfr hfi
    cases hframes
    cases hp
    have his : is = trees.map Tree.instruction := by
      simpa [hfin] using (Option.some.inj hd).symm
    refine ⟨trees, ?_, by simp, his⟩
    rintro rfl
    simp at hfin
  · simp at hd

end Reader

/-- Reading gives the instructions of a derivation, if there is one. -/
theorem read_eq_ok_iff {ts : List Token} {is : List Instruction} :
    Instruction.read ts = .ok is ↔
      ∃ trees, Derives trees ts ∧ is = trees.map Tree.instruction := by
  unfold Instruction.read
  rw [Reader.readFrom_eq_ok_iff]
  constructor
  · rintro ⟨r, hr, hd⟩
    have h := Reader.reads_follow Reader.reads_start hr
    rw [List.nil_append] at h
    obtain ⟨trees, hne, hleaves, his⟩ := Reader.derives_of_document h hd
    exact ⟨trees, ⟨hne, hleaves⟩, his⟩
  · rintro ⟨trees, ⟨hne, hleaves⟩, rfl⟩
    refine ⟨_, (hleaves ▸ Reader.follow?_trees trees []), ?_⟩
    rw [Reader.document?_between (by simpa using hne), List.append_nil, List.reverse_reverse]

/-! ## The kinds decide -/

/-- Without its line, a leaf is what its kind says. -/
theorem leaf_mapLine_zero (t : Token) :
    (t.mapLine fun _ => 0).leaf = (Token.mk t.kind "" 0 0 0).leaf := rfl

/-- Tokens of the same kinds are read alike up to lines. -/
theorem read_of_kinds_eq {ts us : List Token} {is : List Instruction}
    (h : ts.map (·.kind) = us.map (·.kind)) (hr : Instruction.read ts = .ok is) :
    ∃ js, Instruction.read us = .ok js ∧
      js.map (Instruction.mapLine fun _ => 0) = is.map (Instruction.mapLine fun _ => 0) := by
  have hkinds : ∀ ts : List Token, (ts.map (Token.mapLine fun _ => 0)).map Token.leaf =
      (ts.map (·.kind)).map fun kind => (Token.mk kind "" 0 0 0).leaf := by
    intro ts
    simp [List.map_map, Function.comp_def, leaf_mapLine_zero]
  have hts := (read_mapLine_eq_ok_iff fun _ => 0).2 ⟨is, hr, rfl⟩
  obtain ⟨trees, ⟨hne, hleaves⟩, his⟩ := read_eq_ok_iff.1 hts
  have hus : Instruction.read (us.map (Token.mapLine fun _ => 0)) =
      .ok (is.map (Instruction.mapLine fun _ => 0)) :=
    read_eq_ok_iff.2 ⟨trees, ⟨hne, by rw [← hleaves, hkinds, hkinds, h]⟩, his⟩
  exact (read_mapLine_eq_ok_iff fun _ => 0).1 hus

/-- Tokens with the kinds of a derivation are read as its instructions, up to lines. -/
theorem read_of_kinds {ts : List Token} {trees : List Tree} (hne : trees ≠ [])
    (h : ts.map (·.kind) = (trees.flatMap Tree.leaves).map (·.kind)) :
    ∃ is, Instruction.read ts = .ok is ∧
      is.map (Instruction.mapLine fun _ => 0) =
        trees.map fun t => t.instruction.mapLine fun _ => 0 := by
  have hread : Instruction.read (treeTokens trees) = .ok (trees.map Tree.instruction) :=
    read_eq_ok_iff.2 ⟨trees, ⟨hne, map_leaf_treeTokens trees⟩, rfl⟩
  have hkinds : (treeTokens trees).map (·.kind) = ts.map (·.kind) := by
    rw [h, ← map_leaf_treeTokens, Token.kinds_leaves]
  obtain ⟨is, his, hmap⟩ := read_of_kinds_eq hkinds hread
  exact ⟨is, his, by rw [hmap, List.map_map]; rfl⟩

/-! ## The grammar and its reader -/

/-- **Reading accepts exactly the grammar.** The tokens are read if and only if some derivation has
their kinds; then there is one derivation only, with the lines of the keywords, and reading gives
the instructions it stands for, in which each written name has the value written last. -/
theorem read_eq_ok_iff_derives (ts : List Token) :
    ((∃ is, Instruction.read ts = .ok is) ↔
      ∃ trees : List Tree, trees ≠ [] ∧
        ts.map (·.kind) = (trees.flatMap Tree.leaves).map (·.kind)) ∧
    (∀ is, Instruction.read ts = .ok is ↔
      ∃ trees, Derives trees ts ∧ is = trees.map Tree.instruction) ∧
    (∀ trees trees', Derives trees ts → Derives trees' ts → trees = trees') ∧
    ∀ (written : Written) (name : String),
      (Arguments.ofList written).get? name = written.reverse.lookup name := by
  refine ⟨⟨?_, ?_⟩, fun is => read_eq_ok_iff, ?_, Arguments.get?_ofList⟩
  · rintro ⟨is, h⟩
    obtain ⟨trees, ⟨hne, hleaves⟩, -⟩ := read_eq_ok_iff.1 h
    exact ⟨trees, hne, by rw [← hleaves, Token.kinds_leaves]⟩
  · rintro ⟨trees, hne, hkinds⟩
    obtain ⟨is, h, -⟩ := read_of_kinds hne hkinds
    exact ⟨is, h⟩
  · rintro trees trees' ⟨-, h⟩ ⟨-, h'⟩
    exact trees_inj (h.symm.trans h')

end Folio
