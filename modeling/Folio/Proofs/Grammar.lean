import Folio.Proofs.Lines
import Mathlib.Data.List.Induction

/-!
# The grammar of documents

The keyword of an instruction fixes its shape:

    document    := instruction+
    instruction := DIRECTIVE list
                 | BLOCK list '{' (TEXT | instruction)* '}'
                 | EMPHASIS '(' ')' '{' TEXT? '}'
    list        := '(' (argument (',' argument)*)? ')'
    argument    := NAME '=' (STRING | NUMBER)

**Derivations** (`Tree`). A derivation of an instruction, with one constructor for each of its
productions. `Tree.leaves` is the sequence of the leaves, and `Tree.instruction` is what the
derivation stands for.

**Leaves** (`Leaf`). What the grammar sees of a token: its kind and, of a keyword, the line.

**The grammar is unambiguous** (`trees_inj`): two derivations with the same leaves are equal, since
each production begins with a leaf of its own and a list, a text or a block ends where a leaf
comes that cannot go on with it.
-/

namespace Folio

/-! ## Derivations -/

/-- The arguments of a list as written, repeated names included. -/
abbrev Written := List (String × Literal)

mutual

/-- A derivation of an instruction. The line is that of the keyword. -/
inductive Tree where
  | directive (kind : DirectiveKind) (written : Written) (line : Nat)
  | block (kind : BlockKind) (written : Written) (content : List Branch) (line : Nat)
  | emphasis (kind : EmphasisKind) (text : Option String) (line : Nat)

/-- A derivation of a piece of content. -/
inductive Branch where
  | text (value : String)
  | tree (t : Tree)

end

structure Leaf where
  kind : Kind
  line : Option Nat
  deriving DecidableEq, Repr

namespace Leaf

def keyword (k : Keyword) (line : Nat) : Leaf := ⟨.keyword k, some line⟩

def plain (kind : Kind) : Leaf := ⟨kind, none⟩

end Leaf

def Token.leaf (t : Token) : Leaf :=
  match t.kind with
  | .keyword k => .keyword k t.line
  | kind => .plain kind

def Literal.kind : Literal → Kind
  | text s => .string s
  | number n => .number n

/-- `NAME '=' (STRING | NUMBER)`. -/
def argumentKinds (argument : String × Literal) : List Kind :=
  [.argumentName argument.1, .equals, argument.2.kind]

theorem closeParen_notMem_argumentKinds (w : String × Literal) : .closeParen ∉ argumentKinds w := by
  obtain ⟨name, v⟩ := w
  cases v <;> simp [argumentKinds, Literal.kind]

/-- `argument (',' argument)*`, or nothing. -/
def separatedKinds : Written → List Kind
  | [] => []
  | w :: ws => argumentKinds w ++ ws.flatMap fun v => .comma :: argumentKinds v

def listKinds (written : Written) : List Kind :=
  .openParen :: separatedKinds written ++ [.closeParen]

/-- `'(' ')' '{' TEXT? '}'`. -/
def emphasisKinds (text : Option String) : List Kind :=
  [.openParen, .closeParen, .openBrace] ++ text.toList.map .text ++ [.closeBrace]

mutual

def Tree.leaves : Tree → List Leaf
  | .directive kind written line =>
    .keyword (.directive kind) line :: (listKinds written).map .plain
  | .block kind written content line =>
    .keyword (.block kind) line :: (listKinds written).map .plain ++
      .plain .openBrace :: (Branch.leaves content ++ [.plain .closeBrace])
  | .emphasis kind text line =>
    .keyword (.emphasis kind) line :: (emphasisKinds text).map .plain

/-- The leaves of the content of a block. -/
def Branch.leaves : List Branch → List Leaf
  | [] => []
  | .text s :: content => .plain (.text s) :: Branch.leaves content
  | .tree t :: content => t.leaves ++ Branch.leaves content

end

mutual

/-- The instruction that a derivation stands for. -/
def Tree.instruction : Tree → Instruction
  | .directive kind written line => .directive kind (.ofList written) line
  | .block kind written content line => .block kind (.ofList written) (Branch.nodes content) line
  | .emphasis kind text line => .emphasis kind (text.getD "") line

def Branch.nodes : List Branch → List Node
  | [] => []
  | .text s :: content => .text s :: Branch.nodes content
  | .tree t :: content => .instruction t.instruction :: Branch.nodes content

end

/-- The trees are a derivation of the tokens as a document. -/
def Derives (trees : List Tree) (tokens : List Token) : Prop :=
  trees ≠ [] ∧ tokens.map Token.leaf = trees.flatMap Tree.leaves

theorem Branch.leaves_append (as bs : List Branch) :
    Branch.leaves (as ++ bs) = Branch.leaves as ++ Branch.leaves bs := by
  induction as with
  | nil => simp [Branch.leaves]
  | cons a as ih => cases a <;> simp [Branch.leaves, ih]

theorem Branch.nodes_append (as bs : List Branch) :
    Branch.nodes (as ++ bs) = Branch.nodes as ++ Branch.nodes bs := by
  induction as with
  | nil => simp [Branch.nodes]
  | cons a as ih => cases a <;> simp [Branch.nodes, ih]

/-! ## Leaves of tokens -/

theorem Token.leaf_eq_keyword_iff {t : Token} {k : Keyword} {line : Nat} :
    t.leaf = .keyword k line ↔ t.kind = .keyword k ∧ t.line = line := by
  unfold Token.leaf
  split <;> simp_all [Leaf.keyword, Leaf.plain]

theorem Token.leaf_of_keyword {t : Token} {k : Keyword} (h : t.kind = .keyword k) :
    t.leaf = .keyword k t.line :=
  Token.leaf_eq_keyword_iff.2 ⟨h, rfl⟩

theorem Token.leaf_of_plain {t : Token} {kind : Kind} (h : t.kind = kind)
    (hk : ∀ k, kind ≠ .keyword k) : t.leaf = .plain kind := by
  unfold Token.leaf
  split
  · next k ht => exact absurd (h.symm.trans ht) (hk k)
  · rw [h]

theorem Token.kind_leaf (t : Token) : t.leaf.kind = t.kind := by
  unfold Token.leaf
  split <;> simp_all [Leaf.keyword, Leaf.plain]

theorem Token.kinds_leaves (ts : List Token) :
    (ts.map Token.leaf).map (·.kind) = ts.map (·.kind) := by
  rw [List.map_map]
  exact List.map_congr_left fun t _ => t.kind_leaf

theorem kinds_plain (kinds : List Kind) : (kinds.map Leaf.plain).map (·.kind) = kinds := by
  rw [List.map_map]
  exact List.map_id _

theorem kinds_block (kind : BlockKind) (ws : Written) (content : List Branch) (line : Nat) :
    (Tree.block kind ws content line).leaves.map (·.kind) =
      .keyword (.block kind) :: listKinds ws ++
        .openBrace :: ((Branch.leaves content).map (·.kind) ++ [.closeBrace]) := by
  rw [Tree.leaves, List.map_append, List.map_cons, kinds_plain]
  simp [Leaf.keyword, Leaf.plain]

/-- A token with the leaf, empty in all other respects. -/
def Leaf.token (l : Leaf) : Token := ⟨l.kind, "", l.line.getD 0, 0, 0⟩

theorem Leaf.leaf_token_plain {kind : Kind} (hk : ∀ k, kind ≠ .keyword k) :
    (Leaf.plain kind).token.leaf = .plain kind :=
  Token.leaf_of_plain rfl hk

/-! ## Argument lists -/

/-- What stands in front of the next argument of a list. -/
def kindsAhead (written : Written) : List Kind :=
  if written = [] then [] else separatedKinds written ++ [.comma]

theorem kindsAhead_append_argumentKinds (ws : Written) (w : String × Literal) :
    kindsAhead ws ++ argumentKinds w = separatedKinds (ws ++ [w]) := by
  cases ws <;> simp [kindsAhead, separatedKinds]

theorem Arguments.ofList_concat (ws : Written) (name : String) (v : Literal) :
    Arguments.ofList (ws ++ [(name, v)]) = (Arguments.ofList ws).insert name v := by
  simp [Arguments.ofList]

/-- Every written name has the value that was written last. -/
theorem Arguments.get?_ofList (ws : Written) (name : String) :
    (Arguments.ofList ws).get? name = ws.reverse.lookup name := by
  induction ws using List.reverseRecOn with
  | nil => rfl
  | append_singleton ws w ih =>
    rw [Arguments.ofList_concat, Arguments.get?_insert, ih, List.reverse_append,
      List.reverse_singleton, List.singleton_append, Arguments.lookup_cons]

/-! ## Every derivation is one of some tokens -/

theorem leaf_token_argument (w : String × Literal) :
    ∀ kind ∈ argumentKinds w, (Leaf.plain kind).token.leaf = .plain kind := by
  obtain ⟨name, v⟩ := w
  cases v <;> simp [argumentKinds, Literal.kind, Leaf.leaf_token_plain]

theorem leaf_token_list (ws : Written) :
    ∀ kind ∈ listKinds ws, (Leaf.plain kind).token.leaf = .plain kind := by
  have hargument := leaf_token_argument
  cases ws with
  | nil => simp [listKinds, separatedKinds, Leaf.leaf_token_plain]
  | cons w ws =>
    intro kind hk
    simp only [listKinds, separatedKinds, List.cons_append, List.mem_cons, List.mem_append,
      List.mem_flatMap, List.not_mem_nil, or_false] at hk
    rcases hk with rfl | (hk | ⟨v, -, rfl | hk⟩) | rfl
    · rfl
    · exact hargument w kind hk
    · rfl
    · exact hargument v kind hk
    · rfl

theorem leaf_token_emphasis (text : Option String) :
    ∀ kind ∈ emphasisKinds text, (Leaf.plain kind).token.leaf = .plain kind := by
  cases text <;> simp [emphasisKinds, Leaf.leaf_token_plain]

mutual

theorem Tree.leaf_token : ∀ t : Tree, ∀ l ∈ t.leaves, l.token.leaf = l
  | .directive kind ws line => by
    have h := leaf_token_list ws
    simp only [Tree.leaves, List.mem_cons, List.mem_map]
    rintro l (rfl | ⟨k, hk, rfl⟩)
    · rfl
    · exact h k hk
  | .block kind ws content line => by
    have h := leaf_token_list ws
    have hcontent := Branch.leaf_token content
    simp only [Tree.leaves, List.mem_cons, List.mem_map, List.mem_append, List.not_mem_nil,
      or_false, List.cons_append]
    rintro l (rfl | ⟨k, hk, rfl⟩ | rfl | hl | rfl)
    · rfl
    · exact h k hk
    · rfl
    · exact hcontent l hl
    · rfl
  | .emphasis kind text line => by
    have h := leaf_token_emphasis text
    simp only [Tree.leaves, List.mem_cons, List.mem_map]
    rintro l (rfl | ⟨k, hk, rfl⟩)
    · rfl
    · exact h k hk

theorem Branch.leaf_token : ∀ content : List Branch,
    ∀ l ∈ Branch.leaves content, l.token.leaf = l
  | [] => by simp [Branch.leaves]
  | .text s :: content => by
    have hcontent := Branch.leaf_token content
    simp only [Branch.leaves, List.mem_cons]
    rintro l (rfl | hl)
    · rfl
    · exact hcontent l hl
  | .tree t :: content => by
    have ht := Tree.leaf_token t
    have hcontent := Branch.leaf_token content
    simp only [Branch.leaves, List.mem_append]
    rintro l (hl | hl)
    · exact ht l hl
    · exact hcontent l hl

end

/-- The plainest tokens that the trees are a derivation of. -/
def treeTokens (trees : List Tree) : List Token := (trees.flatMap Tree.leaves).map Leaf.token

theorem map_leaf_treeTokens (trees : List Tree) :
    (treeTokens trees).map Token.leaf = trees.flatMap Tree.leaves := by
  rw [treeTokens, List.map_map]
  refine (List.map_congr_left fun l hl => ?_).trans (List.map_id _)
  obtain ⟨t, -, hl⟩ := List.mem_flatMap.1 hl
  exact t.leaf_token l hl

/-! ## A token list has one derivation at most -/

theorem Literal.kind_inj {v w : Literal} (h : v.kind = w.kind) : v = w := by
  cases v <;> cases w <;> simp_all [Literal.kind]

theorem moreArguments_inj {ws vs : Written} {x y : List Leaf}
    (h : (ws.flatMap fun w => .comma :: argumentKinds w).map .plain ++ .plain .closeParen :: x =
      (vs.flatMap fun v => .comma :: argumentKinds v).map .plain ++ .plain .closeParen :: y) :
    ws = vs ∧ x = y := by
  induction ws generalizing vs with
  | nil =>
    cases vs with
    | nil => simpa using h
    | cons v vs => simp [Leaf.plain] at h
  | cons w ws ih =>
    cases vs with
    | nil => simp [Leaf.plain] at h
    | cons v vs =>
      obtain ⟨name, val⟩ := w
      obtain ⟨name', val'⟩ := v
      simp only [argumentKinds, List.flatMap_cons, List.cons_append, List.nil_append,
        List.map_cons, List.cons.injEq, true_and, Leaf.plain, Leaf.mk.injEq,
        Kind.argumentName.injEq, and_true] at h
      obtain ⟨rfl, hv, h⟩ := h
      obtain ⟨rfl, rfl⟩ := ih h
      rw [Literal.kind_inj hv]
      simp

theorem list_inj {ws vs : Written} {x y : List Leaf}
    (h : (listKinds ws).map .plain ++ x = (listKinds vs).map .plain ++ y) : ws = vs ∧ x = y := by
  cases ws with
  | nil =>
    cases vs with
    | nil => simpa [listKinds, separatedKinds] using h
    | cons v vs => simp [listKinds, separatedKinds, argumentKinds, Leaf.plain] at h
  | cons w ws =>
    cases vs with
    | nil => simp [listKinds, separatedKinds, argumentKinds, Leaf.plain] at h
    | cons v vs =>
      have h' : ((w :: ws).flatMap fun w => .comma :: argumentKinds w).map .plain ++
            .plain .closeParen :: x =
          ((v :: vs).flatMap fun v => .comma :: argumentKinds v).map .plain ++
            .plain .closeParen :: y := by
        simpa [listKinds, separatedKinds] using h
      exact moreArguments_inj h'

theorem emphasis_inj {a b : Option String} {x y : List Leaf}
    (h : (emphasisKinds a).map .plain ++ x = (emphasisKinds b).map .plain ++ y) :
    a = b ∧ x = y := by
  cases a <;> cases b <;> simp_all [emphasisKinds, Leaf.plain]

mutual

theorem tree_inj {x y : List Leaf} :
    ∀ t u : Tree, t.leaves ++ x = u.leaves ++ y → t = u ∧ x = y
  | .directive kind ws line, .directive kind' ws' line', h => by
    simp only [Tree.leaves, List.cons_append, List.cons.injEq, Leaf.keyword, Leaf.mk.injEq,
      Kind.keyword.injEq, Keyword.directive.injEq, Option.some.injEq] at h
    obtain ⟨⟨rfl, rfl⟩, h⟩ := h
    obtain ⟨rfl, rfl⟩ := list_inj h
    exact ⟨rfl, rfl⟩
  | .emphasis kind text line, .emphasis kind' text' line', h => by
    simp only [Tree.leaves, List.cons_append, List.cons.injEq, Leaf.keyword, Leaf.mk.injEq,
      Kind.keyword.injEq, Keyword.emphasis.injEq, Option.some.injEq] at h
    obtain ⟨⟨rfl, rfl⟩, h⟩ := h
    obtain ⟨rfl, rfl⟩ := emphasis_inj h
    exact ⟨rfl, rfl⟩
  | .block kind ws content line, .block kind' ws' content' line', h => by
    simp only [Tree.leaves, List.cons_append, List.append_assoc, List.cons.injEq, Leaf.keyword,
      Leaf.mk.injEq, Kind.keyword.injEq, Keyword.block.injEq, Option.some.injEq] at h
    obtain ⟨⟨rfl, rfl⟩, h⟩ := h
    obtain ⟨rfl, hcontent⟩ := list_inj h
    obtain ⟨rfl, rfl⟩ := content_inj content content' (List.cons.inj hcontent).2
    exact ⟨rfl, rfl⟩
  | .directive _ _ _, .block _ _ _ _, h | .directive _ _ _, .emphasis _ _ _, h
  | .block _ _ _ _, .directive _ _ _, h | .block _ _ _ _, .emphasis _ _ _, h
  | .emphasis _ _ _, .directive _ _ _, h | .emphasis _ _ _, .block _ _ _ _, h => by
    simp [Tree.leaves, Leaf.keyword] at h

theorem content_inj {x y : List Leaf} :
    ∀ as bs : List Branch,
      Branch.leaves as ++ .plain .closeBrace :: x = Branch.leaves bs ++ .plain .closeBrace :: y →
        as = bs ∧ x = y
  | [], [], h => by simpa [Branch.leaves] using h
  | .text s :: as, .text s' :: bs, h => by
    simp only [Branch.leaves, List.cons_append, List.cons.injEq, Leaf.plain, Leaf.mk.injEq,
      Kind.text.injEq, and_true] at h
    obtain ⟨rfl, h⟩ := h
    obtain ⟨rfl, rfl⟩ := content_inj as bs h
    exact ⟨rfl, rfl⟩
  | .tree t :: as, .tree u :: bs, h => by
    simp only [Branch.leaves, List.append_assoc] at h
    obtain ⟨rfl, hrest⟩ := tree_inj t u h
    obtain ⟨rfl, rfl⟩ := content_inj as bs hrest
    exact ⟨rfl, rfl⟩
  | [], .text _ :: _, h | .text _ :: _, [], h => by simp [Branch.leaves, Leaf.plain] at h
  | [], .tree t :: _, h | .tree t :: _, [], h | .text _ :: _, .tree t :: _, h
  | .tree t :: _, .text _ :: _, h => by
    cases t <;> simp [Branch.leaves, Tree.leaves, Leaf.plain, Leaf.keyword] at h

end

/-- Trees in front are found again. -/
theorem trees_prefix {as bs : List Tree} {x : List Leaf}
    (h : as.flatMap Tree.leaves ++ x = bs.flatMap Tree.leaves) :
    ∃ cs, bs = as ++ cs ∧ x = cs.flatMap Tree.leaves := by
  induction as generalizing bs with
  | nil => exact ⟨bs, rfl, h⟩
  | cons a as ih =>
    cases bs with
    | nil => cases a <;> simp [Tree.leaves] at h
    | cons b bs =>
      simp only [List.flatMap_cons, List.append_assoc] at h
      obtain ⟨rfl, hrest⟩ := tree_inj a b h
      obtain ⟨cs, rfl, hx⟩ := ih hrest
      exact ⟨cs, rfl, hx⟩

theorem trees_inj {as bs : List Tree} (h : as.flatMap Tree.leaves = bs.flatMap Tree.leaves) :
    as = bs := by
  rw [← List.append_nil (as.flatMap Tree.leaves)] at h
  obtain ⟨cs, rfl, hnil⟩ := trees_prefix h
  cases cs with
  | nil => rw [List.append_nil]
  | cons c cs => cases c <;> simp [Tree.leaves] at hnil

end Folio
