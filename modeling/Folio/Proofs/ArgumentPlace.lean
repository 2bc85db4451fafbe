import Folio.Proofs.Parameters

/-!
# The place of an argument

**Around a value** (`AroundValue`). Tokens in front of a value and tokens behind it, such that the
value is that of an argument of an instruction, with whole instructions ahead. The argument is the
last of its name in the list, so its value counts.

**Theorem (`AroundValue.exists_instruction`).** If the tokens are read with some value in between,
there is an instruction behind those ahead, and its argument of that name is the value. They are
read with another value in between, too. Then that argument is the other value, and nothing else is
different.

The argument list of an instruction ends with the first closing parenthesis, and within the list the
kinds in front of the value are those of the arguments in front (`exists_of_moreKinds`).
-/

namespace Folio

/-- The value of an argument of an instruction of the keyword is to stand between the tokens; the
instruction comes behind those ahead. -/
inductive AroundValue (before : List Instruction) (keyword : Keyword) (name : String) :
    List Token → List Token → Prop
  | mk {ahead inner mid behind : List Token} {head opening named equals closing : Token} :
      (ahead = [] ∧ before = [] ∨ Instruction.read ahead = .ok before) →
      head.kind = .keyword keyword → opening.kind = .openParen →
      (∀ t ∈ inner, t.kind ≠ .closeParen) →
      named.kind = .argumentName name → equals.kind = .equals →
      (∀ t ∈ mid, t.kind ≠ .closeParen ∧ t.kind ≠ .argumentName name) →
      closing.kind = .closeParen →
      AroundValue before keyword name (ahead ++ head :: opening :: (inner ++ [named, equals]))
        (mid ++ closing :: behind)

/-- In front of the value there is an equals sign. -/
theorem AroundValue.exists_kinds {before : List Instruction} {keyword : Keyword} {name : String}
    {front back : List Token} (h : AroundValue before keyword name front back) :
    ∃ kinds, front.map (·.kind) = kinds ++ [.equals] := by
  obtain @⟨ahead, inner, mid, behind, head, opening, named, equals, closing, -, -, -, -, -, hequals,
    -, -⟩ := h
  exact ⟨(ahead ++ head :: opening :: (inner ++ [named])).map (·.kind), by simp [hequals]⟩

/-! ## Argument lists -/

/-- Each argument with a comma in front. -/
def moreKinds (written : Written) : List Kind := written.flatMap fun v => .comma :: argumentKinds v

theorem moreKinds_cons (w : String × Literal) (ws : Written) :
    moreKinds (w :: ws) = .comma :: .argumentName w.1 :: .equals :: w.2.kind :: moreKinds ws := rfl

theorem moreKinds_append (ws vs : Written) : moreKinds (ws ++ vs) = moreKinds ws ++ moreKinds vs :=
  List.flatMap_append

theorem comma_cons_separatedKinds {ws : Written} (h : ws ≠ []) :
    .comma :: separatedKinds ws = moreKinds ws := by
  cases ws with
  | nil => exact absurd rfl h
  | cons w ws => rfl

theorem closeParen_notMem_separatedKinds (ws : Written) : .closeParen ∉ separatedKinds ws := by
  cases ws with
  | nil => exact List.not_mem_nil
  | cons w ws => simp [separatedKinds, closeParen_notMem_argumentKinds]

/-- The argument that a name in a list begins. -/
theorem exists_of_moreKinds {ws : Written} {front back : List Kind} {name : String} {value : Kind}
    (h : moreKinds ws = front ++ .argumentName name :: .equals :: value :: back) :
    ∃ ws₁ l ws₂, ws = ws₁ ++ (name, l) :: ws₂ ∧ l.kind = value ∧
      front = moreKinds ws₁ ++ [.comma] ∧ back = moreKinds ws₂ := by
  induction ws generalizing front with
  | nil => cases front <;> cases h
  | cons w ws ih =>
    obtain ⟨name', l⟩ := w
    rw [moreKinds_cons] at h
    -- The name is the first of the list, or it comes behind the first argument.
    match front with
    | [] => cases h
    | [_] =>
      cases h
      exact ⟨[], l, ws, rfl, rfl, rfl, rfl⟩
    | [_, _] => cases h
    | [_, _, _] => cases l <;> cases h
    | a :: b :: c :: d :: front =>
      simp only [List.cons_append, List.cons.injEq] at h
      obtain ⟨rfl, rfl, rfl, rfl, h⟩ := h
      obtain ⟨ws₁, l', ws₂, rfl, hl, rfl, rfl⟩ := ih h
      exact ⟨(name', l) :: ws₁, l', ws₂, rfl, hl, rfl, rfl⟩

/-- The last argument of a name in a list, and the list with another value there. -/
theorem exists_of_separatedKinds {ws : Written} {front back : List Kind} {name : String}
    {value : Kind} (h : separatedKinds ws = front ++ .argumentName name :: .equals :: value :: back)
    (hback : .argumentName name ∉ back) :
    ∃ ws₁ l ws₂, ws = ws₁ ++ (name, l) :: ws₂ ∧ l.kind = value ∧ name ∉ ws₂.map (·.1) ∧
      ∀ l' : Literal, separatedKinds (ws₁ ++ (name, l') :: ws₂) =
        front ++ .argumentName name :: .equals :: l'.kind :: back := by
  have hne : ws ≠ [] := by
    rintro rfl
    cases front <;> cases h
  have hwritten := comma_cons_separatedKinds hne
  rw [h, ← List.cons_append] at hwritten
  obtain ⟨ws₁, l, ws₂, rfl, hl, hahead, rfl⟩ := exists_of_moreKinds hwritten.symm
  refine ⟨ws₁, l, ws₂, rfl, hl, fun hmem => ?_, fun l' => ?_⟩
  · obtain ⟨w, hw, rfl⟩ := List.mem_map.1 hmem
    exact hback (List.mem_flatMap.2 ⟨w, hw, by simp [argumentKinds]⟩)
  · have hcomma : .comma :: separatedKinds (ws₁ ++ (name, l') :: ws₂) =
        moreKinds ws₁ ++ [.comma] ++ .argumentName name :: .equals :: l'.kind :: moreKinds ws₂ := by
      rw [comma_cons_separatedKinds (by simp), moreKinds_append, moreKinds_cons]
      simp
    rw [← hahead] at hcomma
    exact (List.cons.inj hcomma).2

/-- The last argument of a name counts. -/
theorem Arguments.get?_ofList_append {ws₁ ws₂ : Written} {name : String} (l : Literal)
    (h : name ∉ ws₂.map (·.1)) :
    (ofList (ws₁ ++ (name, l) :: ws₂)).get? name = some l := by
  have hnone : ws₂.reverse.lookup name = none := by
    cases hl : ws₂.reverse.lookup name with
    | none => rfl
    | some l' =>
      exact absurd (List.mem_map.2 ⟨_, List.mem_reverse.1 (mem_of_lookup_eq_some hl), rfl⟩) h
  rw [get?_ofList, List.reverse_append, List.reverse_cons, List.lookup_append, List.lookup_append,
    hnone]
  simp

/-- An argument in a list is replaced by one more of the name. -/
theorem Arguments.insert_ofList_append {ws₁ ws₂ : Written} {name : String} (l l' : Literal)
    (h : name ∉ ws₂.map (·.1)) :
    (ofList (ws₁ ++ (name, l) :: ws₂)).insert name l' = ofList (ws₁ ++ (name, l') :: ws₂) := by
  refine eq_of_get? fun other => ?_
  rw [get?_insert]
  split_ifs with hother
  · rw [hother, get?_ofList_append l' h]
  · have hlookup : ∀ v : Literal, [(name, v)].lookup other = none := fun v => by
      simp [List.lookup_cons, beq_eq_false_iff_ne.2 hother]
    simp only [get?_ofList, List.reverse_append, List.reverse_cons, List.lookup_append, hlookup]

/-! ## Trees with another argument list -/

namespace Tree

def withWritten : Tree → Written → Tree
  | directive kind _ line, ws => directive kind ws line
  | block kind _ content line, ws => block kind ws content line
  | t@(emphasis _ _ _), _ => t

theorem instruction_withWritten (t : Tree) (ws : Written) :
    (t.withWritten ws).instruction = t.instruction.withArguments (.ofList ws) := by
  cases t <;> rfl

theorem exists_leaves_eq (t : Tree) :
    ∃ rest, t.leaves = .keyword t.instruction.keyword t.instruction.line :: rest := by
  cases t <;> exact ⟨_, rfl⟩

/-- Leaves of a tree that has an argument list. -/
theorem exists_leaves_withWritten {t : Tree} (h : ∀ e, t.instruction.keyword ≠ .emphasis e) :
    ∃ ws rest, t = t.withWritten ws ∧ t.instruction.arguments = .ofList ws ∧
      ∀ vs, (t.withWritten vs).leaves = .keyword t.instruction.keyword t.instruction.line ::
        ((listKinds vs).map .plain ++ rest) := by
  cases t with
  | directive kind ws line => exact ⟨ws, [], rfl, rfl, fun vs => by simp [withWritten, leaves,
      instruction, Instruction.keyword, Instruction.line]⟩
  | block kind ws content line => exact ⟨ws, _, rfl, rfl, fun vs => rfl⟩
  | emphasis kind text line => exact absurd rfl (h kind)

end Tree

theorem append_cons_inj {α : Type} {a : α} {xs xs' ys ys' : List α} (hxs : a ∉ xs)
    (hxs' : a ∉ xs') (h : xs ++ a :: ys = xs' ++ a :: ys') : xs = xs' ∧ ys = ys' := by
  induction xs generalizing xs' with
  | nil =>
    cases xs' with
    | nil => exact ⟨rfl, (List.cons.inj h).2⟩
    | cons b xs' => exact absurd (List.cons.inj h).1 fun hb => hxs' (hb ▸ List.mem_cons_self)
  | cons b xs ih =>
    cases xs' with
    | nil => exact absurd (List.cons.inj h).1 fun hb => hxs (hb ▸ List.mem_cons_self)
    | cons b' xs' =>
      obtain ⟨rfl, htail⟩ := List.cons.inj h
      obtain ⟨rfl, rfl⟩ :=
        ih (mt (List.mem_cons_of_mem b) hxs) (mt (List.mem_cons_of_mem b) hxs') htail
      exact ⟨rfl, rfl⟩

/-! ## The argument at the place -/

/-- An argument list around a value, as leaves. -/
def aroundLeaves (name : String) (inner mid : List Leaf) (value : Kind) (behind : List Leaf) :
    List Leaf :=
  .plain .openParen :: (inner ++ .plain (.argumentName name) :: .plain .equals :: .plain value ::
    (mid ++ .plain .closeParen :: behind))

/-- The value is that of an argument of the list, and the list with another one there is that with
another value. -/
theorem exists_argument_of_leaves {ws : Written} {rest inner mid behind : List Leaf}
    {name : String} {value : Kind}
    (hinner : ∀ l ∈ inner, l.kind ≠ .closeParen) (hvalue : value ≠ .closeParen)
    (hmid : ∀ l ∈ mid, l.kind ≠ .closeParen ∧ l.kind ≠ .argumentName name)
    (h : (listKinds ws).map .plain ++ rest = aroundLeaves name inner mid value behind) :
    ∃ ws₁ l ws₂, ws = ws₁ ++ (name, l) :: ws₂ ∧ l.kind = value ∧ name ∉ ws₂.map (·.1) ∧
      ∀ l' : Literal, (listKinds (ws₁ ++ (name, l') :: ws₂)).map .plain ++ rest =
        aroundLeaves name inner mid l'.kind behind := by
  have hsplit : ∀ ws : Written, (listKinds ws).map .plain ++ rest =
      .plain .openParen :: ((separatedKinds ws).map .plain ++ .plain .closeParen :: rest) := by
    intro ws
    simp [listKinds]
  have haround : ∀ value, aroundLeaves name inner mid value behind = .plain .openParen ::
      ((inner ++ .plain (.argumentName name) :: .plain .equals :: .plain value :: mid) ++
        .plain .closeParen :: behind) := by
    intro value
    simp [aroundLeaves]
  have hlist : Leaf.plain .closeParen ∉ (separatedKinds ws).map .plain := by
    intro hmem
    obtain ⟨kind, hkind, heq⟩ := List.mem_map.1 hmem
    cases heq
    exact closeParen_notMem_separatedKinds ws hkind
  have hclose : Leaf.plain .closeParen ∉
      inner ++ .plain (.argumentName name) :: .plain .equals :: .plain value :: mid := by
    have hfront : Leaf.plain .closeParen ∉ inner := fun hmem => hinner _ hmem rfl
    have hback : Leaf.plain .closeParen ∉ mid := fun hmem => (hmid _ hmem).1 rfl
    simpa [Leaf.plain, hvalue.symm] using And.intro hfront hback
  rw [hsplit, haround, List.cons.injEq] at h
  obtain ⟨hkinds, rfl⟩ := append_cons_inj hlist hclose h.2
  -- The leaves of the list are plain, so it is enough to look at the kinds.
  obtain ⟨front, more, hfront, rfl, hmore⟩ := List.map_eq_append_iff.1 hkinds
  obtain ⟨k₁, more, rfl, hk₁, hmore⟩ := List.map_eq_cons_iff.1 hmore
  obtain ⟨k₂, more, rfl, hk₂, hmore⟩ := List.map_eq_cons_iff.1 hmore
  obtain ⟨k₃, back, rfl, hk₃, rfl⟩ := List.map_eq_cons_iff.1 hmore
  cases hk₁
  cases hk₂
  cases hk₃
  obtain ⟨ws₁, l, ws₂, hws, hl, hlast, hnew⟩ := exists_of_separatedKinds hfront fun hmem =>
    (hmid _ (List.mem_map.2 ⟨_, hmem, rfl⟩)).2 rfl
  refine ⟨ws₁, l, ws₂, hws, hl, hlast, fun l' => ?_⟩
  rw [hsplit, haround, hnew]
  simp

/-- The leaves of tokens around a value. -/
theorem map_leaf_around {inner mid behind : List Token}
    {opening named equals value closing : Token} {name : String}
    (hopening : opening.kind = .openParen) (hnamed : named.kind = .argumentName name)
    (hequals : equals.kind = .equals) (hvalue : ∀ k, value.kind ≠ .keyword k)
    (hclosing : closing.kind = .closeParen) :
    (opening :: (inner ++ [named, equals]) ++ value :: (mid ++ closing :: behind)).map Token.leaf =
      aroundLeaves name (inner.map Token.leaf) (mid.map Token.leaf) value.kind
        (behind.map Token.leaf) := by
  simp [aroundLeaves, Token.leaf_of_plain hopening, Token.leaf_of_plain hnamed,
    Token.leaf_of_plain hequals, Token.leaf_of_plain rfl hvalue, Token.leaf_of_plain hclosing]

/-- Whole instructions ahead are derived by themselves. -/
theorem exists_trees_ahead {ahead : List Token} {before : List Instruction}
    (h : ahead = [] ∧ before = [] ∨ Instruction.read ahead = .ok before) :
    ∃ trees : List Tree, ahead.map Token.leaf = trees.flatMap Tree.leaves ∧
      before = trees.map Tree.instruction := by
  rcases h with ⟨rfl, rfl⟩ | h
  · exact ⟨[], rfl, rfl⟩
  · obtain ⟨trees, ⟨-, hleaves⟩, hbefore⟩ := read_eq_ok_iff.1 h
    exact ⟨trees, hleaves, hbefore⟩

/-- The tree behind those ahead has the value for an argument, and with another value there the
leaves are those of a tree with another argument. -/
theorem exists_tree_of_leaves {ahead trees : List Tree} {keyword : Keyword} {line : Nat}
    {name : String} {inner mid behind : List Leaf} {value : Kind}
    (hkeyword : ∀ e, keyword ≠ .emphasis e) (hinner : ∀ l ∈ inner, l.kind ≠ .closeParen)
    (hvalue : value ≠ .closeParen)
    (hmid : ∀ l ∈ mid, l.kind ≠ .closeParen ∧ l.kind ≠ .argumentName name)
    (h : ahead.flatMap Tree.leaves ++
      .keyword keyword line :: aroundLeaves name inner mid value behind =
        trees.flatMap Tree.leaves) :
    ∃ t after l, trees = ahead ++ t :: after ∧ t.instruction.keyword = keyword ∧
      t.instruction.arguments.get? name = some l ∧ l.kind = value ∧
      ∀ l' : Literal, ∃ t' : Tree,
        t'.instruction = t.instruction.withArguments (t.instruction.arguments.insert name l') ∧
        (ahead ++ t' :: after).flatMap Tree.leaves = ahead.flatMap Tree.leaves ++
          .keyword keyword line :: aroundLeaves name inner mid l'.kind behind := by
  obtain ⟨trees, rfl, hhere⟩ := trees_prefix h
  cases trees with
  | nil => cases hhere
  | cons t after =>
    obtain ⟨_, hfirst⟩ := t.exists_leaves_eq
    rw [List.flatMap_cons, hfirst, List.cons_append, List.cons.injEq] at hhere
    obtain ⟨rfl, rfl⟩ : keyword = t.instruction.keyword ∧ line = t.instruction.line := by
      simpa [Leaf.keyword] using hhere.1
    obtain ⟨ws, rest, ht, hargs, hlist⟩ := Tree.exists_leaves_withWritten hkeyword
    have hrest : (listKinds ws).map .plain ++ (rest ++ after.flatMap Tree.leaves) =
        aroundLeaves name inner mid value behind := by
      have hsame := (congrArg Tree.leaves ht).trans (hlist ws)
      rw [hfirst, List.cons.injEq] at hsame
      rw [hhere.2, hsame.2, List.append_assoc]
    obtain ⟨ws₁, l, ws₂, rfl, hl, hlast, hnew⟩ :=
      exists_argument_of_leaves hinner hvalue hmid hrest
    refine ⟨t, after, l, rfl, rfl, ?_, hl, fun l' => ?_⟩
    · rw [hargs, Arguments.get?_ofList_append l hlast]
    · refine ⟨t.withWritten (ws₁ ++ (name, l') :: ws₂), ?_, ?_⟩
      · rw [t.instruction_withWritten, hargs, Arguments.insert_ofList_append l l' hlast]
      · rw [List.flatMap_append, List.flatMap_cons, hlist, List.cons_append, List.append_assoc,
          hnew]

/-- **The argument at the place** is the value. Tokens with another value there are read too, and
then it is that one. -/
theorem AroundValue.exists_instruction {before is : List Instruction} {keyword : Keyword}
    {name : String} {front back : List Token} {value : Token} {l : Literal}
    (hplace : AroundValue before keyword name front back) (hkeyword : ∀ e, keyword ≠ .emphasis e)
    (hl : l.kind = value.kind) (hread : Instruction.read (front ++ value :: back) = .ok is) :
    ∃ i after, is = before ++ i :: after ∧ i.keyword = keyword ∧ i.arguments.get? name = some l ∧
      ∀ {front' back' : List Token} {value' : Token} {l' : Literal},
        front'.map Token.leaf = front.map Token.leaf →
        back'.map Token.leaf = back.map Token.leaf → l'.kind = value'.kind →
        Instruction.read (front' ++ value' :: back') =
          .ok (before ++ i.withArguments (i.arguments.insert name l') :: after) := by
  obtain @⟨ahead, inner, mid, behind, head, opening, named, equals, closing, hahead, hhead,
    hopening, hinner, hnamed, hequals, hmid, hclosing⟩ := hplace
  obtain ⟨treesAhead, hleavesAhead, rfl⟩ := exists_trees_ahead hahead
  have hinner : ∀ l ∈ inner.map Token.leaf, l.kind ≠ .closeParen :=
    List.forall_mem_map.2 fun u hu => u.kind_leaf.symm ▸ hinner u hu
  have hmid : ∀ l ∈ mid.map Token.leaf, l.kind ≠ .closeParen ∧ l.kind ≠ .argumentName name :=
    List.forall_mem_map.2 fun u hu => u.kind_leaf.symm ▸ hmid u hu
  have hplain : ∀ (l : Literal) (k : Keyword), l.kind ≠ .keyword k := by rintro (_ | _) k ⟨⟩
  have haround : ∀ {v : Token} {l : Literal}, l.kind = v.kind →
      (ahead ++ head :: opening :: (inner ++ [named, equals])).map Token.leaf ++
          v.leaf :: (mid ++ closing :: behind).map Token.leaf =
        treesAhead.flatMap Tree.leaves ++ .keyword keyword head.line ::
          aroundLeaves name (inner.map Token.leaf) (mid.map Token.leaf) l.kind
            (behind.map Token.leaf) := by
    intro v l hl
    rw [hl, ← map_leaf_around hopening hnamed hequals (hl ▸ hplain l) hclosing, ← hleavesAhead,
      ← Token.leaf_of_keyword hhead]
    simp
  obtain ⟨trees, ⟨-, hleaves⟩, rfl⟩ := read_eq_ok_iff.1 hread
  rw [List.map_append, List.map_cons, haround hl] at hleaves
  have hclose : l.kind ≠ .closeParen := by cases l <;> exact Kind.noConfusion
  obtain ⟨t, after, l₀, rfl, hkey, hget, hl₀, hnew⟩ :=
    exists_tree_of_leaves hkeyword hinner hclose hmid hleaves
  obtain rfl := Literal.kind_inj hl₀
  refine ⟨t.instruction, after.map Tree.instruction, by simp, hkey, hget, ?_⟩
  intro front' back' value' l' hfront hback hl'
  obtain ⟨t', ht', hleaves'⟩ := hnew l'
  refine read_eq_ok_iff.2 ⟨treesAhead ++ t' :: after, ⟨by simp, ?_⟩, by simp [ht']⟩
  rw [List.map_append, List.map_cons, hfront, hback, haround hl', hleaves']

end Folio
