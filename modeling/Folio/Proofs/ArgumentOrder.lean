import Folio.Proofs.Growth
import Folio.Proofs.Viability

/-!
# The order of arguments

**The last value** (`Written.last?`). Of the values that a list writes for a name, the last counts.

**Parts** (`Instruction.parts`). An instruction and all that it holds, as they are written. Each
part is begun by a keyword of its own, and behind the keyword stands its argument list
(`Begins`, `begins_of_read`).

**Theorem (`argument_lists_interchangeable`).** In a document, whichever of its parts it belongs to,
an argument list may be exchanged for another in which the last value of each name is the same. The
document is read as before.

Wherever a keyword is read, no other instruction is begun, so an argument list behind it leads to a
state that depends on its last values only (`follow?_list_congr`).
-/

namespace Folio

/-! ## Last values -/

/-- The value that counts for a name: the one written last. -/
def Written.last? (written : Written) (name : String) : Option Literal :=
  written.reverse.lookup name

theorem Arguments.ofList_eq_of_last? {ws vs : Written}
    (h : ∀ name, vs.last? name = ws.last? name) : ofList vs = ofList ws := by
  apply eq_of_get?
  intro name
  rw [get?_ofList, get?_ofList]
  exact h name

/-- The last argument of a list is the value of its name. -/
theorem Written.last?_concat (ws : Written) (name : String) (v : Literal) :
    Written.last? (ws ++ [(name, v)]) name = some v := by
  simp [last?]

theorem Written.eq_nil_of_last? {vs : Written} (h : ∀ name, vs.last? name = none) : vs = [] := by
  rcases List.eq_nil_or_concat vs with rfl | ⟨ws, ⟨name, v⟩, rfl⟩
  · rfl
  · have hlast := h name
    rw [List.concat_eq_append, last?_concat] at hlast
    cases hlast

/-! ## A keyword and its argument list -/

namespace Reader

/-- A keyword is read between instructions only. -/
theorem phase_of_follow?_keyword {r s : Reader} {k : Keyword} {line : Nat} {ls : List Leaf}
    (h : r.follow? (.keyword k line :: ls) = some s) : r.phase = .between := by
  obtain ⟨finished, frames, phase⟩ := r
  cases phase <;> first | rfl | cases h

/-- **Argument lists with the same last values** behind a keyword lead to the same state. -/
theorem follow?_list_congr {r s : Reader} {k : Keyword} {line : Nat} {ws vs : Written}
    {ls : List Leaf} (hlast : ∀ name, vs.last? name = ws.last? name)
    (h : r.follow? (.keyword k line :: ((listKinds ws).map .plain ++ ls)) = some s) :
    r.follow? (.keyword k line :: ((listKinds vs).map .plain ++ ls)) = some s := by
  have hphase := phase_of_follow?_keyword h
  have hhead : ∀ head : Head, r.follow? (head.leaf :: ((listKinds vs).map .plain ++ ls)) =
      r.follow? (head.leaf :: ((listKinds ws).map .plain ++ ls)) := by
    intro head
    rw [follow?_keyword hphase, follow?_keyword hphase, follow?_list, follow?_list,
      Arguments.ofList_eq_of_last? hlast]
  cases k with
  | directive kind =>
    rw [← h]
    exact hhead (.directive kind line)
  | block kind =>
    rw [← h]
    exact hhead (.block kind line)
  | emphasis kind =>
    -- Emphasis takes no argument, so both lists are empty.
    cases ws with
    | nil =>
      obtain rfl : vs = [] := Written.eq_nil_of_last? hlast
      exact h
    | cons w ws =>
      have hnone : r.follow? (.keyword (.emphasis kind) line ::
          ((listKinds (w :: ws)).map .plain ++ ls)) = none := by
        simp [follow?, step?, hphase, between?, listKinds, separatedKinds, argumentKinds,
          Leaf.keyword, Leaf.plain, Leaf.token, goto]
      rw [hnone] at h
      cases h

end Reader

/-! ## Parts -/

mutual

/-- The instruction and all those it holds, in the order in which they are written. -/
def Instruction.parts : Instruction → List Instruction
  | i@(.directive _ _ _) | i@(.emphasis _ _ _) => [i]
  | i@(.block _ _ content _) => i :: Node.parts content

def Node.parts : List Node → List Instruction
  | [] => []
  | .text _ :: content => Node.parts content
  | .instruction i :: content => i.parts ++ Node.parts content

end

theorem Instruction.mem_parts (i : Instruction) : i ∈ i.parts := by
  cases i <;> simp [parts]

/-- The leaves begin the instructions one by one: each with its keyword, and behind the keyword is
its argument list. -/
inductive Begins : List Leaf → List Instruction → Prop
  | nil : Begins [] []
  | plain {ls : List Leaf} {is : List Instruction} (kind : Kind) :
      Begins ls is → Begins (.plain kind :: ls) is
  | keyword {i : Instruction} {written : Written} {ls : List Leaf} {is : List Instruction} :
      i.arguments = .ofList written → Begins ((listKinds written).map .plain ++ ls) is →
      Begins (.keyword i.keyword i.line :: ((listKinds written).map .plain ++ ls)) (i :: is)

theorem Begins.plains {ls : List Leaf} {is : List Instruction} (kinds : List Kind)
    (h : Begins ls is) : Begins (kinds.map .plain ++ ls) is := by
  induction kinds with
  | nil => exact h
  | cons kind kinds ih => exact .plain kind ih

theorem Begins.append {as bs : List Leaf} {is js : List Instruction} (ha : Begins as is)
    (hb : Begins bs js) : Begins (as ++ bs) (is ++ js) := by
  induction ha with
  | nil => exact hb
  | plain kind _ ih => exact .plain kind ih
  | keyword hargs _ ih =>
    rw [List.append_assoc] at ih
    rw [List.cons_append, List.append_assoc, List.cons_append]
    exact .keyword hargs ih

/-- How many leaves are keywords. -/
def keywordCount (ls : List Leaf) : Nat := ls.countP (·.line.isSome)

/-- Every instruction begun has a keyword of its own, with as many keywords in front of it as there
are instructions ahead. Its argument list stands behind the keyword. -/
theorem Begins.exists_keyword {ls : List Leaf} {is : List Instruction} (h : Begins ls is) {n : Nat}
    {i : Instruction} (hi : is[n]? = some i) :
    ∃ front written behind, ls = front ++ .keyword i.keyword i.line ::
        ((listKinds written).map .plain ++ behind) ∧
      keywordCount front = n ∧ i.arguments = .ofList written := by
  induction h generalizing n with
  | nil => cases hi
  | plain kind _ ih =>
    obtain ⟨front, written, behind, rfl, hcount, hargs⟩ := ih hi
    exact ⟨.plain kind :: front, written, behind, rfl, hcount, hargs⟩
  | @keyword j ws ls is hargs _ ih =>
    cases n with
    | zero =>
      cases hi
      exact ⟨[], ws, ls, rfl, rfl, hargs⟩
    | succ n =>
      obtain ⟨front, written, behind, heq, hcount, hfound⟩ := ih hi
      refine ⟨.keyword j.keyword j.line :: front, written, behind, ?_, ?_, hfound⟩
      · rw [heq, List.cons_append]
      · show (_ :: front).countP _ = n + 1
        rw [List.countP_cons_of_pos rfl]
        exact congrArg (· + 1) hcount

mutual

theorem Tree.begins : ∀ t : Tree, Begins t.leaves t.instruction.parts
  | .directive kind ws line => by
    have hlist := Begins.keyword (i := .directive kind (.ofList ws) line) rfl
      (Begins.plains (listKinds ws) .nil)
    rw [List.append_nil] at hlist
    exact hlist
  | .block kind ws content line => by
    have hbrace : Begins [.plain .closeBrace] [] := .plain .closeBrace .nil
    have hcontent := (Branch.begins content).append hbrace
    rw [List.append_nil] at hcontent
    have hlist := Begins.plains (listKinds ws) (hcontent.plain .openBrace)
    exact .keyword (i := .block kind (.ofList ws) (Branch.nodes content) line) rfl hlist
  | .emphasis kind text line => by
    have hrest := Begins.plains (emphasisKinds text) .nil
    rw [List.append_nil] at hrest
    have hargs : (Tree.emphasis kind text line).instruction.arguments = .ofList [] := rfl
    exact .keyword hargs hrest

theorem Branch.begins : ∀ content : List Branch,
    Begins (Branch.leaves content) (Node.parts (Branch.nodes content))
  | [] => .nil
  | .text s :: content => .plain (.text s) (Branch.begins content)
  | .tree t :: content => (Tree.begins t).append (Branch.begins content)

end

/-- **The keywords of a document begin its parts**, one by one. -/
theorem begins_of_read {ts : List Token} {is : List Instruction}
    (h : Instruction.read ts = .ok is) :
    Begins (ts.map Token.leaf) (is.flatMap Instruction.parts) := by
  obtain ⟨trees, ⟨-, hleaves⟩, rfl⟩ := read_eq_ok_iff.1 h
  rw [hleaves, List.flatMap_map]
  clear hleaves h
  induction trees with
  | nil => exact .nil
  | cons t trees ih => exact t.begins.append ih

/-! ## Another argument list -/

/-- The tokens are a list of the arguments. -/
def IsArgumentList (list : List Token) (written : Written) : Prop :=
  list.map (·.kind) = listKinds written

theorem isArgumentList_iff_map_leaf {list : List Token} {written : Written} :
    IsArgumentList list written ↔ list.map Token.leaf = (listKinds written).map .plain := by
  constructor
  · intro h
    rw [← h, List.map_map]
    apply List.map_congr_left
    intro t ht
    -- A keyword has a line, so none is in an argument list.
    have hplain := leaf_token_list written t.kind (h ▸ List.mem_map_of_mem ht)
    apply Token.leaf_of_plain rfl
    intro k hk
    rw [hk] at hplain
    cases hplain
  · intro h
    rw [IsArgumentList, ← Token.kinds_leaves, h, kinds_plain]

/-- Reading sees no difference between argument lists with the same last values. -/
theorem read_congr_argumentList {before list list' behind : List Token} {head : Token}
    {k : Keyword} {written written' : Written} {is : List Instruction}
    (h : Instruction.read (before ++ head :: (list ++ behind)) = .ok is)
    (hhead : head.kind = .keyword k) (hlist : IsArgumentList list written)
    (hlist' : IsArgumentList list' written')
    (hlast : ∀ name, written'.last? name = written.last? name) :
    Instruction.read (before ++ head :: (list' ++ behind)) = .ok is := by
  have hleaves : ∀ {list : List Token} {written : Written}, IsArgumentList list written →
      (before ++ head :: (list ++ behind)).map Token.leaf = before.map Token.leaf ++
        .keyword k head.line :: ((listKinds written).map .plain ++ behind.map Token.leaf) := by
    intro list written h
    rw [List.map_append, List.map_cons, List.map_append, Token.leaf_of_keyword hhead,
      isArgumentList_iff_map_leaf.1 h]
  obtain ⟨r, hr, hdocument⟩ := Reader.readFrom_eq_ok_iff.1 h
  rw [hleaves hlist, Reader.follow?_append] at hr
  obtain ⟨s, hs, hr⟩ := Option.bind_eq_some_iff.1 hr
  apply Reader.readFrom_eq_ok_iff.2
  refine ⟨r, ?_, hdocument⟩
  rw [hleaves hlist', Reader.follow?_append, hs, Option.bind_some]
  exact Reader.follow?_list_congr hlast hr

/-- **The order of arguments is irrelevant, and so are repeats that a later one overwrites.** Every
part of a document, at whatever depth, has an argument list in the tokens: the one behind the
keyword with as many keywords in front as there are parts ahead. With another list there in which
the last value of each name is the same, the document is still read, as the same instructions. So
the model and the diagnostics are the same under all settings. -/
theorem argument_lists_interchangeable {ts : List Token} {is : List Instruction}
    (h : Instruction.read ts = .ok is) {n : Nat} {i : Instruction}
    (hi : (is.flatMap Instruction.parts)[n]? = some i) :
    ∃ before head list behind written, ts = before ++ head :: (list ++ behind) ∧
      keywordCount (before.map Token.leaf) = n ∧ head.kind = .keyword i.keyword ∧
      head.line = i.line ∧ IsArgumentList list written ∧ i.arguments = .ofList written ∧
      ∀ list' written', IsArgumentList list' written' →
        (∀ name, written'.last? name = written.last? name) →
          Instruction.read (before ++ head :: (list' ++ behind)) = .ok is ∧
          ∀ settings, (Instruction.read (before ++ head :: (list' ++ behind))).map
              (Model.ofInstructions settings) = .ok (Model.ofInstructions settings is) := by
  obtain ⟨front, written, back, hleaves, hcount, hargs⟩ := (begins_of_read h).exists_keyword hi
  obtain ⟨before, rest, rfl, rfl, hrest⟩ := List.map_eq_append_iff.1 hleaves
  obtain ⟨head, rest, rfl, hhead, hrest⟩ := List.map_eq_cons_iff.1 hrest
  obtain ⟨list, behind, rfl, hlist, -⟩ := List.map_eq_append_iff.1 hrest
  obtain ⟨hkind, hline⟩ := Token.leaf_eq_keyword_iff.1 hhead
  have hlist := isArgumentList_iff_map_leaf.2 hlist
  refine ⟨before, head, list, behind, written, rfl, hcount, hkind, hline, hlist, hargs, ?_⟩
  intro list' written' hlist' hlast
  have hread := read_congr_argumentList h hkind hlist hlist' hlast
  refine ⟨hread, ?_⟩
  intro settings
  rw [hread]
  rfl

/-- An instruction in a block: the first of two names may be left out, and the others exchanged. -/
theorem argument_lists_interchangeable_style :
    let name (s : String) : Token := ⟨.argumentName s, s, 1, 0, 0⟩
    let value (s : String) : Token := ⟨.string s, s, 1, 0, 0⟩
    let plain (kind : Kind) : Token := ⟨kind, "", 1, 0, 0⟩
    let style : Instruction :=
      .directive .style (.ofList [("font", .text "f"), ("name", .text "b")]) 1
    let is : List Instruction := [.block .body .empty [.instruction style] 1]
    let front : List Token := [plain (.keyword (.block .body)), plain .openParen,
      plain .closeParen, plain .openBrace]
    let ts : List Token := front ++ [plain (.keyword (.directive .style)), plain .openParen,
      name "name", plain .equals, value "a", plain .comma,
      name "name", plain .equals, value "b", plain .comma,
      name "font", plain .equals, value "f", plain .closeParen, plain .closeBrace]
    Instruction.read ts = .ok is ∧ (is.flatMap Instruction.parts)[1]? = some style ∧
      ∃ before head list behind written, ts = before ++ head :: (list ++ behind) ∧
        keywordCount (before.map Token.leaf) = 1 ∧ head.kind = .keyword style.keyword ∧
        head.line = style.line ∧ IsArgumentList list written ∧ style.arguments = .ofList written ∧
        ∀ list' written', IsArgumentList list' written' →
          (∀ name, written'.last? name = written.last? name) →
            Instruction.read (before ++ head :: (list' ++ behind)) = .ok is ∧
            ∀ settings, (Instruction.read (before ++ head :: (list' ++ behind))).map
                (Model.ofInstructions settings) = .ok (Model.ofInstructions settings is) :=
  ⟨rfl, rfl, argument_lists_interchangeable rfl rfl⟩

end Folio
