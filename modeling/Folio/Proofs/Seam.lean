import Folio.Proofs.Lossless
import Folio.Proofs.Reading

/-!
# The seam between two texts

What is found in a text is found as well if another text follows, and then what is found in that
(`finds_append`, `kindsOf_items_append`). Three things could be different, each of them at the seam.

- The last token goes on in the second text. A token of a kind that is closed does not, and of the
  others `Kind.StopsAt` says where they stop.
- The second text is scanned in another mode. `Mode.behind` says which one it is.
- A stray character of the first text begins a token with the second one.

An instruction ends with a parenthesis or a brace, and leads to document mode
(`leadsTo_of_leaves`).
-/

namespace Folio

/-! ## Items apart -/

/-- The kinds of the tokens among some items. -/
def kindsOf (is : List Scanned) : List Kind := (Scan.ofItems is).tokens.map (·.kind)

/-- The characters passed over among some items. -/
def straysOf (is : List Scanned) : List Char := (Scan.ofItems is).illegal.map (·.character)

theorem kindsOf_token (t : Token) (is : List Scanned) :
    kindsOf (.token t :: is) = t.kind :: kindsOf is := rfl

theorem kindsOf_illegal (e : IllegalCharacter) (is : List Scanned) :
    kindsOf (.illegal e :: is) = kindsOf is := rfl

theorem straysOf_illegal (e : IllegalCharacter) (is : List Scanned) :
    straysOf (.illegal e :: is) = e.character :: straysOf is := rfl

theorem kindsOf_append (is js : List Scanned) : kindsOf (is ++ js) = kindsOf is ++ kindsOf js := by
  rw [kindsOf, Scan.ofItems, List.filterMap_append, List.map_append]
  rfl

/-! ## Lexemes in front of another text -/

/-- A token of the kind does not go on in the text. -/
def Kind.StopsAt : Kind → List Char → Prop
  | .text _, b => ∀ c ∈ b.head?, endsText c
  | .argumentName _, b => ∀ c ∈ b.head?, isNameChar c = false
  | .number _, b => ∀ c ∈ b.head?, c.isDigit = false
  | _, _ => True

theorem forall_head?_append {α : Type} {q : α → Prop} {as bs : List α} (has : ∀ a ∈ as.head?, q a)
    (hbs : as = [] → ∀ b ∈ bs.head?, q b) : ∀ c ∈ (as ++ bs).head?, q c := by
  cases as with
  | nil => exact hbs rfl
  | cons a as => exact has

variable {b : List Char}

theorem Lexeme.append {m : Mode} {text rest : List Char} {kind : Kind}
    (h : Lexeme m text rest kind) (hstops : rest = [] → kind.StopsAt b) :
    Lexeme m text (rest ++ b) kind := by
  cases h with
  | bracket rest hc => exact .bracket _ hc
  | keyword k rest => exact .keyword k _
  | text hc hplain hrest => exact .text hc hplain (forall_head?_append hrest hstops)
  | equals rest => exact .equals _
  | comma rest => exact .comma _
  | name hc hmore hrest => exact .name hc hmore (forall_head?_append hrest hstops)
  | string rest hvalue => exact .string _ hvalue
  | number hdigits hrest => exact .number hdigits (forall_head?_append hrest hstops)

/-! ## A scan over the seam -/

/-- The mode behind tokens of the kinds. -/
def Mode.behind (m : Mode) (ks : List Kind) : Mode := ks.foldl Mode.after m

/-- The tokens lead from one mode to another, and the last of them does not go on in the text. -/
structure LeadsTo (m n : Mode) (b : List Char) (ks : List Kind) : Prop where
  mode : m.behind ks = n
  last : ∀ k ∈ ks.getLast?, k.StopsAt b

theorem LeadsTo.tail {m n : Mode} {k : Kind} {ks : List Kind} (h : LeadsTo m n b (k :: ks)) :
    LeadsTo (m.after k) n b ks := by
  refine ⟨h.mode, fun j hj => h.last j ?_⟩
  rw [List.getLast?_cons, Option.mem_def.1 hj]
  rfl

theorem LeadsTo.stopsAt {m n o : Mode} {p : Position} {t : Token} {is : List Scanned}
    (h : LeadsTo m n b (kindsOf (.token t :: is))) {rest : List Char} (hrest : Finds o p rest is)
    (hnil : rest = []) : t.kind.StopsAt b := by
  subst hnil
  generalize hcs : ([] : List Char) = cs at hrest
  cases hrest with
  | nil => exact h.last t.kind rfl
  | token hlexeme => exact absurd (List.append_eq_nil_iff.1 hcs.symm).1 hlexeme.ne_nil
  | _ => cases hcs

/-- **What is found in a text is found in front of another one**, and then what is found in that. -/
theorem finds_append {m n : Mode} {p : Position} {a : List Char} {is js : List Scanned}
    (h : Finds m p a is) (hleads : LeadsTo m n b (kindsOf is))
    (hstrays : ∀ m c rest, c ∈ straysOf is → Stray m c rest → Stray m c (rest ++ b))
    (hjs : Finds n (p.advance a) b js) : Finds m p (a ++ b) (is ++ js) := by
  induction h with
  | nil m p =>
    have hm : m = n := hleads.mode
    exact hm ▸ hjs
  | blank hc _ ih => exact .blank hc (ih hleads hstrays hjs)
  | @token m p text rest kind is hlexeme hrest ih =>
    rw [Position.advance_append] at hjs
    rw [List.append_assoc]
    exact .token (hlexeme.append (hleads.stopsAt hrest)) (ih hleads.tail hstrays hjs)
  | @illegal m p c cs is hstray _ ih =>
    rw [straysOf_illegal] at hstrays
    exact .illegal (hstrays m c cs List.mem_cons_self hstray)
      (ih hleads (fun m d rest hd => hstrays m d rest (List.mem_cons_of_mem c hd)) hjs)

theorem finds_of_scans {m : Mode} {cs : List Char} {ks : List Kind} (h : Scans m cs ks)
    (p : Position) : ∃ is, Finds m p cs is ∧ kindsOf is = ks ∧ straysOf is = [] := by
  obtain ⟨ts, hitems, hkinds⟩ := Scanner.items_of_scans h p
  refine ⟨_, hitems ▸ Scanner.finds_items m p cs, ?_, ?_⟩
  · rw [kindsOf, Scan.ofItems_map_token, hkinds]
  · rw [straysOf, Scan.ofItems_map_token]
    rfl

/-- What is scanned without a stray character is found in front of another text. -/
theorem kindsOf_items_append {m n : Mode} {a b : List Char} {ks : List Kind} (h : Scans m a ks)
    (hleads : LeadsTo m n b ks) (p : Position) :
    kindsOf (Scanner.mk m p (a ++ b)).items =
      ks ++ kindsOf (Scanner.mk n (p.advance a) b).items := by
  obtain ⟨is, his, rfl, hstrays⟩ := finds_of_scans h p
  have hnone : ∀ m c rest, c ∈ straysOf is → Stray m c rest → Stray m c (rest ++ b) := by
    intro m c rest hc
    rw [hstrays] at hc
    cases hc
  have hfinds := finds_append his hleads hnone (Scanner.finds_items _ _ _)
  rw [Scanner.items_of_finds hfinds, kindsOf_append]

/-! ## Instructions -/

theorem Mode.behind_append (m : Mode) (as bs : List Kind) :
    m.behind (as ++ bs) = (m.behind as).behind bs := List.foldl_append

theorem behind_listKinds (m : Mode) (ws : Written) : m.behind (listKinds ws) = .document := by
  rw [listKinds, Mode.behind_append]
  rfl

mutual

/-- Behind an instruction the mode is document mode. -/
theorem Tree.behind_leaves (m : Mode) :
    ∀ t : Tree, m.behind (t.leaves.map (·.kind)) = .document
  | .directive kind ws line => by
    rw [Tree.leaves, List.map_cons, kinds_plain]
    exact behind_listKinds m ws
  | .block kind ws content line => by
    have hcontent := Branch.behind_leaves content
    have hlist : m.behind (.keyword (.block kind) :: listKinds ws) = .document :=
      behind_listKinds m ws
    rw [kinds_block, Mode.behind_append, hlist]
    show Mode.document.behind ((Branch.leaves content).map (·.kind) ++ [.closeBrace]) = _
    rw [Mode.behind_append, hcontent]
    rfl
  | .emphasis kind text line => by
    cases text <;> rfl

theorem Branch.behind_leaves :
    ∀ content : List Branch,
      Mode.document.behind ((Branch.leaves content).map (·.kind)) = .document
  | [] => rfl
  | .text s :: content => Branch.behind_leaves content
  | .tree t :: content => by
    rw [Branch.leaves, List.map_append, Mode.behind_append, Tree.behind_leaves]
    exact Branch.behind_leaves content

end

theorem Tree.exists_first (t : Tree) : ∃ k line ls, t.leaves = .keyword k line :: ls := by
  cases t with
  | directive kind ws line => exact ⟨_, _, _, rfl⟩
  | block kind ws content line => exact ⟨_, _, _, rfl⟩
  | emphasis kind text line => exact ⟨_, _, _, rfl⟩

/-- An instruction ends with a closing parenthesis or brace. -/
theorem Tree.exists_last (t : Tree) :
    ∃ ls kind, t.leaves = ls ++ [.plain kind] ∧ ∀ b, kind.StopsAt b := by
  cases t with
  | directive kind ws line =>
    exact ⟨listBegun (.directive kind line) (separatedKinds ws), .closeParen,
      by simp [Tree.leaves, listBegun, listKinds, Head.leaf], fun _ => trivial⟩
  | block kind ws content line =>
    exact ⟨(Head.block kind line).leaf :: (listKinds ws).map .plain ++
      .plain .openBrace :: Branch.leaves content, .closeBrace,
      by simp [Tree.leaves, Head.leaf], fun _ => trivial⟩
  | emphasis kind text line =>
    exact ⟨emphasisBegun kind line ([.openParen, .closeParen, .openBrace] ++ text.toList.map .text),
      .closeBrace, by simp [Tree.leaves, emphasisBegun, emphasisKinds], fun _ => trivial⟩

theorem behind_leaves (trees : List Tree) :
    Mode.document.behind ((trees.flatMap Tree.leaves).map (·.kind)) = .document := by
  induction trees with
  | nil => rfl
  | cons t trees ih =>
    rw [List.flatMap_cons, List.map_append, Mode.behind_append, t.behind_leaves, ih]

theorem leadsTo_of_leaves (b : List Char) (trees : List Tree) :
    LeadsTo .document .document b ((trees.flatMap Tree.leaves).map (·.kind)) := by
  refine ⟨behind_leaves trees, fun k hk => ?_⟩
  rcases List.eq_nil_or_concat trees with rfl | ⟨init, t, rfl⟩
  · cases hk
  · obtain ⟨ls, kind, hlast, hkind⟩ := t.exists_last
    simp only [List.concat_eq_append, List.flatMap_append, List.flatMap_singleton, hlast,
      List.map_append, List.map_singleton, ← List.append_assoc, List.getLast?_concat] at hk
    obtain rfl := Option.some.inj hk
    exact hkind b

end Folio
