import Folio.Proofs.Growth
import Folio.Proofs.Printing
import Folio.Proofs.Seam

/-!
# Lines with a quote too many

The canonical document puts texts between quotes and does not escape the quotes in them. Such a text
ends too early when it is scanned again.

**Lines** (`Spells`). Each line of a canonical document is a keyword and its arguments, and what has
a quote in it is a text that the model took over from the settings.

**Up to the quote** (`exists_begun`). Of a line with a quote too many, the keyword and the arguments
are found in front of any text, as far as the first quote of the first text that has one.

**Reading it** (`exists_tree_of_begun`). However such a line goes on, it is read as an instruction
of its keyword, which has that argument.
-/

namespace Folio

/-! ## Lines and their trees -/

namespace Tree

def keyword (t : Tree) : Keyword := t.instruction.keyword

/-- The arguments of the instruction itself. -/
def written : Tree → Written
  | directive _ ws _ => ws
  | block _ ws _ _ => ws
  | emphasis _ _ _ => []

theorem arguments_instruction (t : Tree) : t.instruction.arguments = .ofList t.written := by
  cases t <;> rfl

end Tree

/-- The argument is a text with a quote. -/
def Quoted (w : String × Literal) : Prop := ∃ s, w.2 = .text s ∧ ¬ Unquoted s

/-- One of the arguments is a text with a quote. -/
def Tree.Quotes (t : Tree) : Prop := ∃ w ∈ t.written, Quoted w

theorem unquoted_of_not_quoted {name s : String} (h : ¬ Quoted (name, .text s)) : Unquoted s :=
  not_not.1 fun hs => h ⟨s, rfl, hs⟩

/-- An argument as it is printed in a list. Only texts that come from outside may have quotes. -/
structure Spelled (k : Keyword) (ws : Written) (w : String × Literal) : Prop where
  printable : ¬ Quoted w → PrintableArgument w
  name : Quoted w → w.1 ∈ k.textNames
  value : (Arguments.ofList ws).get? w.1 = some w.2

/-- The line is printed from the tree: the keyword, then the arguments. -/
structure Spells (l : String) (t : Tree) : Prop where
  text : ∃ tail, l = t.keyword.text ++ argumentList (t.written.map argumentText) ++ tail
  arguments : ∀ w ∈ t.written, Spelled t.keyword t.written w

theorem isArgumentName_of_mem_textNames {k : Keyword} {name : String} (h : name ∈ k.textNames) :
    isArgumentName name := by
  have hall : ∀ k, ∀ name ∈ Keyword.textNames k, isArgumentName name := by
    rintro (k | k | k) <;> cases k <;> decide
  exact hall k name h

section Spelled

variable {k : Keyword} {ws : Written} {name s : String}

theorem spelled_text (hname : name ∈ k.textNames)
    (hvalue : ws.reverse.lookup name = some (.text s)) : Spelled k ws (name, .text s) where
  printable h := printableArgument_text (isArgumentName_of_mem_textNames hname)
    (unquoted_of_not_quoted h)
  name _ := hname
  value := (Arguments.get?_ofList ws name).trans hvalue

theorem spelled_unquoted (hname : isArgumentName name) (hs : Unquoted s)
    (hvalue : ws.reverse.lookup name = some (.text s)) : Spelled k ws (name, .text s) where
  printable _ := printableArgument_text hname hs
  name := by
    rintro ⟨_, ⟨⟩, hquote⟩
    exact absurd hs hquote
  value := (Arguments.get?_ofList ws name).trans hvalue

theorem spelled_number {v : UInt32} (hname : isArgumentName name)
    (hvalue : ws.reverse.lookup name = some (.number v.toNat)) :
    Spelled k ws (name, .number v.toNat) where
  printable _ := printableArgument_number hname
  name := by rintro ⟨_, ⟨⟩, -⟩
  value := (Arguments.get?_ofList ws name).trans hvalue

end Spelled

theorem spells_style (s : Style) : Spells s.echo s.tree where
  text := ⟨"", by rw [String.append_empty]; exact s.echo_eq⟩
  arguments := by
    show ∀ w ∈ s.written, Spelled (.directive .style) s.written w
    simp only [Style.written, List.forall_mem_cons]
    exact ⟨spelled_text (by decide) rfl, spelled_text (by decide) rfl,
      spelled_number (by decide) rfl, spelled_text (by decide) rfl, List.forall_mem_nil _⟩

theorem spells_pageNumber (n : PageNumber) : Spells n.echo n.tree where
  text := ⟨"", by rw [String.append_empty]; exact n.echo_eq⟩
  arguments := by
    show ∀ w ∈ n.written, Spelled (.directive .pageNumber) n.written w
    simp only [PageNumber.written, List.forall_mem_cons]
    exact ⟨spelled_unquoted (by decide) (unquoted_name n.position) rfl,
      spelled_text (by decide) rfl, spelled_number (by decide) rfl,
      spelled_text (by decide) rfl, spelled_number (by decide) rfl, List.forall_mem_nil _⟩

theorem spells_title (t : Title) : Spells t.echo (Item.title t).tree where
  text := ⟨_, t.echo_eq⟩
  arguments := by
    show ∀ w ∈ t.written, Spelled (.block .title) t.written w
    simp only [Title.written, List.forall_mem_cons]
    exact ⟨spelled_text (by decide) rfl, spelled_number (by decide) rfl, List.forall_mem_nil _⟩

theorem spells_section (s : Section) : Spells s.echo (Item.body s).tree where
  text := ⟨_, s.echo_eq⟩
  arguments := by
    show ∀ w ∈ s.written, Spelled (.block .body) s.written w
    simp only [Section.written, List.forall_mem_singleton]
    exact spelled_text (by decide) rfl

theorem spells_item (i : Item) : Spells i.echo i.tree := by
  cases i with
  | title t => exact spells_title t
  | body s => exact spells_section s

/-! ## A line up to the quote -/

variable {rest : List Char} {ks : List Kind}

/-- Arguments in front of a further one. -/
def aheadText (ws : Written) : List Char :=
  ws.flatMap fun w => (argumentText w).toList ++ [',', ' ']

def aheadKinds (ws : Written) : List Kind := ws.flatMap fun w => argumentKinds w ++ [.comma]

theorem scans_ahead {ws : Written} (hws : ∀ w ∈ ws, PrintableArgument w)
    (h : Scans .arguments rest ks) :
    Scans .arguments (aheadText ws ++ rest) (aheadKinds ws ++ ks) := by
  induction ws with
  | nil => exact h
  | cons w ws ih =>
    obtain ⟨hw, hws⟩ := List.forall_mem_cons.1 hws
    have hcomma : ∀ c ∈ (',' :: ' ' :: (aheadText ws ++ rest)).head?, c.isDigit = false := by simp
    have hargument := scans_argument hw hcomma (scans_comma (ih hws))
    simpa [aheadText, aheadKinds] using hargument

/-- A keyword and arguments, the last of them without what follows it. -/
def begunText (k : Keyword) (ws : Written) (w : String × Literal) : List Char :=
  k.text.toList ++ '(' :: (aheadText ws ++ (argumentText w).toList)

def begunKinds (k : Keyword) (ws : Written) (w : String × Literal) : List Kind :=
  .keyword k :: .openParen :: (aheadKinds ws ++ argumentKinds w)

theorem scans_begun (k : Keyword) {ws : Written} {w : String × Literal}
    (hws : ∀ w ∈ ws, PrintableArgument w) (hw : PrintableArgument w) :
    Scans .document (begunText k ws w) (begunKinds k ws w) := by
  have hargument : Scans .arguments ((argumentText w).toList ++ []) (argumentKinds w ++ []) :=
    scans_argument hw (by simp) (.nil _)
  rw [List.append_nil, List.append_nil] at hargument
  exact scans_keyword k (scans_openParen (scans_ahead hws hargument))

/-- The list up to the quote in one of its texts, which the quote ends. -/
theorem begunText_of_quoted {s : String} {value more : List Char}
    (hs : s.toList = value ++ '"' :: more) (k : Keyword) (name : String) (ws vs : Written)
    (tail : String) :
    ∃ behind,
      (k.text ++ argumentList ((ws ++ (name, .text s) :: vs).map argumentText) ++ tail).toList =
      begunText k ws (name, .text (String.ofList value)) ++ behind := by
  refine ⟨more ++ '"' :: (vs.flatMap fun w => [',', ' '] ++ (argumentText w).toList) ++
    ')' :: tail.toList, ?_⟩
  simp only [argumentList, begunText, aheadText, List.map_append, List.map_cons,
    String.toList_append, toList_intercalate_append, toList_intercalate_cons, List.flatMap_map]
  simp [argumentText, Literal.display, hs]

theorem behind_aheadKinds (ws : Written) : Mode.arguments.behind (aheadKinds ws) = .arguments := by
  induction ws with
  | nil => rfl
  | cons w ws ih =>
    obtain ⟨name, v⟩ := w
    cases v <;> exact ih

/-- A text that is complete does not go on. -/
theorem leadsTo_begun (k : Keyword) (ws : Written) (name s : String) (b : List Char) :
    LeadsTo .document .arguments b (begunKinds k ws (name, .text s)) where
  mode := by
    show (Mode.arguments.behind (aheadKinds ws ++ argumentKinds (name, .text s))) = _
    rw [Mode.behind_append, behind_aheadKinds]
    rfl
  last := by
    intro kind hkind
    have hsplit : begunKinds k ws (name, .text s) =
        (.keyword k :: .openParen :: (aheadKinds ws ++ [.argumentName name, .equals])) ++
          [.string s] := by
      simp [begunKinds, argumentKinds, Literal.kind]
    rw [hsplit, List.getLast?_concat] at hkind
    obtain rfl := Option.some.inj hkind
    trivial

theorem exists_first {α : Type} {Q : α → Prop} {l : List α} (h : ∃ a ∈ l, Q a) :
    ∃ as a bs, l = as ++ a :: bs ∧ (∀ x ∈ as, ¬ Q x) ∧ Q a := by
  classical
  obtain ⟨a, ha, hQ⟩ := h
  have hsome : (l.find? fun x => decide (Q x)).isSome :=
    List.find?_isSome.2 ⟨a, ha, decide_eq_true hQ⟩
  obtain ⟨b, hb⟩ := Option.isSome_iff_exists.1 hsome
  obtain ⟨hQb, as, bs, rfl, has⟩ := List.find?_eq_some_iff_append.1 hb
  exact ⟨as, b, bs, rfl, fun x hx => by simpa using has x hx, of_decide_eq_true hQb⟩

/-- **A line with a quote too many** is scanned up to an argument whose text the quote ends. -/
theorem exists_begun {l : String} {t : Tree} (h : Spells l t) (hq : t.Quotes) :
    ∃ w ∈ t.written, Quoted w ∧ ∃ ws s, ∀ p rest, ∃ ks,
      kindsOf (Scanner.mk .document p (l.toList ++ rest)).items =
        begunKinds t.keyword ws (w.1, .text s) ++ ks := by
  obtain ⟨ws, ⟨name, _⟩, vs, hwritten, hws, ⟨s, rfl, hs⟩⟩ := exists_first hq
  have hmem : (name, .text s) ∈ t.written := by simp [hwritten]
  have hw : Quoted (name, .text s) := ⟨s, rfl, hs⟩
  obtain ⟨value, more, hsplit, hvalue⟩ := List.eq_append_cons_of_mem (not_not.1 hs)
  obtain ⟨tail, htext⟩ := h.text
  obtain ⟨behind, hbegun⟩ := begunText_of_quoted hsplit t.keyword name ws vs tail
  have hname : isArgumentName name :=
    isArgumentName_of_mem_textNames ((h.arguments _ hmem).name hw)
  have hahead : ∀ w ∈ ws, PrintableArgument w := fun w hw =>
    (h.arguments w (by rw [hwritten]; exact List.mem_append_left _ hw)).printable (hws w hw)
  have hscans := scans_begun t.keyword hahead
    (printableArgument_text hname (s := String.ofList value) (by simpa [Unquoted] using hvalue))
  refine ⟨_, hmem, hw, ws, String.ofList value, fun p rest => ?_⟩
  rw [htext, hwritten, hbegun, List.append_assoc]
  exact ⟨_, kindsOf_items_append hscans (leadsTo_begun _ _ _ _ _) p⟩

/-! ## Reading a line up to the quote -/

theorem argumentName_mem_separatedKinds {vs : Written} {name : String}
    (h : .argumentName name ∈ separatedKinds vs) : name ∈ vs.map (·.1) := by
  have hkind : ∀ w : String × Literal, .argumentName name ∈ argumentKinds w → name = w.1 := by
    rintro ⟨name', v⟩ hmem
    cases v <;> simpa [argumentKinds, Literal.kind] using hmem
  cases vs with
  | nil => cases h
  | cons w vs =>
    rw [separatedKinds, List.mem_append, List.mem_flatMap] at h
    rcases h with h | ⟨v, hv, h⟩
    · rw [hkind w h]
      exact List.mem_cons_self
    · rw [hkind v ((List.mem_cons.1 h).resolve_left (by simp))]
      exact List.mem_cons_of_mem _ (List.mem_map_of_mem hv)

theorem closeParen_notMem_begun (ws : Written) (w : String × Literal) :
    .closeParen ∉ aheadKinds ws ++ argumentKinds w := by
  simp [aheadKinds, closeParen_notMem_argumentKinds]

/-- A list that begins with arguments has their names. -/
theorem name_mem_of_listKinds {vs : Written} {begun x y : List Kind} {name : String}
    (h : listKinds vs ++ x = .openParen :: (begun ++ y)) (hopen : .closeParen ∉ begun)
    (hname : .argumentName name ∈ begun) : name ∈ vs.map (·.1) := by
  have hsplit : separatedKinds vs ++ .closeParen :: x = begun ++ y := by
    simpa [listKinds] using h
  refine argumentName_mem_separatedKinds ?_
  rcases List.append_eq_append_iff.1 hsplit with ⟨more, rfl, hmore⟩ | ⟨more, hmore, -⟩
  · cases more with
    | nil => simpa using hname
    | cons k more =>
      obtain ⟨rfl, -⟩ := List.cons.inj hmore
      simp at hopen
  · rw [hmore]
    exact List.mem_append_left _ hname

theorem Tree.exists_kinds (t : Tree) :
    ∃ tail, t.kinds = .keyword t.keyword :: (listKinds t.written ++ tail) := by
  cases t with
  | directive kind ws line =>
    refine ⟨[], ?_⟩
    rw [kinds, leaves, List.map_cons, kinds_plain, List.append_nil]
    rfl
  | block kind ws content line =>
    refine ⟨.openBrace :: ((Branch.leaves content).map (·.kind) ++ [.closeBrace]), ?_⟩
    exact kinds_block kind ws content line
  | emphasis kind text line =>
    refine ⟨.openBrace :: (text.toList.map .text ++ [.closeBrace]), ?_⟩
    rw [kinds, leaves, List.map_cons, kinds_plain]
    rfl

/-- **Read up to the quote**, the line is an instruction of its keyword with that argument. -/
theorem exists_tree_of_begun {trees : List Tree} {k : Keyword} {ws : Written}
    {w : String × Literal} (h : trees.flatMap Tree.kinds = begunKinds k ws w ++ ks) :
    ∃ t ∈ trees.head?, t.keyword = k ∧ w.1 ∈ t.written.map (·.1) := by
  cases trees with
  | nil => simp [begunKinds] at h
  | cons t trees =>
    obtain ⟨tail, htail⟩ := t.exists_kinds
    rw [List.flatMap_cons, htail, begunKinds] at h
    simp only [List.cons_append, List.append_assoc, List.cons.injEq, Kind.keyword.injEq] at h
    obtain ⟨hk, hlist⟩ := h
    rw [← List.append_assoc (aheadKinds ws)] at hlist
    refine ⟨t, rfl, hk, ?_⟩
    refine name_mem_of_listKinds hlist (closeParen_notMem_begun ws w) ?_
    exact List.mem_append_right _ (by simp [argumentKinds])

end Folio
