import Folio.Proofs.ReportLines

/-!
# The lines of an outline

**Nodes** (`Instruction.nodesAt`). An instruction and all that it holds, texts too, in the order in
which they are written, each with its depth. The outline is the entries of the nodes with a line
feed behind each (`outline_eq_join`).

**Theorem (`outline_one_line_per_node_iff`).** The outline of a source has one line for each node,
just if no string among the arguments has a line feed.

Texts are quoted in an outline, and a quotation is one line. The strings of arguments are shown as
they are written, so a string with a line feed breaks the line of its instruction
(`outline_not_one_line_per_node`).
-/

namespace Folio

/-! ## Nodes -/

mutual

/-- The nodes of an instruction at the depth, itself first. -/
def Instruction.nodesAt (depth : Nat) : Instruction → List (Nat × Node)
  | i@(.directive _ _ _) | i@(.emphasis _ _ _) => [(depth, .instruction i)]
  | i@(.block _ _ content _) => (depth, .instruction i) :: Node.nodesAt (depth + 1) content

def Node.nodesAt (depth : Nat) : List Node → List (Nat × Node)
  | [] => []
  | .text s :: content => (depth, .text s) :: Node.nodesAt depth content
  | .instruction i :: content => i.nodesAt depth ++ Node.nodesAt depth content

end

/-- The nodes of a document, in the order in which they are written. -/
def Instruction.nodes (is : List Instruction) : List (Nat × Node) := is.flatMap (nodesAt 0)

namespace Node

def instruction? : Node → Option Instruction
  | text _ => none
  | instruction i => some i

/-- The first word of an entry. -/
def opening : Node → String
  | text _ => "text "
  | instruction i => i.keyword.text

/-- What an entry says behind its first word. -/
def detail : Node → String
  | text s => Text.quoted s
  | instruction (.emphasis _ s line) =>
    " " ++ Text.quoted s ++ "  (line " ++ toString line ++ ")"
  | instruction (.directive _ args line) | instruction (.block _ args _ line) =>
    Instruction.showArguments args ++ "  (line " ++ toString line ++ ")"

/-- The entry of a node at a depth. -/
def entry : Nat × Node → String
  | (depth, n) => Instruction.indent depth ++ n.opening ++ n.detail

end Node

mutual

/-- The parts of an instruction are those of its nodes that are instructions. -/
theorem Instruction.filterMap_nodesAt (depth : Nat) : ∀ i : Instruction,
    (i.nodesAt depth).filterMap (fun p => p.2.instruction?) = i.parts
  | .directive kind args line => rfl
  | .emphasis kind s line => rfl
  | .block kind args content line => by
    rw [Instruction.nodesAt, Instruction.parts]
    exact congrArg (_ :: ·) (Node.filterMap_nodesAt (depth + 1) content)

theorem Node.filterMap_nodesAt (depth : Nat) : ∀ content : List Node,
    (Node.nodesAt depth content).filterMap (fun p => p.2.instruction?) = Node.parts content
  | [] => rfl
  | .text s :: content => Node.filterMap_nodesAt depth content
  | .instruction i :: content => by
    rw [Node.nodesAt, Node.parts, List.filterMap_append, Instruction.filterMap_nodesAt depth i,
      Node.filterMap_nodesAt depth content]

end

theorem Instruction.filterMap_nodes (is : List Instruction) :
    (nodes is).filterMap (fun p => p.2.instruction?) = is.flatMap Instruction.parts := by
  rw [nodes, List.filterMap_flatMap]
  congr 1
  funext i
  exact i.filterMap_nodesAt 0

/-! ## Entries -/

theorem Instruction.indent_add_heading (depth : Nat) (i : Instruction) :
    indent depth ++ i.heading = Node.entry (depth, .instruction i) ++ "\n" := by
  cases i <;>
    simp [heading, Node.entry, Node.opening, Node.detail, keyword, String.append_assoc]

/-- A text stands two spaces deeper than the block that holds it. -/
theorem Instruction.indent_succ (depth : Nat) : indent (depth + 1) = indent depth ++ "  " := by
  rw [indent, Nat.mul_succ, List.replicate_add, String.ofList_append]
  rfl

mutual

theorem Instruction.outlineAt_eq_join (depth : Nat) : ∀ i : Instruction,
    i.outlineAt depth = String.join ((i.nodesAt depth).map fun p => Node.entry p ++ "\n")
  | .directive kind args line => by
    rw [outlineAt, indent_add_heading]
    · simp [nodesAt]
    · simp
  | .emphasis kind s line => by
    rw [outlineAt, indent_add_heading]
    · simp [nodesAt]
    · simp
  | .block kind args content line => by
    rw [outlineAt, nodesAt, List.map_cons, indent_add_heading, String.join_cons,
      Instruction.outlineNodes_eq_join depth content]

theorem Instruction.outlineNodes_eq_join (depth : Nat) : ∀ content : List Node,
    outlineNodes depth content =
      String.join ((Node.nodesAt (depth + 1) content).map fun p => Node.entry p ++ "\n")
  | [] => rfl
  | .text s :: content => by
    rw [outlineNodes, Node.nodesAt, List.map_cons, String.join_cons,
      Instruction.outlineNodes_eq_join depth content]
    simp [Node.entry, Node.opening, Node.detail, indent_succ, String.append_assoc]
  | .instruction i :: content => by
    rw [outlineNodes, Node.nodesAt, List.map_append, String.join_append,
      Instruction.outlineAt_eq_join (depth + 1) i, Instruction.outlineNodes_eq_join depth content]

end

theorem Instruction.outline_eq_join (is : List Instruction) :
    outline is = String.join (((nodes is).map Node.entry).map (· ++ "\n")) := by
  rw [outline, nodes, List.map_map]
  induction is with
  | nil => rfl
  | cons i is ih =>
    rw [List.map_cons, String.join_cons, List.flatMap_cons, List.map_append, String.join_append,
      ih, outlineAt_eq_join]
    rfl

/-! ## Unbroken entries -/

/-- All strings among the arguments are one line. -/
def Arguments.OneLine (args : Arguments) : Prop :=
  ∀ name s, args.get? name = some (.text s) → Unbroken s

theorem Literal.unbroken_display_iff {l : Literal} :
    Unbroken l.display ↔ ∀ s, l = .text s → Unbroken s := by
  have hquote : Unbroken "\"" := by decide
  cases l with
  | text value =>
    simp only [display, unbroken_append, hquote, true_and, and_true, text.injEq, forall_eq']
  | number value =>
    simp only [display, unbroken_toString_int, reduceCtorEq, false_implies, implies_true]

theorem Instruction.unbroken_indent (depth : Nat) : Unbroken (indent depth) := by
  simp [Unbroken, indent]

theorem Instruction.unbroken_showArguments_iff {args : Arguments}
    (hnames : ∀ name, (args.get? name).isSome → Unbroken name) :
    Unbroken (showArguments args) ↔ args.OneLine := by
  have hhash : Unbroken " #" := by decide
  have hequals : Unbroken "=" := by decide
  have hshown : Unbroken (showArguments args) ↔ ∀ e ∈ args.entries, Unbroken e.2.display := by
    rw [showArguments, unbroken_join, List.forall_mem_map]
    refine forall₂_congr fun e he => ?_
    have hname : Unbroken e.1 :=
      hnames e.1 (Option.isSome_of_eq_some (args.mem_entries_iff.1 he))
    simp [hhash, hequals, hname]
  rw [hshown]
  constructor
  · intro h name s hs
    exact Literal.unbroken_display_iff.1 (h _ (args.mem_entries_iff.2 hs)) s rfl
  · rintro h ⟨name, l⟩ he
    apply Literal.unbroken_display_iff.2
    rintro s rfl
    exact h name s (args.mem_entries_iff.1 he)

namespace Node

theorem unbroken_opening (n : Node) : Unbroken n.opening := by
  cases n with
  | text s =>
    show Unbroken "text "
    decide
  | instruction i => exact i.keyword.unbroken_text

theorem unbroken_entry_iff {p : Nat × Node} : Unbroken (entry p) ↔ Unbroken p.2.detail := by
  obtain ⟨depth, n⟩ := p
  simp only [entry, unbroken_append, Instruction.unbroken_indent, unbroken_opening, true_and]

/-- Texts are quoted, so they are one line. -/
theorem unbroken_detail_text (s : String) : Unbroken (text s).detail := unbroken_quoted s

/-- The entry of an instruction is one line just if its arguments are. -/
theorem unbroken_detail_instruction_iff {i : Instruction}
    (hnames : ∀ name, (i.arguments.get? name).isSome → Unbroken name) :
    Unbroken (instruction i).detail ↔ i.arguments.OneLine := by
  have hline : Unbroken "  (line " := by decide
  have hclose : Unbroken ")" := by decide
  cases i with
  | directive kind args line | block kind args _ line =>
    have hshown : Unbroken (Instruction.showArguments args) ↔ args.OneLine :=
      Instruction.unbroken_showArguments_iff hnames
    simpa only [Instruction.arguments, detail, unbroken_append, hline, unbroken_toString_nat,
      hclose, and_true]
      using hshown
  | emphasis kind s line =>
    have hspace : Unbroken " " := by decide
    have hempty : (Instruction.emphasis kind s line).arguments.OneLine := by
      intro name t h
      cases h
    simp only [detail, unbroken_append, hspace, unbroken_quoted, hline, unbroken_toString_nat,
      hclose, and_true, hempty]

end Node

/-! ## One line for each node -/

/-- The line begins with two spaces for each level of depth and no more, and then with the first
word of the node. -/
structure IsLineOf (p : Nat × Node) (line : String) : Prop where
  spaces : line.toList.takeWhile (· = ' ') = List.replicate (2 * p.1) ' '
  opening : (Instruction.indent p.1 ++ p.2.opening).toList <+: line.toList

/-- The first word of an entry does not begin with a space. -/
theorem Node.exists_opening (n : Node) : ∃ c cs, n.opening.toList = c :: cs ∧ c ≠ ' ' := by
  cases n with
  | text s => exact ⟨'t', ['e', 'x', 't', ' '], by simp [opening], by decide⟩
  | instruction i =>
    have htext : i.keyword.text.toList = '$' :: i.keyword.name.toList := by simp [Keyword.text]
    exact ⟨'$', _, htext, by decide⟩

theorem Node.isLineOf_entry (p : Nat × Node) : IsLineOf p (entry p) := by
  obtain ⟨depth, n⟩ := p
  have hentry : (entry (depth, n)).toList =
      (Instruction.indent depth ++ n.opening).toList ++ n.detail.toList := String.toList_append
  constructor
  · obtain ⟨c, cs, hopening, hc⟩ := n.exists_opening
    rw [hentry, String.toList_append, Instruction.indent, String.toList_ofList, hopening,
      List.append_assoc]
    apply takeWhile_append_of_boundary
    · intro d hd
      simpa using List.eq_of_mem_replicate hd
    · simpa using hc
  · rw [hentry]
    exact List.prefix_append _ _

/-- The outline has a line for each node, and no other line. -/
def Instruction.OneLinePerNode (is : List Instruction) : Prop :=
  ∃ lines, IsLines (outline is) lines ∧ List.Forall₂ IsLineOf (nodes is) lines

theorem Instruction.oneLinePerNode_iff {is : List Instruction} :
    OneLinePerNode is ↔ ∀ p ∈ nodes is, Unbroken (Node.entry p) := by
  constructor
  · -- Each entry has a line feed behind it, so with a line for each node none is left for inside.
    rintro ⟨lines, hlines, hnodes⟩
    rw [outline_eq_join] at hlines
    have hlength : lines.length = ((nodes is).map Node.entry).length := by
      rw [List.length_map, hnodes.length_eq]
    exact List.forall_mem_map.1 (hlines.unbroken_of_length_eq hlength)
  · intro h
    refine ⟨(nodes is).map Node.entry, ⟨List.forall_mem_map.2 h, outline_eq_join is⟩, ?_⟩
    rw [List.forall₂_map_right_iff, List.forall₂_same]
    exact fun p _ => Node.isLineOf_entry p

/-- **When an outline has one line for each node.** The outline of the instructions that are read
from a source consists of one line for each instruction and each text, in the order in which they
are written, indented by depth, just if no string among the arguments has a line feed. -/
theorem outline_one_line_per_node_iff {source : String} {is : List Instruction}
    (h : Instruction.ofSource source = .ok is) :
    Instruction.OneLinePerNode is ↔
      ∀ i ∈ is.flatMap Instruction.parts, i.arguments.OneLine := by
  rw [Instruction.oneLinePerNode_iff, ← Instruction.filterMap_nodes]
  have hpart : ∀ depth i, (depth, Node.instruction i) ∈ Instruction.nodes is →
      i ∈ (Instruction.nodes is).filterMap (fun p => p.2.instruction?) :=
    fun depth i hp => List.mem_filterMap.2 ⟨_, hp, rfl⟩
  have hdetail : ∀ i ∈ (Instruction.nodes is).filterMap (fun p => p.2.instruction?),
      (Unbroken (Node.instruction i).detail ↔ i.arguments.OneLine) := by
    intro i hi
    rw [Instruction.filterMap_nodes] at hi
    exact Node.unbroken_detail_instruction_iff (unbroken_name_of_mem_parts h hi)
  constructor
  · intro hentries i hi
    obtain ⟨⟨depth, n⟩, hp, hn⟩ := List.mem_filterMap.1 hi
    cases n with
    | text s => cases hn
    | instruction j =>
      cases hn
      exact (hdetail i hi).1 (Node.unbroken_entry_iff.1 (hentries _ hp))
  · rintro hparts ⟨depth, n⟩ hp
    apply Node.unbroken_entry_iff.2
    cases n with
    | text s => exact Node.unbroken_detail_text s
    | instruction i => exact (hdetail i (hpart depth i hp)).2 (hparts i (hpart depth i hp))

/-- Line feeds in a text, and in a string that a later one of the name overwrites. -/
theorem outline_one_line_per_node_iff_overwritten :
    let source := "$section(#style=\"a\nb\", #style=\"c\")\x7bx\ny$bold()\x7bz\x7d\x7d"
    ∃ is, Instruction.ofSource source = .ok is ∧ (Instruction.OneLinePerNode is ↔
      ∀ i ∈ is.flatMap Instruction.parts, i.arguments.OneLine) := by
  intro source
  have hok : (Instruction.ofSource source).isOk := by decide +kernel
  cases hread : Instruction.ofSource source with
  | error e =>
    rw [hread] at hok
    cases hok
  | ok is => exact ⟨is, rfl, outline_one_line_per_node_iff hread⟩

/-- The name of a style has a line feed, so the section has two lines. -/
theorem outline_not_one_line_per_node :
    ∃ is, Instruction.ofSource "$section(#style=\"a\nb\")\x7bx\x7d" = .ok is ∧
      ¬ Instruction.OneLinePerNode is := by
  generalize hsource : "$section(#style=\"a\nb\")\x7bx\x7d" = source
  have hbroken : (Instruction.ofSource source).toOption.any fun is =>
      (Instruction.nodes is).any fun p => !decide (Unbroken (Node.entry p)) := by
    rw [← hsource]
    decide +kernel
  cases hread : Instruction.ofSource source with
  | error e =>
    rw [hread] at hbroken
    cases hbroken
  | ok is =>
    rw [hread] at hbroken
    refine ⟨is, rfl, ?_⟩
    intro hone
    obtain ⟨p, hp, hentry⟩ := List.any_eq_true.1 hbroken
    simp [Instruction.oneLinePerNode_iff.1 hone p hp] at hentry

end Folio
