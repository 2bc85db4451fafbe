import Folio.Proofs.Arrival
import Folio.Proofs.Compiled
import Folio.Proofs.Lossless
import Folio.Settings.Standard

/-!
# Diagnostics in source order

**Lines** (`Instruction.lines`). The lines of an instruction and of all that it holds, in the order
in which they are written. The lines of the instructions that are read are those of the keyword
tokens (`lines_of_read`), which do not decrease.

**Ordered** (`Ordered`). Diagnostics that stand on given lines and follow each other as lines do.
What an instruction is told is ordered on its own lines (`ordered_judge`): all of it stands on the
line of the keyword, or else the errors of what it holds follow one by one.

**Theorem (`diagnostics_in_source_order`).** Errors and warnings come line by line, each on the line
of some keyword. So what there is to say about a source is the merge of the two lists by line, the
errors first where lines are equal.
-/

namespace Folio

/-! ## The lines of instructions -/

mutual

/-- The lines of the keywords of an instruction, nested ones included, as they are written. -/
def Instruction.lines : Instruction → List Nat
  | .directive _ _ line | .emphasis _ _ line => [line]
  | .block _ _ content line => line :: Node.lines content

def Node.lines : List Node → List Nat
  | [] => []
  | .text _ :: content => Node.lines content
  | .instruction i :: content => i.lines ++ Node.lines content

end

theorem Instruction.line_mem_lines (i : Instruction) : i.line ∈ i.lines := by
  cases i <;> simp [line, lines]

/-- The lines of the keyword tokens. -/
def keywordLines (ts : List Token) : List Nat := (ts.map Token.leaf).filterMap Leaf.line

@[simp] theorem Leaf.line_keyword (k : Keyword) (line : Nat) :
    (Leaf.keyword k line).line = some line := rfl

@[simp] theorem Leaf.line_plain (kind : Kind) : (Leaf.plain kind).line = none := rfl

mutual

theorem Tree.lines_instruction : ∀ t : Tree, t.instruction.lines = t.leaves.filterMap Leaf.line
  | .directive kind ws line => by simp [Tree.instruction, Tree.leaves, Instruction.lines]
  | .block kind ws content line => by
    have hlist : ((listKinds ws).map Leaf.plain).filterMap Leaf.line = [] := by simp
    simp [Tree.instruction, Tree.leaves, Instruction.lines, Branch.lines_nodes content, hlist,
      List.filterMap_cons, -List.filterMap_map]
  | .emphasis kind text line => by simp [Tree.instruction, Tree.leaves, Instruction.lines]

theorem Branch.lines_nodes : ∀ content : List Branch,
    Node.lines (Branch.nodes content) = (Branch.leaves content).filterMap Leaf.line
  | [] => rfl
  | .text s :: content => Branch.lines_nodes content
  | .tree t :: content => by
    rw [Branch.nodes, Branch.leaves, Node.lines, List.filterMap_append, Tree.lines_instruction t,
      Branch.lines_nodes content]

end

/-- **The lines of instructions** are those of the keywords that they are read from. -/
theorem lines_of_read {ts : List Token} {is : List Instruction}
    (h : Instruction.read ts = .ok is) : is.flatMap Instruction.lines = keywordLines ts := by
  obtain ⟨trees, ⟨-, hleaves⟩, rfl⟩ := read_eq_ok_iff.1 h
  rw [keywordLines, hleaves, List.filterMap_flatMap, List.flatMap_map]
  exact congrArg (trees.flatMap ·) (funext Tree.lines_instruction)

theorem exists_keyword_of_mem_keywordLines {ts : List Token} {line : Nat}
    (h : line ∈ keywordLines ts) : ∃ t ∈ ts, (∃ k, t.kind = .keyword k) ∧ t.line = line := by
  obtain ⟨l, hl, hline⟩ := List.mem_filterMap.1 h
  obtain ⟨t, ht, rfl⟩ := List.mem_map.1 hl
  unfold Token.leaf at hline
  split at hline
  · next k hk => exact ⟨t, ht, ⟨k, hk⟩, Option.some.inj hline⟩
  · cases hline

/-! ## The lines of tokens -/

/-- The line of the first character. -/
def Scanned.line : Scanned → Nat
  | token t => t.line
  | illegal e => e.position.line

theorem Scanned.line_of_standsAt {i : Scanned} {p : Position} (h : i.StandsAt p) :
    i.line = p.line := by
  cases i with
  | token t =>
    rw [StandsAt] at h
    rw [line, h]
    rfl
  | illegal e => exact congrArg Position.line h

theorem Position.line_le_advance (p : Position) (cs : List Char) :
    p.line ≤ (p.advance cs).line := by
  rw [line_advance]
  exact Nat.le_add_right _ _

theorem line_le_of_finds {m : Mode} {p : Position} {cs : List Char} {is : List Scanned}
    (h : Finds m p cs is) : ∀ i ∈ is, p.line ≤ i.line := by
  intro i hi
  obtain ⟨before, behind, -, -, hstands⟩ := exists_split_of_finds h i hi
  rw [Scanned.line_of_standsAt hstands]
  exact p.line_le_advance before

/-- Items come line by line. -/
theorem pairwise_line_of_finds {m : Mode} {p : Position} {cs : List Char} {is : List Scanned}
    (h : Finds m p cs is) : is.Pairwise fun i j => i.line ≤ j.line := by
  induction h with
  | nil => exact .nil
  | blank _ _ ih => exact ih
  | @token m p text rest kind is _ hrest ih =>
    refine List.pairwise_cons.2 ⟨fun j hj => ?_, ih⟩
    exact (p.line_le_advance text).trans (line_le_of_finds hrest j hj)
  | @illegal m p c cs is _ hrest ih =>
    refine List.pairwise_cons.2 ⟨fun j hj => ?_, ih⟩
    exact (p.line_le_advance [c]).trans (line_le_of_finds hrest j hj)

theorem pairwise_keywordLines (source : String) :
    (keywordLines (Scan.ofSource source).tokens).Pairwise (· ≤ ·) := by
  have hitems : (Scanner.ofSource source).items.Pairwise fun i j => i.line ≤ j.line :=
    pairwise_line_of_finds (Scanner.finds_items _ _ _)
  have htokens : (Scan.ofSource source).tokens.Pairwise fun t u => t.line ≤ u.line := by
    refine List.pairwise_filterMap.2 (hitems.imp ?_)
    rintro (t | e) (u | e') hle b hb b' hb' <;> cases hb <;> cases hb'
    exact hle
  rw [keywordLines, List.filterMap_map]
  refine List.pairwise_filterMap.2 (htokens.imp ?_)
  intro t u hle n hn n' hn'
  have hline : ∀ t : Token, ∀ n ∈ t.leaf.line, n = t.line := by
    intro t n hn
    unfold Token.leaf at hn
    split at hn <;> cases hn
    rfl
  rw [hline t n hn, hline u n' hn']
  exact hle

/-! ## Diagnostics on lines -/

/-- The diagnostics stand on some of the lines and do not go back. -/
structure Ordered (lines : List Nat) (ds : List Diagnostic) : Prop where
  mem : ∀ d ∈ ds, d.line ∈ lines
  sorted : ds.Pairwise fun d e => d.line ≤ e.line

theorem ordered_nil (lines : List Nat) : Ordered lines [] := ⟨List.forall_mem_nil _, .nil⟩

theorem ordered_of_line_eq {lines : List Nat} {ds : List Diagnostic} {line : Nat}
    (hline : line ∈ lines) (h : ∀ d ∈ ds, d.line = line) : Ordered lines ds where
  mem := fun d hd => h d hd ▸ hline
  sorted := List.pairwise_of_forall_mem_list fun d hd e he => by rw [h d hd, h e he]

theorem Ordered.sublist {lines : List Nat} {ds es : List Diagnostic} (h : Ordered lines ds)
    (hsub : es.Sublist ds) : Ordered lines es :=
  ⟨fun d hd => h.mem d (hsub.subset hd), h.sorted.sublist hsub⟩

theorem Ordered.append {as bs : List Nat} {ds es : List Diagnostic}
    (hlines : (as ++ bs).Pairwise (· ≤ ·)) (hd : Ordered as ds) (he : Ordered bs es) :
    Ordered (as ++ bs) (ds ++ es) where
  mem := by
    intro d h
    rcases List.mem_append.1 h with h | h
    · exact List.mem_append_left _ (hd.mem d h)
    · exact List.mem_append_right _ (he.mem d h)
  sorted := List.pairwise_append.2 ⟨hd.sorted, he.sorted, fun d hd' e he' =>
    (List.pairwise_append.1 hlines).2.2 _ (hd.mem d hd') _ (he.mem e he')⟩

/-- The errors of what a block holds. -/
theorem ordered_filterMap {error? : Node → Option Diagnostic} (htext : ∀ s, error? (.text s) = none)
    (hline : ∀ i e, error? (.instruction i) = some e → e.line = i.line) {content : List Node}
    (hlines : (Node.lines content).Pairwise (· ≤ ·)) :
    Ordered (Node.lines content) (content.filterMap error?) := by
  induction content with
  | nil => exact ordered_nil _
  | cons n content ih =>
    cases n with
    | text s =>
      rw [List.filterMap_cons_none (htext s)]
      exact ih hlines
    | instruction i =>
      have hrest := ih (List.pairwise_append.1 hlines).2.1
      cases he : error? (.instruction i) with
      | none =>
        rw [List.filterMap_cons_none he]
        exact (ordered_nil i.lines).append hlines hrest
      | some e =>
        rw [List.filterMap_cons_some he]
        have hfirst : Ordered i.lines [e] := by
          refine ordered_of_line_eq i.line_mem_lines fun d hd => ?_
          rw [List.mem_singleton.1 hd, hline i e he]
        exact hfirst.append hlines hrest

/-! ## What an instruction is told -/

/-- The errors of a rejected instruction, or the warnings of an accepted one. -/
def Verdict.diagnostics : Verdict → List Diagnostic
  | rejected errors => errors
  | accepted _ warnings => warnings

theorem ordered_ofErrors {lines : List Nat} {errors : List Diagnostic} {v : Verdict}
    (herrors : Ordered lines errors) (hv : Ordered lines v.diagnostics) :
    Ordered lines (Verdict.ofErrors errors v).diagnostics := by
  unfold Verdict.ofErrors
  split
  · exact hv
  · exact herrors

theorem ordered_corrected {lines : List Nat} {line : Nat} (hline : line ∈ lines)
    (keyword : Keyword) (change : Change) (corrections : List Correction) :
    Ordered lines (Verdict.corrected keyword line change corrections).diagnostics := by
  refine ordered_of_line_eq hline fun d hd => ?_
  obtain ⟨c, -, rfl⟩ := List.mem_map.1 hd
  rfl

theorem line_of_titleError? (i : Instruction) (e : Diagnostic)
    (h : (Node.instruction i).titleError? = some e) : e.line = i.line := by
  cases h
  rfl

theorem line_of_sectionError? (i : Instruction) (e : Diagnostic)
    (h : (Node.instruction i).sectionError? = some e) : e.line = i.line := by
  cases i with
  | emphasis kind s line =>
    rw [Node.sectionError?] at h
    split at h <;> cases h
    rfl
  | _ =>
    cases h
    rfl

namespace Resolution

variable (settings : Settings)

theorem ordered_signatureErrors {lines : List Nat} {line : Nat} (hline : line ∈ lines)
    (signature : Signature) (keyword : Keyword) (args : Arguments) :
    Ordered lines (signatureErrors signature keyword args line) := by
  refine ordered_of_line_eq hline fun d hd => ?_
  obtain ⟨f, -, rfl⟩ := List.mem_map.1 hd
  rfl

theorem ordered_styleErrors (r : Resolution) (kind : BlockKind) (name : String) (line : Nat) :
    Ordered [line] (r.styleErrors kind name line) := by
  refine ordered_of_line_eq (List.mem_singleton_self line) fun d hd => ?_
  unfold styleErrors at hd
  split at hd
  · cases hd
  · obtain rfl := List.mem_singleton.1 hd
    rfl

theorem ordered_judgeStyle {line : Nat} (r : Resolution) (args : Arguments) :
    Ordered [line] (r.judgeStyle settings args line).diagnostics := by
  have hline := List.mem_singleton_self line
  have hfault : ∀ f : Fault, Ordered [line] [f.diagnostic line] :=
    fun f => ordered_of_line_eq hline (List.forall_mem_singleton.2 rfl)
  unfold judgeStyle
  split
  · exact hfault _
  · split
    · exact hfault _
    · exact ordered_corrected hline _ _ _

theorem ordered_judgePageNumber {line : Nat} (r : Resolution) (args : Arguments) :
    Ordered [line] (r.judgePageNumber settings args line).diagnostics := by
  have hline := List.mem_singleton_self line
  unfold judgePageNumber
  split
  · exact ordered_of_line_eq hline (List.forall_mem_singleton.2 rfl)
  · exact ordered_corrected hline _ _ _

/-- **What an instruction is told** stands on its lines and follows them. -/
theorem ordered_judge (r : Resolution) {i : Instruction} (hlines : i.lines.Pairwise (· ≤ ·)) :
    Ordered i.lines (r.judge settings i).diagnostics := by
  cases i with
  | directive kind args line =>
    have hline := List.mem_singleton_self line
    refine ordered_ofErrors (ordered_signatureErrors hline _ _ _) ?_
    cases kind with
    | style => exact ordered_judgeStyle settings r args
    | pageNumber => exact ordered_judgePageNumber settings r args
    | numberizeTitle => exact ordered_corrected hline _ _ _
  | block kind args content line =>
    have hline : line ∈ (Instruction.block kind args content line).lines := List.mem_cons_self
    have hcontent : (Node.lines content).Pairwise (· ≤ ·) := (List.pairwise_cons.1 hlines).2
    refine ordered_ofErrors (ordered_signatureErrors hline _ _ _) ?_
    cases kind with
    | title =>
      refine ordered_ofErrors ?_ (ordered_corrected hline _ _ _)
      exact (ordered_styleErrors r _ _ line).append hlines
        (ordered_filterMap (fun _ => rfl) line_of_titleError? hcontent)
    | body =>
      refine ordered_ofErrors ?_ (ordered_nil _)
      exact (ordered_styleErrors r _ _ line).append hlines
        (ordered_filterMap (fun _ => rfl) line_of_sectionError? hcontent)
  | emphasis kind text line =>
    exact ordered_of_line_eq (List.mem_singleton_self line) (List.forall_mem_singleton.2 rfl)

/-! ## What a document is told -/

theorem diagnostics_step (r : Resolution) (i : Instruction) :
    (r.step settings i).diagnostics = r.diagnostics.extend (r.judge settings i).diagnostics := by
  rw [step]
  cases r.judge settings i with
  | rejected errors => rfl
  | accepted c warnings => cases c <;> rfl

end Resolution

/-- Errors and warnings are ordered on the lines, each for themselves. -/
structure Diagnostics.Ordered (lines : List Nat) (ds : Diagnostics) : Prop where
  errors : Folio.Ordered lines ds.errors
  warnings : Folio.Ordered lines ds.warnings

theorem Diagnostics.Ordered.extend {as bs : List Nat} {ds : Diagnostics} {more : List Diagnostic}
    (hlines : (as ++ bs).Pairwise (· ≤ ·)) (h : ds.Ordered as) (hmore : Folio.Ordered bs more) :
    (ds.extend more).Ordered (as ++ bs) where
  errors := by
    rw [errors_extend]
    exact h.errors.append hlines (hmore.sublist List.filter_sublist)
  warnings := by
    rw [warnings_extend]
    exact h.warnings.append hlines (hmore.sublist List.filter_sublist)

/-- **A run keeps the order of lines.** -/
theorem Resolution.ordered_foldl_step (settings : Settings) {r : Resolution} {before : List Nat}
    {is : List Instruction} (h : r.diagnostics.Ordered before)
    (hlines : (before ++ is.flatMap Instruction.lines).Pairwise (· ≤ ·)) :
    (is.foldl (step settings) r).diagnostics.Ordered (before ++ is.flatMap Instruction.lines) := by
  induction is generalizing r before with
  | nil => simpa using h
  | cons i is ih =>
    rw [List.flatMap_cons, ← List.append_assoc] at hlines ⊢
    have hfront : (before ++ i.lines).Pairwise (· ≤ ·) := (List.pairwise_append.1 hlines).1
    have hown : i.lines.Pairwise (· ≤ ·) := (List.pairwise_append.1 hfront).2.1
    refine ih ?_ hlines
    rw [diagnostics_step]
    exact h.extend hfront (ordered_judge settings r hown)

/-! ## Merging by line -/

section Merge

variable {α : Type} {le : α → α → Bool}

/-- A least element that is merged with what follows it goes where it would be inserted. -/
theorem exists_merge_cons (trans : ∀ a b c, le a b → le b c → le a c) {x : α} {xs ys : List α}
    (hx : (x :: xs).Pairwise (le · ·)) (hy : ys.Pairwise (le · ·)) :
    ∃ l₁ l₂, (x :: xs).merge ys le = l₁ ++ x :: l₂ ∧ xs.merge ys le = l₁ ++ l₂ ∧
      (∀ b ∈ l₁, le x b = false) ∧ ∀ b ∈ l₂, le x b := by
  obtain ⟨hleast, -⟩ := List.pairwise_cons.1 hx
  induction ys with
  | nil => exact ⟨[], xs, by simp, by simp, List.forall_mem_nil _, hleast⟩
  | cons y ys ih =>
    obtain ⟨hy, hys⟩ := List.pairwise_cons.1 hy
    by_cases hxy : le x y
    · refine ⟨[], xs.merge (y :: ys) le, by simp [hxy], rfl, List.forall_mem_nil _, fun b hb => ?_⟩
      rcases List.mem_merge.1 hb with hb | hb
      · exact hleast b hb
      · rcases List.mem_cons.1 hb with rfl | hb
        · exact hxy
        · exact trans x y b hxy (hy b hb)
    · obtain ⟨l₁, l₂, hwith, hwithout, hl₁, hl₂⟩ := ih hys
      have hfirst : xs.merge (y :: ys) le = y :: xs.merge ys le := by
        cases xs with
        | nil => simp
        | cons x' xs =>
          have hx'y : ¬ le x' y := fun h => hxy (trans x x' y (hleast x' List.mem_cons_self) h)
          simp [hx'y]
      refine ⟨y :: l₁, l₂, by simp [hxy, hwith], by rw [hfirst, hwithout]; rfl, ?_, hl₂⟩
      exact List.forall_mem_cons.2 ⟨by simpa using hxy, hl₁⟩

/-- **Sorting two sorted lists, one behind the other, merges them.** -/
theorem mergeSort_append_of_pairwise (trans : ∀ a b c, le a b → le b c → le a c)
    (total : ∀ a b, le a b || le b a) {xs ys : List α} (hx : xs.Pairwise (le · ·))
    (hy : ys.Pairwise (le · ·)) : (xs ++ ys).mergeSort le = xs.merge ys le := by
  induction xs with
  | nil => simpa using List.mergeSort_of_pairwise hy
  | cons x xs ih =>
    -- Both sides put `x` into the same list, behind what comes before it and in front of the rest.
    obtain ⟨l₁, l₂, hsort, hrest, hl₁⟩ := List.mergeSort_cons trans total x (xs ++ ys)
    obtain ⟨m₁, m₂, hmerge, hrest', hm₁, hm₂⟩ := exists_merge_cons trans hx hy
    have hl₂ : ∀ b ∈ l₂, le x b := by
      have hsorted := List.pairwise_mergeSort trans total (x :: (xs ++ ys))
      rw [hsort] at hsorted
      exact (List.pairwise_cons.1 (List.pairwise_append.1 hsorted).2.1).1
    have hsame : l₁ ++ l₂ = m₁ ++ m₂ := by rw [← hrest, ih hx.tail, hrest']
    have hfilter : ∀ as bs : List α, (∀ b ∈ as, le x b = false) → (∀ b ∈ bs, le x b) →
        (as ++ bs).filter (le x) = bs := by
      intro as bs has hbs
      rw [List.filter_append, List.filter_eq_nil_iff.2 (by simpa using has),
        List.filter_eq_self.2 hbs, List.nil_append]
    obtain rfl : l₂ = m₂ := by
      rw [← hfilter l₁ l₂ (by simpa using hl₁) hl₂, hsame, hfilter m₁ m₂ hm₁ hm₂]
    rw [List.cons_append, hsort, hmerge, List.append_cancel_right hsame]

end Merge

/-- Errors and warnings that are in order each are merged by line, the errors first. -/
theorem Diagnostics.inSourceOrder_eq_merge {ds : Diagnostics} {lines : List Nat}
    (h : ds.Ordered lines) :
    ds.inSourceOrder = ds.errors.merge ds.warnings fun d e => d.line ≤ e.line := by
  have herrors : ds.errors.Pairwise fun d e => decide (d.line ≤ e.line) := by
    simpa using h.errors.sorted
  have hwarnings : ds.warnings.Pairwise fun d e => decide (d.line ≤ e.line) := by
    simpa using h.warnings.sorted
  exact mergeSort_append_of_pairwise line_le_trans line_le_total herrors hwarnings

/-! ## The diagnostics of a source -/

/-- **Diagnostics come in source order.** The lines of the errors of a source do not decrease, nor
do those of its warnings, and each is the line of a keyword. So in source order the two lists are
merged by line: each keeps its order, and on a line the errors come first. -/
theorem diagnostics_in_source_order {settings : Settings} {source : String} {c : Compilation}
    (h : Compilation.ofSource settings source = .ok c) :
    let ds := c.model.diagnostics
    let merged := ds.errors.merge ds.warnings fun d e => d.line ≤ e.line
    ds.errors.Pairwise (fun d e => d.line ≤ e.line) ∧
      ds.warnings.Pairwise (fun d e => d.line ≤ e.line) ∧
      (∀ d ∈ ds.all, ∃ t ∈ (Scan.ofSource source).tokens,
        (∃ k, t.kind = .keyword k) ∧ t.line = d.line) ∧
      ds.inSourceOrder = merged ∧
      c.report = String.join ((c.scan.illegal.map (·.reportLine) ++ merged.map (·.display)).map
        (· ++ "\n")) := by
  obtain ⟨is, hread, rfl⟩ := Compilation.ofSource_eq_ok_iff.1 h
  have hlines := pairwise_keywordLines source
  rw [← lines_of_read hread] at hlines
  have hstart : (Resolution.start settings).diagnostics.Ordered [] :=
    ⟨ordered_nil [], ordered_nil []⟩
  have hds : (Model.ofInstructions settings is).diagnostics.Ordered
      (is.flatMap Instruction.lines) := Resolution.ordered_foldl_step settings hstart hlines
  have hmerged := Diagnostics.inSourceOrder_eq_merge hds
  refine ⟨hds.errors.sorted, hds.warnings.sorted, fun d hd => ?_, hmerged, ?_⟩
  · have hline : d.line ∈ keywordLines (Scan.ofSource source).tokens := by
      rw [← lines_of_read hread]
      rcases List.mem_append.1 hd with hd | hd
      · exact hds.errors.mem d hd
      · exact hds.warnings.mem d hd
    exact exists_keyword_of_mem_keywordLines hline
  · rw [Compilation.report, report, reportLines, hmerged]

/-- On one line a title has its level corrected and a section has no such style. -/
theorem diagnostics_in_source_order_one_line :
    let source := "$title(#level=9)\x7bA\x7d $section(#style=\"x\")\x7bB\x7d"
    ∃ c, Compilation.ofSource .standard source = .ok c ∧
      let ds := c.model.diagnostics
      let merged := ds.errors.merge ds.warnings fun d e => d.line ≤ e.line
      ds.errors.Pairwise (fun d e => d.line ≤ e.line) ∧
        ds.warnings.Pairwise (fun d e => d.line ≤ e.line) ∧
        (∀ d ∈ ds.all, ∃ t ∈ (Scan.ofSource source).tokens,
          (∃ k, t.kind = .keyword k) ∧ t.line = d.line) ∧
        ds.inSourceOrder = merged ∧
        c.report = String.join ((c.scan.illegal.map (·.reportLine) ++ merged.map (·.display)).map
          (· ++ "\n")) := by
  intro source
  have hok : (Compilation.ofSource .standard source).isOk := by decide +kernel
  cases hc : Compilation.ofSource .standard source with
  | error e =>
    rw [hc] at hok
    cases hok
  | ok c => exact ⟨c, rfl, diagnostics_in_source_order hc⟩

end Folio
