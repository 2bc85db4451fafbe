import Folio.Proofs.Canonical
import Folio.Proofs.Faults

/-!
# Compiled models are printable

What tokens hold goes into the leaves of a derivation, from there into the changes that its
instructions make, and so into the model.

**Changes** (`printable_of_accepts`, `apart_of_accepts`). Whatever change an instruction is accepted
with is printable if its leaves are clean, and its runs are apart if its text leaves are.

**Runs** (`madeOf_foldl_step`). A state holds the styles it began with and what changes put there,
so a property of all changes is a property of the state.

**Theorems.** A compiled model is printable (`printable_of_ofSource`), and the runs of its sections
are apart if its source has no illegal characters (`apart_of_ofSource`).
-/

namespace Folio

variable {settings : Settings}

/-! ## Arguments -/

/-- All of a written argument is in the list. -/
theorem argumentKinds_subset_listKinds {ws : Written} {w : String × Literal} (h : w ∈ ws) :
    argumentKinds w ⊆ listKinds ws := by
  intro k hk
  cases ws with
  | nil => cases h
  | cons v vs =>
    simp only [listKinds, separatedKinds, List.mem_cons, List.mem_append, List.mem_flatMap]
    rcases List.mem_cons.1 h with rfl | h
    · exact .inl (.inr (.inl hk))
    · exact .inl (.inr (.inr ⟨w, h, .inr hk⟩))

theorem kind_mem_listKinds {ws : Written} {w : String × Literal} (h : w ∈ ws) :
    w.2.kind ∈ listKinds ws :=
  argumentKinds_subset_listKinds h (by simp [argumentKinds])

namespace Arguments

variable {ws : Written} {name fallback : String}

theorem get?_of_text? {args : Arguments} {s : String} (h : args.text? name = some s) :
    args.get? name = some (.text s) := by
  unfold text? at h
  split at h
  · next hget =>
    cases h
    exact hget
  · cases h

theorem unquoted_of_text? (hws : ∀ k ∈ listKinds ws, k.Clean) {s : String}
    (h : (ofList ws).text? name = some s) : Unquoted s := by
  have hget := get?_of_text? h
  rw [get?_ofList] at hget
  exact hws _ (kind_mem_listKinds (List.mem_reverse.1 (mem_of_lookup_eq_some hget)))

theorem unquoted_font (hws : ∀ k ∈ listKinds ws, k.Clean) (hf : Unquoted fallback) :
    Unquoted ((ofList ws).font settings name fallback).value := by
  rcases (ofList ws).font_value name fallback with h | ⟨h, -⟩
  · exact h.symm ▸ hf
  · exact unquoted_of_text? hws h

theorem unquoted_color (hws : ∀ k ∈ listKinds ws, k.Clean) (hf : Unquoted fallback) :
    Unquoted ((ofList ws).color settings name fallback).value := by
  rcases (ofList ws).color_value name fallback with h | ⟨h, -⟩
  · exact h.symm ▸ hf
  · exact unquoted_of_text? hws h

theorem unquoted_blockStyle (hs : settings.Printable) (hws : ∀ k ∈ listKinds ws, k.Clean)
    (kind : BlockKind) : Unquoted ((ofList ws).blockStyle settings kind) := by
  unfold blockStyle
  cases h : (ofList ws).text? "style" with
  | some s => exact unquoted_of_text? hws h
  | none =>
    cases kind with
    | title => exact (hs.styles settings.styles.title.style (by simp [Settings.builtinStyles])).1
    | body => exact (hs.styles settings.styles.body.style (by simp [Settings.builtinStyles])).1

end Arguments

/-! ## Content -/

namespace Branch

def node : Branch → Node
  | text s => .text s
  | tree t => .instruction t.instruction

def isText : Branch → Bool
  | text _ => true
  | tree _ => false

def run? (b : Branch) : Option Run := b.node.run?

theorem nodes_eq_map (content : List Branch) : nodes content = content.map node := by
  induction content with
  | nil => rfl
  | cons b content ih => cases b <;> simp [nodes, node, ih]

theorem leaves_cons (b : Branch) (content : List Branch) :
    leaves (b :: content) = leaves [b] ++ leaves content := by
  rw [← leaves_append, List.singleton_append]

theorem clean_of_mem {content : List Branch} (h : ∀ l ∈ leaves content, l.kind.Clean)
    {b : Branch} (hb : b ∈ content) : ∀ l ∈ leaves [b], l.kind.Clean := by
  obtain ⟨as, bs, rfl⟩ := List.append_of_mem hb
  intro l hl
  refine h l ?_
  rw [leaves_append, leaves_cons]
  exact List.mem_append_right _ (List.mem_append_left _ hl)

theorem isPlain_of_text? {b : Branch} (hb : ∀ l ∈ leaves [b], l.kind.Clean) {s : String}
    (h : b.node.text? = some s) : IsPlain s := by
  cases b with
  | text s' =>
    cases h
    exact hb (.plain (.text s)) (by simp [leaves])
  | tree t => cases h

/-- What a section may hold is a run. -/
theorem run?_of_sectionError? {b : Branch} (hb : ∀ l ∈ leaves [b], l.kind.Clean)
    (h : b.node.sectionError? = none) :
    ∃ run, b.run? = some run ∧ IsPlain run.text ∧ (run.emphasis = none → b.isText) := by
  cases b with
  | text s => exact ⟨_, rfl, hb (.plain (.text s)) (by simp [leaves]), fun _ => rfl⟩
  | tree t =>
    cases t with
    | directive kind ws line => simp [node, Tree.instruction, Node.sectionError?] at h
    | block kind ws content line => simp [node, Tree.instruction, Node.sectionError?] at h
    | emphasis kind text line =>
      cases text with
      | none => simp [node, Tree.instruction, Node.sectionError?] at h
      | some s =>
        refine ⟨⟨some kind, s⟩, by simp [run?, node, Tree.instruction, Node.run?], ?_, by simp⟩
        exact hb (.plain (.text s)) (by simp [leaves, Tree.leaves, emphasisKinds])

/-- Text leaves apart are texts apart. -/
theorem apart_of_leaves {content : List Branch}
    (h : ((leaves content).map (·.kind)).IsChain fun j k => ¬ (j.isText ∧ k.isText)) :
    content.IsChain fun a b => ¬ (a.isText ∧ b.isText) := by
  induction content with
  | nil => exact .nil
  | cons b content ih =>
    have htail : content.IsChain fun a b => ¬ (a.isText ∧ b.isText) := by
      rw [leaves_cons, List.map_append] at h
      exact ih h.right_of_append
    refine List.isChain_cons.2 ⟨fun d hd => ?_, htail⟩
    rintro ⟨hb, hd'⟩
    obtain ⟨ds, rfl⟩ := List.head?_eq_some_iff.1 hd
    cases b with
    | tree t => cases hb
    | text s =>
      cases d with
      | tree t => cases hd'
      | text s' =>
        simp only [leaves, List.map_cons] at h
        exact (List.isChain_cons_cons.1 h).1 ⟨rfl, rfl⟩

theorem apart_runs {content : List Branch}
    (hb : ∀ b ∈ content, ∀ l ∈ leaves [b], l.kind.Clean)
    (herror : ∀ b ∈ content, b.node.sectionError? = none)
    (h : content.IsChain fun a b => ¬ (a.isText ∧ b.isText)) :
    (content.filterMap run?).IsChain Run.Apart := by
  induction content with
  | nil => exact .nil
  | cons b content ih =>
    obtain ⟨hb, hcontent⟩ := List.forall_mem_cons.1 hb
    obtain ⟨hbe, herror⟩ := List.forall_mem_cons.1 herror
    obtain ⟨hhead, htail⟩ := List.isChain_cons.1 h
    obtain ⟨run, hrun, -, htext⟩ := run?_of_sectionError? hb hbe
    rw [List.filterMap_cons_some hrun]
    refine List.isChain_cons.2 ⟨?_, ih hcontent herror htail⟩
    cases content with
    | nil => rintro t ⟨⟩
    | cons d content =>
      obtain ⟨next, hnext, -, htext'⟩ :=
        run?_of_sectionError? (hcontent d List.mem_cons_self) (herror d List.mem_cons_self)
      rw [List.filterMap_cons_some hnext]
      rintro t ⟨⟩ ⟨hplain, hplain'⟩
      exact hhead d rfl ⟨htext hplain, htext' hplain'⟩

end Branch

/-! ## Changes -/

namespace Tree

theorem clean_listKinds {kind : DirectiveKind} {ws : Written} {line : Nat}
    (h : ∀ l ∈ (directive kind ws line).leaves, l.kind.Clean) : ∀ k ∈ listKinds ws, k.Clean :=
  fun k hk => h (.plain k) (List.mem_cons_of_mem _ (List.mem_map_of_mem hk))

theorem clean_block {kind : BlockKind} {ws : Written} {content : List Branch} {line : Nat}
    (h : ∀ l ∈ (block kind ws content line).leaves, l.kind.Clean) :
    (∀ k ∈ listKinds ws, k.Clean) ∧ ∀ l ∈ Branch.leaves content, l.kind.Clean :=
  ⟨fun k hk => h (.plain k)
      (List.mem_append_left _ (List.mem_cons_of_mem _ (List.mem_map_of_mem hk))),
    fun l hl => h l (List.mem_append_right _ (List.mem_cons_of_mem _ (List.mem_append_left _ hl)))⟩

end Tree

namespace Resolution

variable {r : Resolution} {t : Tree} {c : Change} {corrections : List Correction}

theorem plain_of_accepts (ht : ∀ l ∈ t.leaves, l.kind.Clean)
    (ha : Accepts settings r t.instruction c corrections) : c.Plain := by
  cases t with
  | directive kind ws line =>
    rw [Tree.instruction] at ha
    cases ha <;> trivial
  | block kind ws content line =>
    obtain ⟨-, hcontent⟩ := Tree.clean_block ht
    rw [Tree.instruction, Branch.nodes_eq_map] at ha
    cases ha with
    | title hsigned hhas herror =>
      refine isPlain_join fun s hmem => ?_
      obtain ⟨n, hn, hs'⟩ := List.mem_filterMap.1 hmem
      obtain ⟨b, hb, rfl⟩ := List.mem_map.1 hn
      exact Branch.isPlain_of_text? (Branch.clean_of_mem hcontent hb) hs'
    | body hsigned hhas herror =>
      intro run hmem
      obtain ⟨n, hn, hrun⟩ := List.mem_filterMap.1 hmem
      obtain ⟨b, hb, rfl⟩ := List.mem_map.1 hn
      obtain ⟨run', hrun', hplain, -⟩ :=
        Branch.run?_of_sectionError? (Branch.clean_of_mem hcontent hb) (herror _ hn)
      obtain rfl : run' = run := Option.some.inj (hrun'.symm.trans hrun)
      exact hplain
  | emphasis kind text line =>
    rw [Tree.instruction] at ha
    cases ha

theorem printable_of_accepts (hs : settings.Printable) (ht : ∀ l ∈ t.leaves, l.kind.Clean)
    (ha : Accepts settings r t.instruction c corrections) : c.Printable := by
  have hplain := plain_of_accepts ht ha
  cases t with
  | directive kind ws line =>
    have hws := Tree.clean_listKinds ht
    rw [Tree.instruction] at ha
    cases ha with
    | style hsigned hname hnew =>
      have hbase := hs.styles settings.styles.body.style (by simp [Settings.builtinStyles])
      exact ⟨Arguments.unquoted_of_text? hws hname, Arguments.unquoted_font hws hbase.2.1,
        Arguments.unquoted_color hws hbase.2.2⟩
    | pageNumber hsigned hnone =>
      exact ⟨Arguments.unquoted_font hws hs.pageNumber.1,
        Arguments.unquoted_color hws hs.pageNumber.2⟩
    | numberizeTitle hsigned => trivial
  | block kind ws content line =>
    have hstyle := Arguments.unquoted_blockStyle hs (Tree.clean_block ht).1 kind
    rw [Tree.instruction] at ha
    cases ha with
    | title => exact ⟨hstyle, hplain⟩
    | body => exact ⟨hstyle, hplain⟩
  | emphasis kind text line =>
    rw [Tree.instruction] at ha
    cases ha

theorem apart_of_accepts (ht : ∀ l ∈ t.leaves, l.kind.Clean)
    (hapart : (t.leaves.map (·.kind)).IsChain fun j k => ¬ (j.isText ∧ k.isText))
    (ha : Accepts settings r t.instruction c corrections) : c.Apart := by
  cases ha' : t with
  | directive kind ws line =>
    rw [ha', Tree.instruction] at ha
    cases ha <;> trivial
  | emphasis kind text line =>
    rw [ha', Tree.instruction] at ha
    cases ha
  | block kind ws content line =>
    subst ha'
    obtain ⟨-, hcontent⟩ := Tree.clean_block ht
    rw [Tree.instruction, Branch.nodes_eq_map] at ha
    cases ha with
    | title hsigned hhas herror => trivial
    | body hsigned hhas herror =>
      have hleaves : ((Branch.leaves content).map (·.kind)).IsChain
          fun j k => ¬ (j.isText ∧ k.isText) := by
        rw [Tree.leaves, List.map_append] at hapart
        have hbraced := hapart.right_of_append
        rw [List.map_cons, List.map_append] at hbraced
        exact hbraced.tail.left_of_append
      show ((content.map Branch.node).filterMap Node.run?).IsChain Run.Apart
      rw [List.filterMap_map]
      exact Branch.apart_runs (fun b hb => Branch.clean_of_mem hcontent hb)
        (fun b hb => herror _ (List.mem_map_of_mem hb)) (Branch.apart_of_leaves hleaves)

/-! ## Runs -/

/-- All that was added to the state has a property. -/
structure MadeOf (P : Change → Prop) (r : Resolution) : Prop where
  styles : ∀ s ∈ r.styles, s.builtin = false → P (.style s)
  pageNumber : ∀ n, r.pageNumber = some n → P (.pageNumber n)
  content : ∀ i ∈ r.content, P (.item i)

theorem madeOf_start {P : Change → Prop} (settings : Settings) : (start settings).MadeOf P where
  styles := by
    rintro s (_ | ⟨_, _ | ⟨_, ⟨⟩⟩⟩) <;> rintro ⟨⟩
  pageNumber := by rintro n ⟨⟩
  content := List.forall_mem_nil _

theorem madeOf_change {P : Change → Prop} (hr : r.MadeOf P) (hc : P c) :
    (r.change c).MadeOf P := by
  cases c with
  | style s =>
    refine { hr with styles := fun t ht => ?_ }
    rcases List.mem_append.1 ht with ht | ht
    · exact hr.styles t ht
    · rw [List.mem_singleton.1 ht]
      exact fun _ => hc
  | pageNumber n =>
    refine { hr with pageNumber := ?_ }
    rintro m ⟨⟩
    exact hc
  | numberingStart level => exact { hr with }
  | item i =>
    refine { hr with content := fun j hj => ?_ }
    rcases List.mem_append.1 hj with hj | hj
    · exact hr.content j hj
    · rwa [List.mem_singleton.1 hj]

/-- A property of every change that could be accepted is one of the state. -/
theorem madeOf_foldl_step {P : Change → Prop} {is : List Instruction}
    (h : ∀ i ∈ is, ∀ r c corrections, Accepts settings r i c corrections → P c)
    (hr : r.MadeOf P) : (is.foldl (step settings) r).MadeOf P := by
  induction is generalizing r with
  | nil => exact hr
  | cons i is ih =>
    obtain ⟨hi, his⟩ := List.forall_mem_cons.1 h
    refine ih his ?_
    cases hj : r.judge settings i with
    | rejected errors =>
      rw [step_of_rejected hj]
      exact { hr with }
    | accepted c warnings =>
      obtain ⟨corrections, ha, -⟩ := judge_eq_accepted_iff.1 hj
      have hc := madeOf_change hr (hi r c corrections ha)
      rw [step_of_accepted hj]
      exact { hc with }

end Resolution

/-! ## Models -/

theorem Compilation.ofSource_eq_ok_iff {source : String} {c : Compilation} :
    ofSource settings source = .ok c ↔
      ∃ is, Instruction.read (Scan.ofSource source).tokens = .ok is ∧
        c = ⟨Scan.ofSource source, is, .ofInstructions settings is⟩ := by
  unfold ofSource
  cases h : Instruction.read (Scan.ofSource source).tokens with
  | error cause => simp [h]
  | ok is => simpa [h] using eq_comm

/-- What a source is compiled from: derivations with clean leaves. -/
theorem Compilation.exists_trees {source : String} {c : Compilation}
    (hc : ofSource settings source = .ok c) :
    ∃ trees : List Tree, Derives trees (Scan.ofSource source).tokens ∧
      c.scan = Scan.ofSource source ∧
      c.model = .ofInstructions settings (trees.map Tree.instruction) ∧
      ∀ t ∈ trees, ∀ l ∈ t.leaves, l.kind.Clean := by
  obtain ⟨is, hread, rfl⟩ := ofSource_eq_ok_iff.1 hc
  obtain ⟨trees, hderives, rfl⟩ := read_eq_ok_iff.1 hread
  refine ⟨trees, hderives, rfl, rfl, fun t ht l hl => ?_⟩
  have hmem : l ∈ (Scan.ofSource source).tokens.map Token.leaf := by
    rw [hderives.2]
    exact List.mem_flatMap.2 ⟨t, ht, hl⟩
  obtain ⟨tok, htok, rfl⟩ := List.mem_map.1 hmem
  rw [tok.kind_leaf]
  exact clean_tokens source tok htok

/-- **Compiled models are printable.** -/
theorem printable_of_ofSource (hs : settings.Printable) {source : String} {c : Compilation}
    (hc : Compilation.ofSource settings source = .ok c) : c.model.Printable := by
  obtain ⟨trees, -, -, hmodel, hclean⟩ := Compilation.exists_trees hc
  have hmade : (Resolution.MadeOf Change.Printable
      ((trees.map Tree.instruction).foldl (Resolution.step settings) (.start settings))) := by
    refine Resolution.madeOf_foldl_step (fun i hi r c corrections ha => ?_)
      (Resolution.madeOf_start settings)
    obtain ⟨t, ht, rfl⟩ := List.mem_map.1 hi
    exact Resolution.printable_of_accepts hs (hclean t ht) ha
  rw [hmodel]
  refine ⟨fun s hmem => ?_, ?_, ?_⟩
  · obtain ⟨hs', hdeclared⟩ := List.mem_filter.1 hmem
    exact hmade.styles s hs' (by simpa using hdeclared)
  · exact Resolution.pageNumber_finish hs.pageNumber hmade.pageNumber
  · exact Resolution.forall_content_finish (fun _ _ _ ht => printable_numberTitle ht) hmade.content

/-- The texts of a compiled model are free text, whatever the settings fall back to. -/
theorem plain_of_ofSource {source : String} {c : Compilation}
    (hc : Compilation.ofSource settings source = .ok c) : ∀ i ∈ c.model.content, i.Plain := by
  obtain ⟨trees, -, -, hmodel, hclean⟩ := Compilation.exists_trees hc
  have hmade : (Resolution.MadeOf Change.Plain
      ((trees.map Tree.instruction).foldl (Resolution.step settings) (.start settings))) := by
    refine Resolution.madeOf_foldl_step (fun i hi r c corrections ha => ?_)
      (Resolution.madeOf_start settings)
    obtain ⟨t, ht, rfl⟩ := List.mem_map.1 hi
    exact Resolution.plain_of_accepts (hclean t ht) ha
  rw [hmodel]
  exact Resolution.forall_content_finish (fun _ _ _ ht => plain_numberTitle ht) hmade.content

/-- **Runs are apart** in what is compiled from a source without illegal characters. -/
theorem apart_of_ofSource {source : String} {c : Compilation}
    (hc : Compilation.ofSource settings source = .ok c) (hlegal : c.scan.illegal = []) :
    ∀ i ∈ c.model.content, i.Apart := by
  obtain ⟨trees, ⟨-, hleaves⟩, hscan, hmodel, hclean⟩ := Compilation.exists_trees hc
  have hchain : ((trees.flatMap Tree.leaves).map (·.kind)).IsChain
      fun j k => ¬ (j.isText ∧ k.isText) := by
    rw [← hleaves, Token.kinds_leaves]
    exact texts_apart (hscan ▸ hlegal)
  have hmade : (Resolution.MadeOf Change.Apart
      ((trees.map Tree.instruction).foldl (Resolution.step settings) (.start settings))) := by
    refine Resolution.madeOf_foldl_step (fun i hi r c corrections ha => ?_)
      (Resolution.madeOf_start settings)
    obtain ⟨t, ht, rfl⟩ := List.mem_map.1 hi
    refine Resolution.apart_of_accepts (hclean t ht) ?_ ha
    obtain ⟨as, bs, rfl⟩ := List.append_of_mem ht
    rw [List.flatMap_append, List.flatMap_cons, List.map_append, List.map_append] at hchain
    exact hchain.right_of_append.left_of_append
  rw [hmodel]
  exact Resolution.forall_content_finish (fun _ _ _ ht => ht) hmade.content

end Folio
