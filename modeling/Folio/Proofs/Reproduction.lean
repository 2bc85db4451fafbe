import Folio.Proofs.Misprint
import Folio.Proofs.Roundtrip

/-!
# When the canonical document reproduces its model

**Theorem (`reproduces_iff`).** The canonical document of a compiled model compiles to the same
styles, page numbers and items, without a complaint, just if

- no text that it puts between quotes has a quote itself, and
- no two plain runs follow each other in a section.

Sources give neither, but settings may give quotes, and a character that is passed over may stand
between two plain runs. If there is no such thing, the model is reproduced (`reproduces_of_clean`).

If the canonical document has a line with a quote too many, take the first. The lines in front of it
are read as they should be, and of the line itself the arguments up to the one with the quote, whose
text ends too early. However the rest is read, that argument is there, its text has no quote, and so
it is not the text that was printed (`printable_of_reproduction`).
-/

namespace Folio

variable {settings : Settings}

instance decidableExistsOk {ε α : Type} {e : Except ε α} {P : α → Prop} [DecidablePred P] :
    Decidable (∃ a, e = .ok a ∧ P a) :=
  match e with
  | .error _ => .isFalse (by rintro ⟨_, ⟨⟩, -⟩)
  | .ok a => decidable_of_iff (P a) (by simp)

/-- The canonical document compiles to what it was printed from, without a complaint. -/
def Reproduces (settings : Settings) (m : Model) : Prop :=
  ∃ c, Compilation.ofSource settings m.echo = .ok c ∧ c.model.styles = m.styles ∧
    c.model.pageNumber = m.pageNumber ∧ c.model.content = m.content ∧
      c.model.diagnostics = .empty

instance (settings : Settings) (m : Model) : Decidable (Reproduces settings m) :=
  inferInstanceAs (Decidable (∃ c, Compilation.ofSource settings m.echo = .ok c ∧
    c.model.styles = m.styles ∧ c.model.pageNumber = m.pageNumber ∧
      c.model.content = m.content ∧ c.model.diagnostics = .empty))

/-! ## The lines of a canonical document -/

namespace Model

variable {m : Model}

/-- Each line with the tree that it is printed from. -/
def printed (m : Model) : List (String × Tree) :=
  m.declaredStyles.map (fun s => (s.echo, s.tree)) ++
    (m.pageNumber.echo, m.pageNumber.tree) :: m.content.map fun i => (i.echo, i.tree)

theorem map_fst_printed (m : Model) : m.printed.map (·.1) = m.echoLines := by
  simp [printed, echoLines, Function.comp_def]

theorem map_snd_printed (m : Model) : m.printed.map (·.2) = m.trees := by
  simp [printed, trees, Function.comp_def]

theorem forall_mem_printed {P : String × Tree → Prop} :
    (∀ e ∈ m.printed, P e) ↔ (∀ s ∈ m.declaredStyles, P (s.echo, s.tree)) ∧
      P (m.pageNumber.echo, m.pageNumber.tree) ∧ ∀ i ∈ m.content, P (i.echo, i.tree) := by
  simp only [printed, List.forall_mem_append, List.forall_mem_cons, List.forall_mem_map]

theorem spells_printed (m : Model) : ∀ e ∈ m.printed, Spells e.1 e.2 :=
  forall_mem_printed.2 ⟨fun s _ => spells_style s, spells_pageNumber _, fun i _ => spells_item i⟩

end Model

theorem Style.printable_of_not_quotes {s : Style} (h : ¬ s.tree.Quotes) : s.Printable := by
  have hw : ∀ w ∈ s.written, ¬ Quoted w := fun w hw hq => h ⟨w, hw, hq⟩
  simp only [Style.written, List.forall_mem_cons] at hw
  exact ⟨unquoted_of_not_quoted hw.1, unquoted_of_not_quoted hw.2.1,
    unquoted_of_not_quoted hw.2.2.2.1⟩

theorem PageNumber.printable_of_not_quotes {n : PageNumber} (h : ¬ n.tree.Quotes) :
    n.Printable := by
  have hw : ∀ w ∈ n.written, ¬ Quoted w := fun w hw hq => h ⟨w, hw, hq⟩
  simp only [PageNumber.written, List.forall_mem_cons] at hw
  exact ⟨unquoted_of_not_quoted hw.2.1, unquoted_of_not_quoted hw.2.2.2.1⟩

theorem Item.printable_of_not_quotes {i : Item} (hplain : i.Plain) (h : ¬ i.tree.Quotes) :
    i.Printable := by
  cases i with
  | title t =>
    have hw : ∀ w ∈ t.written, ¬ Quoted w := fun w hw hq => h ⟨w, hw, hq⟩
    simp only [Title.written, List.forall_mem_cons] at hw
    exact ⟨unquoted_of_not_quoted hw.1, hplain⟩
  | body s =>
    have hw : ∀ w ∈ s.written, ¬ Quoted w := fun w hw hq => h ⟨w, hw, hq⟩
    simp only [Section.written, List.forall_mem_singleton] at hw
    exact ⟨unquoted_of_not_quoted hw, hplain⟩

namespace Model

variable {m : Model}

/-- A line without a quote too many is printed as it should be. -/
theorem prints_printed (hplain : ∀ i ∈ m.content, i.Plain) (hapart : ∀ i ∈ m.content, i.Apart) :
    ∀ e ∈ m.printed, ¬ e.2.Quotes → Prints e.1 e.2 :=
  forall_mem_printed.2
    ⟨fun _ _ h => prints_style (Style.printable_of_not_quotes h),
      fun h => prints_pageNumber (PageNumber.printable_of_not_quotes h),
      fun i hi h => prints_item (Item.printable_of_not_quotes (hplain i hi) h) (hapart i hi)⟩

theorem printable_of_not_quotes (hplain : ∀ i ∈ m.content, i.Plain)
    (h : ∀ e ∈ m.printed, ¬ e.2.Quotes) : m.Printable := by
  obtain ⟨hstyles, hpage, hcontent⟩ := forall_mem_printed.1 h
  exact ⟨fun s hs => Style.printable_of_not_quotes (hstyles s hs),
    PageNumber.printable_of_not_quotes hpage,
    fun i hi => Item.printable_of_not_quotes (hplain i hi) (hcontent i hi)⟩

end Model

/-! ## What is read of them -/

/-- The lines in front of one with a quote too many, and that line up to the quote. -/
theorem kinds_echo {m : Model} {good rest : List (String × Tree)} {l : String} {t : Tree}
    (hsplit : m.printed = good ++ (l, t) :: rest) (hgood : ∀ e ∈ good, Prints e.1 e.2)
    (hquotes : t.Quotes) :
    ∃ w ∈ t.written, Quoted w ∧ ∃ ws s ks, (Scan.ofSource m.echo).tokens.map (·.kind) =
      (good.map (·.2)).flatMap Tree.kinds ++ (begunKinds t.keyword ws (w.1, .text s) ++ ks) := by
  have hspells : Spells l t := m.spells_printed (l, t) (by simp [hsplit])
  obtain ⟨w, hw, hquoted, ws, s, hbegun⟩ := exists_begun hspells hquotes
  have hlines : m.echo.toList = ((good.map (·.1)).flatMap fun l => l.toList ++ ['\n']) ++
      (l.toList ++ ('\n' :: (rest.map (·.1)).flatMap fun l => l.toList ++ ['\n'])) := by
    rw [m.toList_echo, ← m.map_fst_printed, hsplit]
    simp
  have hleads := leadsTo_of_leaves
    (l.toList ++ ('\n' :: (rest.map (·.1)).flatMap fun l => l.toList ++ ['\n'])) (good.map (·.2))
  rw [List.map_flatMap] at hleads
  have hfront := kindsOf_items_append (scans_lines (forall₂_prints hgood)) hleads .start
  obtain ⟨ks, hks⟩ := hbegun _ _
  rw [hks, ← hlines] at hfront
  exact ⟨w, hw, hquoted, ws, s, ks, hfront⟩

/-- Tokens that begin with trees are read as these and more. -/
theorem read_behind_trees {ts : List Token} {front : List Tree} {ks : List Kind}
    {is : List Instruction}
    (hkinds : ts.map (·.kind) = front.flatMap Tree.kinds ++ ks)
    (hr : Instruction.read ts = .ok is) :
    ∃ trees : List Tree, trees.flatMap Tree.kinds = ks ∧
      ((front ++ trees).map Tree.instruction).map (Instruction.mapLine fun _ => 0) =
        is.map (Instruction.mapLine fun _ => 0) := by
  let us := ks.map fun kind => (Leaf.plain kind).token
  have hus : us.map (·.kind) = ks := List.map_map.trans (List.map_id ks)
  have hsame : ts.map (·.kind) = (treeTokens front ++ us).map (·.kind) := by
    rw [hkinds, List.map_append, hus, ← Token.kinds_leaves, map_leaf_treeTokens,
      List.map_flatMap]
    rfl
  obtain ⟨js, hjs, hlines⟩ := read_of_kinds_eq hsame hr
  obtain ⟨all, ⟨-, hleaves⟩, rfl⟩ := read_eq_ok_iff.1 hjs
  rw [List.map_append, map_leaf_treeTokens] at hleaves
  obtain ⟨trees, rfl, htrees⟩ := trees_prefix hleaves
  refine ⟨trees, ?_, hlines⟩
  rw [← hus, ← Token.kinds_leaves, htrees, List.map_flatMap]
  rfl

/-- No argument that is read from a source has a quote. -/
theorem clean_written {source : String} {t : Tree}
    (h : t.kinds ⊆ (Scan.ofSource source).tokens.map (·.kind)) :
    ∀ k ∈ listKinds t.written, k.Clean := by
  obtain ⟨tail, htail⟩ := t.exists_kinds
  intro k hk
  have hmem : k ∈ t.kinds := by
    rw [htail]
    exact List.mem_cons_of_mem _ (List.mem_append_left _ hk)
  obtain ⟨tok, htok, rfl⟩ := List.mem_map.1 (h hmem)
  exact clean_tokens source tok htok

/-- Every written name has a value, and a clean list gives it no quote. -/
theorem exists_get?_of_clean {ws : Written} {name : String} (hname : name ∈ ws.map (·.1))
    (hclean : ∀ k ∈ listKinds ws, k.Clean) :
    ∃ v, (Arguments.ofList ws).get? name = some v ∧ ¬ Quoted (name, v) := by
  obtain ⟨v, hv⟩ : ∃ v, ws.reverse.lookup name = some v := by
    obtain ⟨w, hw, rfl⟩ := List.mem_map.1 hname
    rw [← Option.isSome_iff_exists, List.lookup_isSome_iff]
    exact ⟨w, List.mem_reverse.2 hw, beq_self_eq_true _⟩
  rw [← Arguments.get?_ofList] at hv
  refine ⟨v, hv, ?_⟩
  rintro ⟨s, rfl, hs⟩
  have htext : (Arguments.ofList ws).text? name = some s := by rw [Arguments.text?, hv]
  exact hs (Arguments.unquoted_of_text? hclean htext)

theorem Item.style_merged (i : Item) : i.merged.style = i.style := by
  cases i <;> rfl

/-- **A quote too many is noticed.** A valid model whose canonical document gives the same styles,
page numbers and styles of items, without a complaint, has no quote. -/
theorem printable_of_reproduction (hs : settings.Sound) {m : Model} (hm : m.Valid settings)
    (hn : m.numberingStart = none) (hd : m.diagnostics = .empty)
    (hplain : ∀ i ∈ m.content, i.Plain) (hapart : ∀ i ∈ m.content, i.Apart) {c : Compilation}
    (hc : Compilation.ofSource settings m.echo = .ok c) (hstyles : c.model.styles = m.styles)
    (hpage : c.model.pageNumber = m.pageNumber)
    (hcontent : c.model.content.map Item.style = m.content.map Item.style)
    (hclean : c.model.diagnostics = .empty) : m.Printable := by
  refine Model.printable_of_not_quotes hplain ?_
  by_contra! hquotes
  -- The first line with a quote too many, and the lines in front of it.
  obtain ⟨good, ⟨l, t⟩, rest, hsplit, hgood, ht⟩ := exists_first hquotes
  obtain ⟨is, hread, rfl⟩ := Compilation.ofSource_eq_ok_iff.1 hc
  have hprints : ∀ e ∈ good, Prints e.1 e.2 := fun e he =>
    Model.prints_printed hplain hapart e (by rw [hsplit]; exact List.mem_append_left _ he)
      (hgood e he)
  obtain ⟨⟨name, v⟩, hw, hquoted, ws, s, ks, hkinds⟩ := kinds_echo hsplit hprints ht
  obtain ⟨trees, htrees, hlines⟩ := read_behind_trees hkinds hread
  obtain ⟨t', ht', hk, hname⟩ := exists_tree_of_begun htrees
  obtain ⟨more, rfl⟩ := List.head?_eq_some_iff.1 ht'
  have hsub : t'.kinds ⊆ (Scan.ofSource m.echo).tokens.map (·.kind) := by
    intro k hmem
    rw [hkinds, ← htrees, List.flatMap_cons]
    exact List.mem_append_right _ (List.mem_append_left _ hmem)
  obtain ⟨v', hv', hunquoted⟩ := exists_get?_of_clean hname (clean_written hsub)
  -- Both documents begin with the good lines, and then one has `t` and the other `t'`.
  have hfirst : Model.ofInstructions settings ((good.map (·.2)).map Tree.instruction ++
      t.instruction :: (rest.map (·.2)).map Tree.instruction) = m := by
    have htrees := Model.ofInstructions_trees hs hm hn hd
    rw [← m.map_snd_printed, hsplit] at htrees
    simpa using htrees
  have hsecond : Model.ofInstructions settings ((good.map (·.2)).map Tree.instruction ++
      t'.instruction :: more.map Tree.instruction) = Model.ofInstructions settings is := by
    rw [List.map_append, List.map_cons] at hlines
    exact Model.ofInstructions_eq_of_lines hlines hclean
  have hspells : Spells l t := m.spells_printed (l, t) (by simp [hsplit])
  have hspelled := hspells.arguments _ hw
  have hv := hspelled.value
  rw [← Tree.arguments_instruction] at hv hv'
  have hsame := get?_eq_of_models hfirst hsecond hd hclean hk.symm hstyles.symm hpage.symm
    hcontent.symm (hspelled.name hquoted) hv hv'
  exact hunquoted (hsame ▸ hquoted)

/-! ## Reproduction -/

/-- A model that can be printed, with runs apart, is reproduced. -/
theorem reproduces_of_printable {m : Model} (hs : settings.Sound) (hm : m.Valid settings)
    (hprintable : m.Printable) (hapart : ∀ i ∈ m.content, i.Apart) : Reproduces settings m := by
  have hscan := scans_echo (Model.printable_canonical hprintable) m.apart_canonical
  rw [m.echo_canonical] at hscan
  obtain ⟨c, hc, -, hmodel⟩ := compile_of_scans hs (Model.valid_canonical hm) rfl rfl hscan
  have hcontent : m.canonical.content = m.content :=
    (List.map_congr_left fun i hi => Item.merged_of_apart (hapart i hi)).trans (List.map_id _)
  refine ⟨c, hc, ?_⟩
  rw [hmodel]
  exact ⟨rfl, rfl, hcontent, rfl⟩

/-- A source without illegal characters is reproduced, if the settings have no quotes. -/
theorem reproduces_of_clean {layers : List Layer} (hl : Settings.ofLayers layers = .ok settings)
    (hs : settings.Printable) {source : String} {c : Compilation}
    (hc : Compilation.ofSource settings source = .ok c) (hlegal : c.scan.illegal = []) :
    Reproduces settings c.model :=
  have hsound := Settings.sound_of_flaws (Settings.flaws_of_ofLayers hl)
  reproduces_of_printable hsound (Compilation.valid_ofSource hsound hc)
    (printable_of_ofSource hs hc) (apart_of_ofSource hc hlegal)

/-- What is reproduced can be printed, and its runs are apart. -/
theorem printable_and_apart_of_reproduces (hs : settings.Sound) {m : Model} (hm : m.Valid settings)
    (hplain : ∀ i ∈ m.content, i.Plain) (h : Reproduces settings m) :
    m.Printable ∧ ∀ i ∈ m.content, i.Apart := by
  obtain ⟨c, hc, hstyles, hpage, hcontent, hclean⟩ := h
  have hplain' : ∀ i ∈ m.canonical.content, i.Plain := by
    intro i hi
    obtain ⟨j, hj, rfl⟩ := List.mem_map.1 hi
    exact Item.plain_merged (hplain j hj)
  have hlooks : c.model.content.map Item.style = m.canonical.content.map Item.style := by
    rw [hcontent, Model.canonical, List.map_map]
    exact List.map_congr_left fun i _ => i.style_merged.symm
  rw [← m.echo_canonical] at hc
  have hprintable := printable_of_reproduction hs (Model.valid_canonical hm) rfl rfl hplain'
    m.apart_canonical hc hstyles hpage hlooks hclean
  obtain ⟨c', hc', -, hmodel⟩ := compile_of_scans hs (Model.valid_canonical hm) rfl rfl
    (scans_echo hprintable m.apart_canonical)
  obtain rfl : c' = c := Except.ok.inj (hc'.symm.trans hc)
  have hsame : m.canonical.content = m.content := by rw [← hmodel, hcontent]
  have hcanonical := hprintable.content
  have hapart := m.apart_canonical
  rw [hsame] at hcanonical hapart
  exact ⟨{ hprintable with content := hcanonical }, hapart⟩

/-- **Reproduction.** Under accepted settings, the canonical document of a compiled model compiles
without a complaint to the same styles, page numbers and items, if and only if no text that it
quotes has a quote itself and no two plain runs follow each other. -/
theorem reproduces_iff {layers : List Layer} (hl : Settings.ofLayers layers = .ok settings)
    {source : String} {c : Compilation} (hc : Compilation.ofSource settings source = .ok c) :
    Reproduces settings c.model ↔ c.model.Printable ∧ ∀ i ∈ c.model.content, i.Apart := by
  have hsound := Settings.sound_of_flaws (Settings.flaws_of_ofLayers hl)
  have hvalid := Compilation.valid_ofSource hsound hc
  refine ⟨printable_and_apart_of_reproduces hsound hvalid (plain_of_ofSource hc), ?_⟩
  rintro ⟨hprintable, hapart⟩
  exact reproduces_of_printable hsound hvalid hprintable hapart

theorem reproduces_iff_passed_over :
    let source := "$style(#name=\"s\")$title(#){A $B}$section(#style=\"s\"){a # b$bold(){c}d}"
    ∃ c, Compilation.ofSource .standard source = .ok c ∧
      (Reproduces .standard c.model ↔ c.model.Printable ∧ ∀ i ∈ c.model.content, i.Apart) := by
  intro source
  have hok : ∃ c, Compilation.ofSource .standard source = .ok c ∧ True := by decide +kernel
  obtain ⟨c, hc, -⟩ := hok
  exact ⟨c, hc, reproduces_iff Settings.ofLayers_nil hc⟩

/-- A character passed over in a section, and a section whose style has a quote in its name. -/
theorem not_reproduces :
    (∃ c, Compilation.ofSource .standard "$section()\x7ba # b\x7d" = .ok c ∧
      ¬ Reproduces .standard c.model) ∧
    ∃ settings,
      Settings.ofLayers [.override "styles.section.name" (.ofText "a\"b")] = .ok settings ∧
      ∃ c, Compilation.ofSource settings "$section()\x7ba\x7d" = .ok c ∧
        ¬ Reproduces settings c.model := by
  decide +kernel

end Folio
