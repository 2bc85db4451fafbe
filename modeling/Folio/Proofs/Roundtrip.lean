import Folio.Proofs.Compiled
import Folio.Proofs.Printing

/-!
# The canonical document compiles to its model

**Theorem (`compile_echo`).** Let a source compile to a model under accepted settings whose defaults
hold no quote. Then the canonical document of the model compiles too, without illegal characters
and without diagnostics, and gives the model again: its titles are no longer numbered, since the
numbers are text now, and runs that an illegal character kept apart are joined. The canonical
document of that model is the same.

The way there and back. The canonical document is scanned to the leaves of the model's derivation
(`scans_echo`), and so read as its instructions. Every one of these is accepted without a
correction, because all that it says is allowed (`accepts_style`, `accepts_pageNumber`,
`accepts_item`), and its change is the part of the model that it was printed from. So the run over
them builds up the model (`ofInstructions_trees`).
-/

namespace Folio

variable {settings : Settings}

/-! ## The canonical model -/

/-- The model as its canonical document has it. -/
def Model.canonical (m : Model) : Model where
  styles := m.styles
  pageNumber := m.pageNumber
  numberingStart := none
  content := m.content.map Item.merged
  diagnostics := .empty

theorem Run.join_before (r : Run) (runs : List Run) :
    String.join ((r.before runs).map Run.echo) =
      r.echo ++ String.join (runs.map Run.echo) := by
  cases runs with
  | nil => simp [Run.before]
  | cons s runs =>
    by_cases hplain : r.emphasis = none ∧ s.emphasis = none
    · rw [Run.before, if_pos hplain]
      simp [Run.echo, hplain.1, hplain.2, String.append_assoc]
    · rw [Run.before, if_neg hplain]
      simp

theorem Run.join_merge (runs : List Run) :
    String.join ((Run.merge runs).map Run.echo) = String.join (runs.map Run.echo) := by
  induction runs with
  | nil => rfl
  | cons r runs ih =>
    rw [Run.merge_cons, Run.join_before, ih, List.map_cons, String.join_cons]

theorem Item.echo_merged (i : Item) : i.merged.echo = i.echo := by
  cases i with
  | title t => rfl
  | body s => simp [Item.merged, Item.echo, Section.echo, Run.join_merge]

theorem Model.echo_canonical (m : Model) : m.canonical.echo = m.echo := by
  have hlines : m.canonical.echoLines = m.echoLines := by
    simp [Model.echoLines, Model.declaredStyles, Model.canonical, Item.echo_merged]
  rw [Model.echo, hlines, Model.echo]

theorem Model.printable_canonical {m : Model} (h : m.Printable) : m.canonical.Printable where
  styles := h.styles
  pageNumber := h.pageNumber
  content := by
    intro i hi
    obtain ⟨j, hj, rfl⟩ := List.mem_map.1 hi
    exact Item.printable_merged (h.content j hj)

theorem Model.apart_canonical (m : Model) : ∀ i ∈ m.canonical.content, i.Apart := by
  intro i hi
  obtain ⟨j, -, rfl⟩ := List.mem_map.1 hi
  exact j.apart_merged

theorem Item.valid_merged {styles : List Style} {i : Item} (h : i.Valid settings styles) :
    i.merged.Valid settings styles := by
  cases i with
  | title t => exact h
  | body s =>
    exact ⟨h.1, Run.forall_merge (P := fun r => r.emphasis ≠ none → r.text ≠ "")
      (fun _ _ _ _ _ _ hne => absurd rfl hne) h.2⟩

theorem Model.valid_canonical {m : Model} (h : m.Valid settings) : m.canonical.Valid settings :=
  { h with
    numberingStart := by rintro level ⟨⟩
    content := by
      intro i hi
      obtain ⟨j, hj, rfl⟩ := List.mem_map.1 hi
      exact Item.valid_merged (h.content j hj) }

/-! ## Reading what is spelled out -/

namespace Arguments

variable {args : Arguments} {name fallback : String}

theorem font_of_text? {font : String} (h : args.text? name = some font)
    (hfont : settings.isRegisteredFont font) :
    args.font settings name fallback = .plain font := by
  simp [Arguments.font, h, hfont]

theorem color_of_text? {color : String} (h : args.text? name = some color)
    (hcolor : settings.isKnownColor color) :
    args.color settings name fallback = .plain color := by
  simp [Arguments.color, h, hcolor]

theorem number_of_get? {bounds : Bounds} {fallback v : UInt32}
    (h : args.get? name = some (.number v.toNat)) (hv : bounds.contains v.toNat) :
    args.number name bounds fallback = .plain v := by
  simp [Arguments.number, h, numberWithin, hv]

theorem position_of_text? {fallback p : PagePosition} (h : args.text? name = some p.name) :
    args.position name fallback = .plain p := by
  simp [Arguments.position, h, PagePosition.ofName?_name]

theorem text?_ofList {ws : Written} {s : String} (h : ws.reverse.lookup name = some (.text s)) :
    (ofList ws).text? name = some s := by
  rw [text?, get?_ofList, h]

end Arguments

/-- The signature has the name, and takes the value for it. -/
def Signature.Takes (signature : Signature) (w : String × Literal) : Prop :=
  ∃ kind, signature.lookup w.1 = some kind ∧ (kind = .text → ∃ s, w.2 = .text s)

theorem Signature.faults_ofList {signature : Signature} {ws : Written} (keyword : Keyword)
    (h : ∀ w ∈ ws, signature.Takes w) : signature.faults keyword (.ofList ws) = [] := by
  have htakes : ∀ {name v}, (Arguments.ofList ws).get? name = some v →
      signature.Takes (name, v) := fun hv => by
    rw [Arguments.get?_ofList] at hv
    exact h _ (List.mem_reverse.1 (mem_of_lookup_eq_some hv))
  refine faults_eq_nil_iff.2 ⟨fun name hname => ?_, fun name n hn hlookup => ?_⟩
  · obtain ⟨v, hv⟩ := Option.isSome_iff_exists.1 hname
    obtain ⟨kind, hkind, -⟩ := htakes hv
    exact mem_names_iff.2 (Option.isSome_iff_exists.2 ⟨kind, hkind⟩)
  · obtain ⟨kind, hkind, htext⟩ := htakes hn
    obtain rfl : kind = .text := Option.some.inj (hkind.symm.trans hlookup)
    obtain ⟨s, hs⟩ := htext rfl
    cases hs

theorem takes_text {signature : Signature} {name s : String}
    (h : (signature.lookup name).isSome) : signature.Takes (name, .text s) := by
  obtain ⟨kind, hkind⟩ := Option.isSome_iff_exists.1 h
  exact ⟨kind, hkind, fun _ => ⟨s, rfl⟩⟩

theorem takes_number {signature : Signature} {name : String} {n : Int}
    (h : signature.lookup name = some .number) : signature.Takes (name, .number n) :=
  ⟨.number, h, by rintro ⟨⟩⟩

/-! ## Every instruction is accepted as it stands -/

namespace Resolution

variable {r : Resolution}

theorem accepts_style {s : Style} (hnew : r.hasStyle s.name = false)
    (hlook : settings.AllowsStyle s) (hbuiltin : s.builtin = false) :
    Accepts settings r s.tree.instruction (.style s) [] := by
  have hsigned : (Instruction.directive .style (.ofList s.written) 0).WellSigned := by
    refine Signature.faults_ofList _ ?_
    simp only [Style.written, List.forall_mem_cons]
    exact ⟨takes_text rfl, takes_text rfl, takes_number rfl, takes_text rfl, List.forall_mem_nil _⟩
  have hread : (Arguments.ofList s.written).style settings s.name = .plain s := by
    rw [Arguments.style, Arguments.font_of_text? (Arguments.text?_ofList rfl) hlook.font,
      Arguments.number_of_get? (Arguments.get?_ofList _ _) hlook.size,
      Arguments.color_of_text? (Arguments.text?_ofList rfl) hlook.color]
    obtain ⟨name, font, size, color, builtin⟩ := s
    cases hbuiltin
    rfl
  have ha : Accepts settings r _ _ _ := .style hsigned (Arguments.text?_ofList rfl) hnew
  rwa [hread] at ha

theorem accepts_pageNumber {n : PageNumber} (hnone : r.pageNumber = none)
    (hn : settings.AllowsPageNumber n) :
    Accepts settings r n.tree.instruction (.pageNumber n) [] := by
  obtain ⟨hlook, hstart⟩ := hn
  have hsigned : (Instruction.directive .pageNumber (.ofList n.written) 0).WellSigned := by
    refine Signature.faults_ofList _ ?_
    simp only [PageNumber.written, List.forall_mem_cons]
    exact ⟨takes_text rfl, takes_text rfl, takes_number rfl, takes_text rfl, takes_number rfl,
      List.forall_mem_nil _⟩
  have hread : (Arguments.ofList n.written).pageNumber settings = .plain n := by
    rw [Arguments.pageNumber, Arguments.position_of_text? (Arguments.text?_ofList rfl),
      Arguments.font_of_text? (Arguments.text?_ofList rfl) hlook.font,
      Arguments.number_of_get? (Arguments.get?_ofList _ _) hlook.size,
      Arguments.color_of_text? (Arguments.text?_ofList rfl) hlook.color,
      Arguments.number_of_get? (Arguments.get?_ofList _ _) hstart]
    rfl
  have ha : Accepts settings r _ _ _ := .pageNumber hsigned hnone
  rwa [hread] at ha

theorem accepts_title {t : Title} (hstyle : r.hasStyle t.style)
    (hlevel : settings.AllowsLevel t.level) :
    Accepts settings r (Item.title t).tree.instruction (.item (.title t)) [] := by
  have hsigned : (Instruction.block .title (.ofList t.written) (Branch.nodes t.branches)
      0).WellSigned := by
    refine Signature.faults_ofList _ ?_
    simp only [Title.written, List.forall_mem_cons]
    exact ⟨takes_text rfl, takes_number rfl, List.forall_mem_nil _⟩
  have hname : (Arguments.ofList t.written).blockStyle settings .title = t.style := by
    rw [Arguments.blockStyle, Arguments.text?_ofList rfl]
    rfl
  have hread : (Arguments.ofList t.written).titleLevel settings = .plain t.level :=
    Arguments.number_of_get? (Arguments.get?_ofList _ _) hlevel
  have hnodes : Branch.nodes t.branches = if t.text = "" then [] else [.text t.text] := by
    unfold Title.branches
    split <;> rfl
  have hcontent : ∀ n ∈ Branch.nodes t.branches, n.titleError? = none := by
    rw [hnodes]
    split
    · exact List.forall_mem_nil _
    · exact List.forall_mem_singleton.2 rfl
  have htext : String.join ((Branch.nodes t.branches).filterMap Node.text?) = t.text := by
    rw [hnodes]
    split
    · next h => exact h.symm
    · simp [Node.text?]
  have ha : Accepts settings r _ _ _ := .title hsigned (hname ▸ hstyle) hcontent
  rwa [hname, hread, htext] at ha

theorem accepts_section {s : Section} (hstyle : r.hasStyle s.style)
    (hruns : ∀ run ∈ s.content, run.emphasis ≠ none → run.text ≠ "") :
    Accepts settings r (Item.body s).tree.instruction (.item (.body s)) [] := by
  have hsigned : (Instruction.block .body (.ofList s.written)
      (Branch.nodes (s.content.map Run.branch)) 0).WellSigned := by
    refine Signature.faults_ofList _ ?_
    simp only [Section.written, List.forall_mem_cons]
    exact ⟨takes_text rfl, List.forall_mem_nil _⟩
  have hname : (Arguments.ofList s.written).blockStyle settings .body = s.style := by
    rw [Arguments.blockStyle, Arguments.text?_ofList rfl]
    rfl
  have hnode : ∀ run ∈ s.content,
      run.branch.node.sectionError? = none ∧ run.branch.node.run? = some run := by
    rintro ⟨emphasis, text⟩ hrun
    cases emphasis with
    | none => exact ⟨rfl, rfl⟩
    | some kind =>
      have htext : text ≠ "" := hruns _ hrun (Option.some_ne_none kind)
      simp [Run.branch, Branch.node, Tree.instruction, Node.sectionError?, Node.run?, htext]
  have hcontent : ∀ n ∈ Branch.nodes (s.content.map Run.branch), n.sectionError? = none := by
    rw [Branch.nodes_eq_map, List.map_map]
    intro n hn
    obtain ⟨run, hrun, rfl⟩ := List.mem_map.1 hn
    exact (hnode run hrun).1
  have hread : (Branch.nodes (s.content.map Run.branch)).filterMap Node.run? = s.content := by
    rw [Branch.nodes_eq_map, List.map_map, List.filterMap_map]
    exact (List.filterMap_congr fun run hrun => (hnode run hrun).2).trans List.filterMap_some
  have ha : Accepts settings r _ _ _ := .body hsigned (hname ▸ hstyle) hcontent
  rwa [hname, hread] at ha

/-- An item is accepted where its style is there. -/
theorem accepts_item {i : Item} {styles : List Style} (h : i.Valid settings styles)
    (hstyle : ∀ name ∈ styles.map (·.name), r.hasStyle name) :
    Accepts settings r i.tree.instruction (.item i) [] := by
  cases i with
  | title t => exact accepts_title (hstyle _ h.1) h.2
  | body s => exact accepts_section (hstyle _ h.1) h.2

/-! ## The run over the canonical instructions -/

theorem step_of_accepts {i : Instruction} {c : Change} (h : Accepts settings r i c []) :
    r.step settings i = r.change c := by
  rw [step_of_accepted (judge_eq_accepted_iff.2 ⟨[], h, rfl⟩), List.map_nil, List.append_nil]
  cases c <;> rfl

theorem foldl_step_styles {declared : List Style} (hnew : ∀ s ∈ declared, r.hasStyle s.name = false)
    (hnames : (declared.map (·.name)).Nodup) (hlooks : ∀ s ∈ declared, settings.AllowsStyle s)
    (hbuiltin : ∀ s ∈ declared, s.builtin = false) :
    ∃ names, (declared.map (·.tree.instruction)).foldl (step settings) r =
      { r with styles := r.styles ++ declared, names := names } := by
  induction declared generalizing r with
  | nil => exact ⟨r.names, by simp⟩
  | cons s declared ih =>
    simp only [List.forall_mem_cons] at hnew hlooks hbuiltin
    obtain ⟨hfresh, hnames⟩ := List.nodup_cons.1 hnames
    have hnew' : ∀ t ∈ declared, (r.change (.style s)).hasStyle t.name = false := by
      intro t ht
      have hne : t.name ≠ s.name := fun heq => hfresh (List.mem_map.2 ⟨t, ht, heq⟩)
      have hr := hnew.2 t ht
      simp only [hasStyle, change, List.contains_eq_mem, List.mem_insert_iff] at hr ⊢
      simpa [hne] using hr
    obtain ⟨names, hfold⟩ := ih hnew' hnames hlooks.2 hbuiltin.2
    refine ⟨names, ?_⟩
    rw [List.map_cons, List.foldl_cons, step_of_accepts (accepts_style hnew.1 hlooks.1 hbuiltin.1),
      hfold]
    simp [change]

theorem foldl_step_items {styles : List Style} {items : List Item}
    (h : ∀ i ∈ items, i.Valid settings styles)
    (hstyle : ∀ name ∈ styles.map (·.name), r.hasStyle name) :
    (items.map (·.tree.instruction)).foldl (step settings) r =
      { r with content := r.content ++ items } := by
  induction items generalizing r with
  | nil => simp
  | cons i items ih =>
    obtain ⟨hi, hitems⟩ := List.forall_mem_cons.1 h
    have hrest := ih (r := r.change (.item i)) hitems hstyle
    rw [List.map_cons, List.foldl_cons, step_of_accepts (accepts_item hi hstyle), hrest]
    simp [change]

end Resolution

/-! ## There and back -/

/-- The built-in styles of a valid model stand in front of the declared ones. -/
theorem Model.styles_eq {m : Model} (h : m.Valid settings) :
    m.styles = settings.builtinStyles ++ m.declaredStyles := by
  have hdeclared : ∀ s ∈ m.styles.drop 2, s.builtin = false := by
    have hbuiltin := h.builtin
    rw [← List.take_append_drop 2 m.styles, List.filter_append, h.front] at hbuiltin
    have hnone : (m.styles.drop 2).filter (·.builtin) = [] :=
      List.append_cancel_left (hbuiltin.trans (List.append_nil _).symm)
    intro s hs
    simpa using List.filter_eq_nil_iff.1 hnone s hs
  have hself : (m.styles.drop 2).filter (fun s => !s.builtin) = m.styles.drop 2 :=
    List.filter_eq_self.2 fun s hs => by simp [hdeclared s hs]
  calc
    m.styles = settings.builtinStyles ++ m.styles.drop 2 := by
      rw [← h.front, List.take_append_drop]
    _ = settings.builtinStyles ++ (m.styles.take 2 ++ m.styles.drop 2).filter
        (fun s => !s.builtin) := by
      rw [List.filter_append, hself, h.front]
      rfl
    _ = settings.builtinStyles ++ m.declaredStyles := by
      rw [List.take_append_drop, Model.declaredStyles]

theorem Resolution.hasStyle_start_of_nodup {declared : List Style}
    (h : ((settings.builtinStyles ++ declared).map (·.name)).Nodup) :
    ∀ s ∈ declared, (start settings).hasStyle s.name = false := by
  intro s hs
  rw [List.map_append, List.nodup_append] at h
  have hne : s.name ∉ settings.builtinStyles.map (·.name) := fun hmem =>
    h.2.2 _ hmem _ (List.mem_map_of_mem hs) rfl
  rw [hasStyle, List.contains_eq_mem]
  exact decide_eq_false hne

/-- The state behind the declared styles. It is the state of a run, so it has the names of all its
styles. -/
theorem Resolution.exists_foldl_declared (hs : settings.Sound) {m : Model}
    (hm : m.Valid settings) :
    ∃ names, (m.declaredStyles.map (·.tree.instruction)).foldl (step settings) (start settings) =
        ⟨m.styles, names, none, none, [], .empty⟩ ∧
      ∀ name ∈ m.styles.map (·.name), name ∈ names := by
  have hstyles := Model.styles_eq hm
  have hnames := hm.names
  rw [hstyles] at hnames
  have hmem : ∀ s ∈ m.declaredStyles, s ∈ m.styles ∧ s.builtin = false := fun s hs => by
    simpa [Model.declaredStyles] using hs
  have hnodup : (m.declaredStyles.map (·.name)).Nodup := by
    rw [List.map_append] at hnames
    exact (List.nodup_append.1 hnames).2.1
  obtain ⟨names, hfold⟩ := foldl_step_styles (hasStyle_start_of_nodup hnames) hnodup
    (fun s hs => hm.looks s (hmem s hs).1) (fun s hs => (hmem s hs).2)
  have hstate : (m.declaredStyles.map (·.tree.instruction)).foldl (step settings)
      (start settings) = ⟨m.styles, names, none, none, [], .empty⟩ := by
    rw [hfold, hstyles]
    rfl
  have hvalid := valid_foldl_step hs (valid_start hs) (m.declaredStyles.map (·.tree.instruction))
  rw [hstate] at hvalid
  exact ⟨names, hstate, fun name => (hvalid.names name).2⟩

/-- **The instructions of a valid model** make it again, up to numbering and diagnostics. -/
theorem Model.ofInstructions_trees (hs : settings.Sound) {m : Model} (hm : m.Valid settings)
    (hn : m.numberingStart = none) (hd : m.diagnostics = .empty) :
    Model.ofInstructions settings (m.trees.map Tree.instruction) = m := by
  obtain ⟨names, hdeclared, hnames⟩ := Resolution.exists_foldl_declared hs hm
  have hinstructions : m.trees.map Tree.instruction =
      m.declaredStyles.map (·.tree.instruction) ++
        m.pageNumber.tree.instruction :: m.content.map (·.tree.instruction) := by
    simp [Model.trees, Function.comp_def]
  have hpage := Resolution.step_of_accepts (r := ⟨m.styles, names, none, none, [], .empty⟩)
    (Resolution.accepts_pageNumber rfl (hm.pageNumber _ rfl))
  have hitems := Resolution.foldl_step_items
    (r := ⟨m.styles, names, some m.pageNumber, none, [], .empty⟩) hm.content
    fun name hname => List.contains_iff_mem.2 (hnames name hname)
  have hrun : (m.trees.map Tree.instruction).foldl (Resolution.step settings) (.start settings) =
      ⟨m.styles, names, some m.pageNumber, none, m.content, .empty⟩ := by
    rw [hinstructions, List.foldl_append, hdeclared, List.foldl_cons, hpage]
    exact hitems
  rw [Model.ofInstructions, hrun]
  obtain ⟨styles, pageNumber, numberingStart, content, diagnostics⟩ := m
  cases hn
  cases hd
  rfl

theorem Model.mapLine_of_clean (f : Nat → Nat) {m : Model} (h : m.diagnostics = .empty) :
    m.mapLine f = m := by
  obtain ⟨styles, pageNumber, numberingStart, content, diagnostics⟩ := m
  cases h
  rfl

/-- A model without diagnostics is the same on other lines. -/
theorem Model.eq_of_mapLine_eq {f : Nat → Nat} {m m' : Model} (h : m.mapLine f = m')
    (hd : m'.diagnostics = .empty) : m = m' := by
  have hnone : m.diagnostics = .empty := by
    have hmap : m.diagnostics.mapLine f = .empty := by rw [← hd, ← h]; rfl
    obtain ⟨styles, pageNumber, numberingStart, content, ⟨errors, warnings⟩⟩ := m
    simpa [Diagnostics.mapLine, Diagnostics.empty] using hmap
  rw [← h, Model.mapLine_of_clean f hnone]

/-- Without diagnostics, instructions on other lines have the same model. -/
theorem Model.ofInstructions_eq_of_lines {f : Nat → Nat} {is js : List Instruction}
    (h : is.map (Instruction.mapLine f) = js.map (Instruction.mapLine f))
    (hd : (ofInstructions settings js).diagnostics = .empty) :
    ofInstructions settings is = ofInstructions settings js := by
  refine Model.eq_of_mapLine_eq (f := f) ?_ hd
  rw [← ofInstructions_mapLine, h, ofInstructions_mapLine, Model.mapLine_of_clean f hd]

/-- A source that is scanned to the leaves of a valid model is compiled to the model. -/
theorem compile_of_scans (hs : settings.Sound) {m : Model} (hm : m.Valid settings)
    (hn : m.numberingStart = none) (hd : m.diagnostics = .empty) {source : String}
    (hscan : Scans .document source.toList (m.trees.flatMap Tree.kinds)) :
    ∃ c, Compilation.ofSource settings source = .ok c ∧ c.scan.illegal = [] ∧ c.model = m := by
  obtain ⟨hillegal, hkinds⟩ := Scan.ofSource_of_scans hscan
  have hne : m.trees ≠ [] := by simp [Model.trees]
  have hleaves : m.trees.flatMap Tree.kinds = (m.trees.flatMap Tree.leaves).map (·.kind) := by
    rw [List.map_flatMap]
    rfl
  obtain ⟨is, hread, hlines⟩ := read_of_kinds hne (hkinds.trans hleaves)
  have htrees := Model.ofInstructions_trees hs hm hn hd
  have hmodel : Model.ofInstructions settings is = m := by
    rw [← htrees] at hd ⊢
    exact Model.ofInstructions_eq_of_lines (hlines.trans List.map_map.symm) hd
  exact ⟨_, Compilation.ofSource_eq_ok_iff.2 ⟨is, hread, rfl⟩, hillegal, hmodel⟩

theorem Compilation.valid_ofSource (hs : settings.Sound) {source : String} {c : Compilation}
    (hc : ofSource settings source = .ok c) : c.model.Valid settings := by
  obtain ⟨is, -, rfl⟩ := ofSource_eq_ok_iff.1 hc
  exact Model.valid_ofInstructions hs is

/-- **Echo and compilation.** The canonical document of a compiled model compiles without a
complaint. It gives the model without its numbering and with runs joined that an illegal character
kept apart, and the canonical document of that is the same. -/
theorem compile_echo {layers : List Layer} (hl : Settings.ofLayers layers = .ok settings)
    (hs : settings.Printable) {source : String} {c : Compilation}
    (hc : Compilation.ofSource settings source = .ok c) :
    ∃ c', Compilation.ofSource settings c.model.echo = .ok c' ∧ c'.scan.illegal = [] ∧
      c'.model = c.model.canonical ∧
      (c.scan.illegal = [] → c'.model.content = c.model.content) ∧
      c'.model.echo = c.model.echo := by
  have hsound := Settings.sound_of_flaws (Settings.flaws_of_ofLayers hl)
  have hvalid := Compilation.valid_ofSource hsound hc
  have hscan := scans_echo (Model.printable_canonical (printable_of_ofSource hs hc))
    c.model.apart_canonical
  rw [c.model.echo_canonical] at hscan
  obtain ⟨c', hc', hillegal, hmodel⟩ :=
    compile_of_scans hsound (Model.valid_canonical hvalid) rfl rfl hscan
  refine ⟨c', hc', hillegal, hmodel, fun hlegal => ?_, by rw [hmodel, c.model.echo_canonical]⟩
  have hapart := apart_of_ofSource hc hlegal
  rw [hmodel]
  exact (List.map_congr_left fun i hi => Item.merged_of_apart (hapart i hi)).trans (List.map_id _)

theorem printable_standard : Settings.standard.Printable where
  styles := by
    simp only [Settings.builtinStyles, List.forall_mem_cons, Style.Printable]
    exact ⟨by decide, by decide, List.forall_mem_nil _⟩
  pageNumber := by
    unfold PageNumber.Printable
    decide

theorem compile_echo_standard :
    let source := "$style(#name=\"s\", #fontSize=900)$numberizeTitle()$title(){A $B}" ++
      "$section(#style=\"s\"){a # b$bold(){c}d}"
    ∃ c, Compilation.ofSource .standard source = .ok c ∧
      ∃ c', Compilation.ofSource .standard c.model.echo = .ok c' ∧ c'.scan.illegal = [] ∧
        c'.model = c.model.canonical ∧
        (c.scan.illegal = [] → c'.model.content = c.model.content) ∧
        c'.model.echo = c.model.echo := by
  intro source
  have hok : (Compilation.ofSource .standard source).isOk := by decide +kernel
  cases hc : Compilation.ofSource .standard source with
  | error e => simp [hc, Except.isOk, Except.toBool] at hok
  | ok c => exact ⟨c, rfl, compile_echo Settings.ofLayers_nil printable_standard hc⟩

end Folio
