import Folio.Proofs.Compiled

/-!
# Runs without a complaint

**Growth** (`Grows`). Resolution only adds to a state: styles, items and diagnostics are appended,
and page numbers stay once they are set. So what one instruction has changed is still there in the
end, and so is every complaint.

**As written** (`written_of_accepts`). If there is no complaint in the end, each instruction was
accepted as it stands (`accepts_of_diagnostics`). Then its change holds the texts that its arguments
give, and not the defaults.

**Two runs** (`get?_eq_of_models`). If two runs part at an instruction of the same keyword and lead
to the same styles, page numbers and items, the two instructions say the same.
-/

namespace Folio

variable {settings : Settings}

namespace Resolution

/-! ## Growth -/

/-- The second state has all that the first has. -/
structure Grows (r s : Resolution) : Prop where
  styles : r.styles <+: s.styles
  pageNumber : ∀ n, r.pageNumber = some n → s.pageNumber = some n
  content : r.content <+: s.content
  errors : r.diagnostics.errors <+: s.diagnostics.errors
  warnings : r.diagnostics.warnings <+: s.diagnostics.warnings

theorem Grows.refl (r : Resolution) : r.Grows r :=
  ⟨List.prefix_rfl, fun _ h => h, List.prefix_rfl, List.prefix_rfl, List.prefix_rfl⟩

theorem Grows.trans {r s t : Resolution} (h : r.Grows s) (h' : s.Grows t) : r.Grows t :=
  ⟨h.styles.trans h'.styles, fun n hn => h'.pageNumber n (h.pageNumber n hn),
    h.content.trans h'.content, h.errors.trans h'.errors, h.warnings.trans h'.warnings⟩

theorem grows_report (r : Resolution) (ds : List Diagnostic) : r.Grows (r.report ds) where
  styles := List.prefix_rfl
  pageNumber := fun _ h => h
  content := List.prefix_rfl
  errors := by
    rw [report, Diagnostics.errors_extend]
    exact List.prefix_append _ _
  warnings := by
    rw [report, Diagnostics.warnings_extend]
    exact List.prefix_append _ _

variable {r : Resolution} {i : Instruction} {c : Change} {corrections : List Correction}

theorem grows_change (ha : Accepts settings r i c corrections) : r.Grows (r.change c) := by
  have hr := Grows.refl r
  cases ha with
  | style => exact { hr with styles := List.prefix_append _ _ }
  | pageNumber _ hnone =>
    refine { hr with pageNumber := fun n hn => ?_ }
    rw [hnone] at hn
    cases hn
  | numberizeTitle => exact { hr with }
  | title => exact { hr with content := List.prefix_append _ _ }
  | body => exact { hr with content := List.prefix_append _ _ }

/-- **A step only adds.** -/
theorem grows_step (settings : Settings) (r : Resolution) (i : Instruction) :
    r.Grows (r.step settings i) := by
  cases hj : r.judge settings i with
  | rejected errors =>
    rw [step, hj]
    exact grows_report r errors
  | accepted c warnings =>
    obtain ⟨corrections, ha, -⟩ := judge_eq_accepted_iff.1 hj
    rw [step, hj]
    exact (grows_change ha).trans (grows_report _ warnings)

/-- **A run only adds.** -/
theorem grows_foldl_step (settings : Settings) (r : Resolution) (is : List Instruction) :
    r.Grows (is.foldl (step settings) r) := by
  induction is generalizing r with
  | nil => exact Grows.refl r
  | cons i is ih => exact (grows_step settings r i).trans (ih _)

/-! ## Without a complaint -/

theorem diagnostics_of_grows {s : Resolution} (h : r.Grows s) (hs : s.diagnostics = .empty) :
    r.diagnostics = .empty := by
  have herrors := h.errors
  have hwarnings := h.warnings
  rw [hs] at herrors hwarnings
  obtain ⟨styles, names, pageNumber, numberingStart, content, ⟨errors, warnings⟩⟩ := r
  obtain rfl := List.prefix_nil.1 herrors
  obtain rfl := List.prefix_nil.1 hwarnings
  rfl

/-- If there is no complaint in the end, the instruction was accepted as it stands. -/
theorem accepts_of_diagnostics {is : List Instruction}
    (h : (is.foldl (step settings) (r.step settings i)).diagnostics = .empty) :
    ∃ c, Accepts settings r i c [] ∧ r.step settings i = r.change c := by
  have hstep := diagnostics_of_grows (grows_foldl_step settings _ is) h
  cases hj : r.judge settings i with
  | rejected errors =>
    have hne := (errors_of_judge_eq_rejected hj).1
    rw [step_of_rejected hj] at hstep
    exact absurd (List.append_eq_nil_iff.1 (congrArg Diagnostics.errors hstep)).2 hne
  | accepted c warnings =>
    obtain ⟨corrections, ha, hwarnings⟩ := judge_eq_accepted_iff.1 hj
    rw [step_of_accepted hj] at hstep
    obtain rfl : warnings = [] :=
      (List.append_eq_nil_iff.1 (congrArg Diagnostics.warnings hstep)).2
    obtain rfl : corrections = [] := List.map_eq_nil_iff.1 hwarnings.symm
    refine ⟨c, ha, ?_⟩
    rw [step, hj]
    rfl

end Resolution

/-! ## As written -/

namespace Arguments

variable {args : Arguments} {name fallback : String} {v : Literal}

/-- An argument for a text is one. -/
theorem text?_of_wellSigned {signature : Signature} {keyword : Keyword}
    (hs : signature.faults keyword args = []) (hname : signature.lookup name = some .text)
    (hv : args.get? name = some v) : ∃ s, v = .text s ∧ args.text? name = some s := by
  cases v with
  | text s => exact ⟨s, rfl, by rw [text?, hv]⟩
  | number n => exact absurd hname ((Signature.faults_eq_nil_iff.1 hs).2 name n hv)

theorem font_of_plain {s : String} (hs : args.text? name = some s)
    (h : (args.font settings name fallback).corrections = []) :
    (args.font settings name fallback).value = s := by
  unfold font at h ⊢
  rw [hs] at h ⊢
  by_cases hfont : settings.isRegisteredFont s
  · simp [hfont, Corrected.plain]
  · simp [hfont, Corrected.replaced] at h

theorem color_of_plain {s : String} (hs : args.text? name = some s)
    (h : (args.color settings name fallback).corrections = []) :
    (args.color settings name fallback).value = s := by
  unfold color at h ⊢
  rw [hs] at h ⊢
  by_cases hcolor : settings.isKnownColor s
  · simp [hcolor, Corrected.plain]
  · simp [hcolor, Corrected.replaced] at h

theorem blockStyle_of_text? (kind : BlockKind) {s : String} (hs : args.text? "style" = some s) :
    args.blockStyle settings kind = s := by
  unfold blockStyle
  rw [hs]
  rfl

end Arguments

def Instruction.arguments : Instruction → Arguments
  | directive _ args _ => args
  | block _ args _ _ => args
  | emphasis _ _ _ => .empty

def Item.style : Item → String
  | title t => t.style
  | body s => s.style

/-- The texts that a change holds, with the names of the arguments that give them. -/
def Change.texts : Change → List (String × String)
  | .style s => [("name", s.name), ("font", s.font), ("fontColor", s.fontColor)]
  | .pageNumber n => [("pageNumberFont", n.font), ("pageNumberFontColor", n.fontColor)]
  | .numberingStart _ => []
  | .item i => [("style", i.style)]

/-- The names of those arguments. -/
def Keyword.textNames : Keyword → List String
  | .directive .style => ["name", "font", "fontColor"]
  | .directive .pageNumber => ["pageNumberFont", "pageNumberFontColor"]
  | .directive .numberizeTitle => []
  | .block _ => ["style"]
  | .emphasis _ => []

namespace Resolution

variable {r : Resolution} {i : Instruction} {c : Change} {corrections : List Correction}

theorem textNames_of_accepts (ha : Accepts settings r i c corrections) :
    c.texts.map (·.1) = i.keyword.textNames := by
  cases ha <;> rfl

/-- **A change holds what is written.** -/
theorem written_of_accepts (ha : Accepts settings r i c []) :
    ∀ e ∈ c.texts, ∀ v, i.arguments.get? e.1 = some v → v = .text e.2 := by
  generalize hplain : ([] : List Correction) = corrections at ha
  cases ha with
  | @style args line name hsigned hname hnew =>
    rw [Arguments.style, eq_comm] at hplain
    simp only [List.append_eq_nil_iff] at hplain
    obtain ⟨⟨hfont, -⟩, hcolor⟩ := hplain
    simp only [Change.texts, List.forall_mem_cons]
    refine ⟨fun v hv => ?_, fun v hv => ?_, fun v hv => ?_, List.forall_mem_nil _⟩
    · obtain ⟨s, rfl, hs⟩ := Arguments.text?_of_wellSigned hsigned rfl hv
      rw [hname] at hs
      cases hs
      rfl
    · obtain ⟨s, rfl, hs⟩ := Arguments.text?_of_wellSigned hsigned rfl hv
      exact congrArg Literal.text (Arguments.font_of_plain hs hfont).symm
    · obtain ⟨s, rfl, hs⟩ := Arguments.text?_of_wellSigned hsigned rfl hv
      exact congrArg Literal.text (Arguments.color_of_plain hs hcolor).symm
  | @pageNumber args line hsigned hnone =>
    rw [Arguments.pageNumber, eq_comm] at hplain
    simp only [List.append_eq_nil_iff] at hplain
    obtain ⟨⟨⟨⟨-, hfont⟩, -⟩, hcolor⟩, -⟩ := hplain
    simp only [Change.texts, List.forall_mem_cons]
    refine ⟨fun v hv => ?_, fun v hv => ?_, List.forall_mem_nil _⟩
    · obtain ⟨s, rfl, hs⟩ := Arguments.text?_of_wellSigned hsigned rfl hv
      exact congrArg Literal.text (Arguments.font_of_plain hs hfont).symm
    · obtain ⟨s, rfl, hs⟩ := Arguments.text?_of_wellSigned hsigned rfl hv
      exact congrArg Literal.text (Arguments.color_of_plain hs hcolor).symm
  | numberizeTitle => exact List.forall_mem_nil _
  | @title args content line hsigned hstyle =>
    refine List.forall_mem_singleton.2 fun v hv => ?_
    obtain ⟨s, rfl, hs⟩ := Arguments.text?_of_wellSigned hsigned rfl hv
    exact congrArg Literal.text (Arguments.blockStyle_of_text? .title hs).symm
  | @body args content line hsigned hstyle =>
    refine List.forall_mem_singleton.2 fun v hv => ?_
    obtain ⟨s, rfl, hs⟩ := Arguments.text?_of_wellSigned hsigned rfl hv
    exact congrArg Literal.text (Arguments.blockStyle_of_text? .body hs).symm

/-! ## Two runs -/

theorem eq_of_prefix_concat {α : Type} {l x : List α} {a b : α} (ha : l ++ [a] <+: x)
    (hb : l ++ [b] <+: x) : a = b := by
  have hprefix := List.prefix_of_prefix_length_le ha hb (by simp)
  have heq := hprefix.eq_of_length (by simp)
  exact List.singleton_inj.1 (List.append_cancel_left heq)

/-- What a number in front of a title does not touch. -/
theorem map_numberFrom {α : Type} {f : Item → α}
    (hf : ∀ c start t, f (.title (TitleNumber.numberTitle c start t)) = f (.title t))
    (start deepest : UInt32) (c : TitleNumber.Counters) (content : List Item) :
    (TitleNumber.numberFrom start deepest c content).map f = content.map f := by
  induction content generalizing c with
  | nil => rfl
  | cons i content ih =>
    cases i with
    | body s => rw [TitleNumber.numberFrom, List.map_cons, List.map_cons, ih]
    | title t =>
      rw [TitleNumber.numberFrom]
      split
      · rw [List.map_cons, List.map_cons, ih, hf]
      · rw [List.map_cons, List.map_cons, ih]

theorem map_finish {α : Type} {f : Item → α}
    (hf : ∀ c start t, f (.title (TitleNumber.numberTitle c start t)) = f (.title t))
    (settings : Settings) (r : Resolution) :
    (r.finish settings).content.map f = r.content.map f := by
  cases h : r.numberingStart with
  | none => rw [content_finish_of_none h]
  | some start => rw [content_finish_of_some h, numberTitles, map_numberFrom hf]

theorem map_style_finish (settings : Settings) (r : Resolution) :
    (r.finish settings).content.map Item.style = r.content.map Item.style :=
  map_finish (fun _ _ _ => rfl) settings r

theorem pageNumber_finish_of_some {n : PageNumber} (h : r.pageNumber = some n) :
    (r.finish settings).pageNumber = n := by
  rw [finish, h]
  rfl

/-- **Two instructions say the same**, where the states they lead to look the same. -/
theorem texts_eq_of_grows {i' : Instruction} {c' : Change} {corrections' : List Correction}
    {s s' : Resolution} (ha : Accepts settings r i c corrections)
    (ha' : Accepts settings r i' c' corrections') (hk : i.keyword = i'.keyword)
    (hs : (r.change c).Grows s) (hs' : (r.change c').Grows s') (hstyles : s.styles = s'.styles)
    (hpage : (s.finish settings).pageNumber = (s'.finish settings).pageNumber)
    (hcontent : s.content.map Item.style = s'.content.map Item.style) : c.texts = c'.texts := by
  have hitem : ∀ j j' : Item, r.content ++ [j] <+: s.content →
      r.content ++ [j'] <+: s'.content → j.style = j'.style := by
    intro j j' hj hj'
    have hmap := hj.map Item.style
    have hmap' := hj'.map Item.style
    rw [List.map_append] at hmap hmap'
    rw [hcontent] at hmap
    exact eq_of_prefix_concat hmap hmap'
  cases ha with
  | style =>
    cases ha' with
    | style =>
      have hadded := hs.styles
      rw [hstyles] at hadded
      rw [eq_of_prefix_concat hadded hs'.styles]
    | _ => cases hk
  | pageNumber =>
    cases ha' with
    | pageNumber =>
      rw [pageNumber_finish_of_some (hs.pageNumber _ rfl),
        pageNumber_finish_of_some (hs'.pageNumber _ rfl)] at hpage
      rw [hpage]
    | _ => cases hk
  | numberizeTitle =>
    cases ha' with
    | numberizeTitle => rfl
    | _ => cases hk
  | title =>
    cases ha' with
    | title => rw [Change.texts, Change.texts, hitem _ _ hs.content hs'.content]
    | _ => cases hk
  | body =>
    cases ha' with
    | body => rw [Change.texts, Change.texts, hitem _ _ hs.content hs'.content]
    | _ => cases hk

end Resolution

/-- **Two documents part** at an instruction of the same keyword. If they have the same model, and
no complaint, then a text that both instructions give is the same. -/
theorem get?_eq_of_models {before is is' : List Instruction} {i i' : Instruction} {m m' : Model}
    (hm : Model.ofInstructions settings (before ++ i :: is) = m)
    (hm' : Model.ofInstructions settings (before ++ i' :: is') = m')
    (hd : m.diagnostics = .empty) (hd' : m'.diagnostics = .empty) (hk : i.keyword = i'.keyword)
    (hstyles : m.styles = m'.styles) (hpage : m.pageNumber = m'.pageNumber)
    (hcontent : m.content.map Item.style = m'.content.map Item.style) {name : String}
    (hname : name ∈ i.keyword.textNames) {v v' : Literal} (hv : i.arguments.get? name = some v)
    (hv' : i'.arguments.get? name = some v') : v = v' := by
  subst hm hm'
  rw [Model.ofInstructions, List.foldl_append, List.foldl_cons] at hd hstyles hpage hcontent
  rw [Model.ofInstructions, List.foldl_append, List.foldl_cons] at hd' hstyles hpage hcontent
  rw [Resolution.map_style_finish, Resolution.map_style_finish] at hcontent
  obtain ⟨c, ha, hstep⟩ := Resolution.accepts_of_diagnostics hd
  obtain ⟨c', ha', hstep'⟩ := Resolution.accepts_of_diagnostics hd'
  rw [hstep, hstep'] at hstyles hpage hcontent
  have htexts := Resolution.texts_eq_of_grows ha ha' hk (Resolution.grows_foldl_step _ _ _)
    (Resolution.grows_foldl_step _ _ _) hstyles hpage hcontent
  rw [← Resolution.textNames_of_accepts ha] at hname
  obtain ⟨e, he, rfl⟩ := List.mem_map.1 hname
  rw [Resolution.written_of_accepts ha e he v hv,
    Resolution.written_of_accepts ha' e (htexts ▸ he) v' hv']

end Folio
