import Folio.Proofs.Verdict
import Folio.Settings.Layer
import Mathlib.Data.List.Nodup

/-!
# Every model is valid

**Sound settings** (`Settings.Sound`). Settings that were accepted fall back only to what they
allow: every default lies inside its limits and names a registered font and a known colour.

**The invariant** (`Resolution.Valid`). The built-in styles come first, style names are distinct
and the set of names holds just these, every look is allowed, every level is inside its limits,
every item names a style that is there, and no emphasis is empty.

**Theorem (`valid_of_ofLayers`).** With accepted settings the invariant holds behind any
instructions, and the model made from them has the same properties.

One step keeps the invariant (`valid_step`): rejection leaves all of it untouched, and each change
that an instruction can be accepted with is built from values that were checked or are defaults.
-/

namespace Folio

/-! ## Sound settings -/

namespace Settings

/-- The styles that every document has from the start. -/
def builtinStyles (settings : Settings) : List Style :=
  [settings.styles.body.style, settings.styles.title.style]

/-- A registered font, a size inside its limits and a known colour. -/
structure Allows (settings : Settings) (font : String) (size : UInt32) (color : String) :
    Prop where
  font : settings.isRegisteredFont font
  size : settings.limits.fontSize.contains size.toNat
  color : settings.isKnownColor color

def AllowsStyle (settings : Settings) (s : Style) : Prop :=
  settings.Allows s.font s.fontSize s.fontColor

def AllowsPageNumber (settings : Settings) (n : PageNumber) : Prop :=
  settings.Allows n.font n.fontSize n.fontColor ∧ settings.limits.pageStart.contains n.start.toNat

def AllowsLevel (settings : Settings) (level : UInt32) : Prop :=
  settings.limits.titleLevel.contains level.toNat

/-- What the settings fall back to is allowed. -/
structure Sound (settings : Settings) : Prop where
  styles : ∀ s ∈ settings.builtinStyles, settings.AllowsStyle s
  names : (settings.builtinStyles.map (·.name)).Nodup
  pageNumber : settings.AllowsPageNumber settings.pageNumber
  titleLevel : settings.AllowsLevel settings.titleLevel
  numberingStart : settings.AllowsLevel settings.numberingStart

theorem filterMap_check_eq_nil_iff {α : Type} {check : α → Bool} {flaw : α → Flaw}
    {l : List α} :
    (l.filterMap fun a => if check a then none else some (flaw a)) = [] ↔
      ∀ a ∈ l, check a := by
  simp [List.filterMap_eq_nil_iff]

theorem sound_of_flaws {settings : Settings} (h : settings.flaws = []) : settings.Sound := by
  simp only [flaws, List.append_eq_nil_iff] at h
  obtain ⟨⟨⟨⟨-, hrange⟩, hfont⟩, hcolor⟩, hname⟩ := h
  have hrange := filterMap_check_eq_nil_iff.1 hrange
  have hfont := filterMap_check_eq_nil_iff.1 hfont
  have hcolor := filterMap_check_eq_nil_iff.1 hcolor
  simp only [List.forall_mem_cons] at hrange hfont hcolor
  obtain ⟨hbody, htitle, hnumber, hstart, hlevel, hnumbering, -⟩ := hrange
  obtain ⟨-, hbodyFont, htitleFont, hnumberFont, -⟩ := hfont
  obtain ⟨-, hbodyColor, htitleColor, hnumberColor, -⟩ := hcolor
  have hdistinct : settings.styles.body.name ≠ settings.styles.title.name := fun heq => by
    simp [nameFlaws, heq] at hname
  exact {
    styles := by
      rintro s (_ | ⟨_, _ | ⟨_, ⟨⟩⟩⟩)
      · exact ⟨hbodyFont, hbody, hbodyColor⟩
      · exact ⟨htitleFont, htitle, htitleColor⟩
    names := by simpa [builtinStyles, StyleSettings.style] using hdistinct
    pageNumber := ⟨⟨hnumberFont, hnumber, hnumberColor⟩, hstart⟩
    titleLevel := hlevel
    numberingStart := hnumbering }

/-- Without layers the settings are the standard ones. -/
theorem ofLayers_nil : ofLayers [] = .ok standard := by decide +kernel

end Settings

/-! ## Readings are allowed -/

namespace Arguments

variable {settings : Settings}

/-- A font is the default, or it is written and registered. -/
theorem font_value (args : Arguments) (name fallback : String) :
    (args.font settings name fallback).value = fallback ∨
      args.text? name = some (args.font settings name fallback).value ∧
        settings.isRegisteredFont (args.font settings name fallback).value := by
  unfold font
  cases args.text? name with
  | none => exact .inl rfl
  | some s =>
    by_cases hs : settings.isRegisteredFont s
    · simp [hs, Corrected.plain]
    · simp [hs, Corrected.replaced]

/-- A colour is the default, or it is written and known. -/
theorem color_value (args : Arguments) (name fallback : String) :
    (args.color settings name fallback).value = fallback ∨
      args.text? name = some (args.color settings name fallback).value ∧
        settings.isKnownColor (args.color settings name fallback).value := by
  unfold color
  cases args.text? name with
  | none => exact .inl rfl
  | some s =>
    by_cases hs : settings.isKnownColor s
    · simp [hs, Corrected.plain]
    · simp [hs, Corrected.replaced]

theorem isRegisteredFont_font {args : Arguments} {name fallback : String}
    (hf : settings.isRegisteredFont fallback) :
    settings.isRegisteredFont (args.font settings name fallback).value := by
  rcases args.font_value name fallback with h | ⟨-, h⟩
  · exact h.symm ▸ hf
  · exact h

theorem isKnownColor_color {args : Arguments} {name fallback : String}
    (hf : settings.isKnownColor fallback) :
    settings.isKnownColor (args.color settings name fallback).value := by
  rcases args.color_value name fallback with h | ⟨-, h⟩
  · exact h.symm ▸ hf
  · exact h

theorem allows_style (h : settings.Sound) (args : Arguments) (name : String) :
    settings.AllowsStyle (args.style settings name).value := by
  have hbase := h.styles settings.styles.body.style (by simp [Settings.builtinStyles])
  exact ⟨isRegisteredFont_font hbase.font, number_mem_bounds hbase.size,
    isKnownColor_color hbase.color⟩

theorem allows_pageNumber (h : settings.Sound) (args : Arguments) :
    settings.AllowsPageNumber (args.pageNumber settings).value := by
  obtain ⟨hlook, hstart⟩ := h.pageNumber
  exact ⟨⟨isRegisteredFont_font hlook.font, number_mem_bounds hlook.size,
    isKnownColor_color hlook.color⟩, number_mem_bounds hstart⟩

theorem allows_numberingStart (h : settings.Sound) (args : Arguments) :
    settings.AllowsLevel (args.numberingStart settings).value :=
  number_mem_bounds h.numberingStart

theorem allows_titleLevel (h : settings.Sound) (args : Arguments) :
    settings.AllowsLevel (args.titleLevel settings).value :=
  number_mem_bounds h.titleLevel

end Arguments

/-! ## The invariant -/

/-- The item names one of the styles, a title has an allowed level, and no emphasis is empty. -/
def Item.Valid (settings : Settings) (styles : List Style) : Item → Prop
  | title t => t.style ∈ styles.map (·.name) ∧ settings.AllowsLevel t.level
  | body s =>
    s.style ∈ styles.map (·.name) ∧ ∀ r ∈ s.content, r.emphasis ≠ none → r.text ≠ ""

/-- What a state and a model have in common. -/
structure Settings.Permits (settings : Settings) (styles : List Style)
    (pageNumber : Option PageNumber) (numberingStart : Option UInt32) (content : List Item) :
    Prop where
  front : styles.take 2 = settings.builtinStyles
  builtin : styles.filter (·.builtin) = settings.builtinStyles
  names : (styles.map (·.name)).Nodup
  looks : ∀ s ∈ styles, settings.AllowsStyle s
  pageNumber : ∀ n, pageNumber = some n → settings.AllowsPageNumber n
  numberingStart : ∀ level, numberingStart = some level → settings.AllowsLevel level
  content : ∀ i ∈ content, i.Valid settings styles

structure Resolution.Valid (settings : Settings) (r : Resolution) : Prop where
  names : ∀ name, name ∈ r.names ↔ name ∈ r.styles.map (·.name)
  permits : settings.Permits r.styles r.pageNumber r.numberingStart r.content

def Model.Valid (settings : Settings) (m : Model) : Prop :=
  settings.Permits m.styles (some m.pageNumber) m.numberingStart m.content

theorem Item.Valid.mono {settings : Settings} {styles more : List Style} {i : Item}
    (h : i.Valid settings styles) : i.Valid settings (styles ++ more) := by
  cases i with
  | title t => exact ⟨by simpa using .inl (by simpa using h.1), h.2⟩
  | body s => exact ⟨by simpa using .inl (by simpa using h.1), h.2⟩

namespace Resolution

variable {settings : Settings} {r : Resolution}

theorem valid_start (h : settings.Sound) : (start settings).Valid settings where
  names := fun _ => Iff.rfl
  permits := {
    front := rfl
    builtin := rfl
    names := h.names
    looks := h.styles
    pageNumber := by rintro n ⟨⟩
    numberingStart := by rintro level ⟨⟩
    content := List.forall_mem_nil _ }

theorem Valid.hasStyle_iff (h : r.Valid settings) {name : String} :
    r.hasStyle name ↔ name ∈ r.styles.map (·.name) := by
  rw [hasStyle, List.contains_iff_mem]
  exact h.names name

/-- A style under a new name. -/
theorem valid_change_style (h : r.Valid settings) {s : Style} (hnew : r.hasStyle s.name = false)
    (hlook : settings.AllowsStyle s) (hbuiltin : s.builtin = false) :
    (r.change (.style s)).Valid settings := by
  have hfresh : s.name ∉ r.styles.map (·.name) := by
    rw [← h.hasStyle_iff, hnew]
    exact Bool.false_ne_true
  have hlen : 2 ≤ r.styles.length := by
    have := congrArg List.length h.permits.front
    simp only [List.length_take, Settings.builtinStyles, List.length_cons, List.length_nil] at this
    omega
  refine ⟨fun name => ?_, { h.permits with
    front := ?_, builtin := ?_, names := ?_, looks := ?_, content := ?_ }⟩
  · simp only [change, List.mem_insert_iff, h.names, List.map_append, List.mem_append,
      List.map_singleton, List.mem_singleton]
    exact or_comm
  · rw [← h.permits.front]
    exact List.take_append_of_le_length hlen
  · rw [← h.permits.builtin]
    simp [change, hbuiltin]
  · simp only [change, List.map_append, List.map_singleton]
    exact List.nodup_append.2 ⟨h.permits.names, by simp, by simpa using hfresh⟩
  · intro t ht
    rcases List.mem_append.1 ht with ht | ht
    · exact h.permits.looks t ht
    · rwa [List.mem_singleton.1 ht]
  · exact fun i hi => (h.permits.content i hi).mono

theorem valid_change_item (h : r.Valid settings) {i : Item} (hi : i.Valid settings r.styles) :
    (r.change (.item i)).Valid settings := by
  refine ⟨h.names, { h.permits with content := fun j hj => ?_ }⟩
  rcases List.mem_append.1 hj with hj | hj
  · exact h.permits.content j hj
  · rwa [List.mem_singleton.1 hj]

/-- The runs of content without errors. -/
theorem text_ne_empty_of_run? {n : Node} (h : n.sectionError? = none) {run : Run}
    (hrun : n.run? = some run) (he : run.emphasis ≠ none) : run.text ≠ "" := by
  cases n with
  | text s =>
    cases hrun
    exact absurd rfl he
  | instruction i =>
    cases i with
    | emphasis kind s line =>
      cases hrun
      simpa [Node.sectionError?] using h
    | directive kind args line => cases hrun
    | block kind args content line => cases hrun

/-- **The change of an accepted instruction** keeps the invariant. -/
theorem valid_change (hs : settings.Sound) (h : r.Valid settings) {i : Instruction} {c : Change}
    {corrections : List Correction} (ha : Accepts settings r i c corrections) :
    (r.change c).Valid settings := by
  cases ha with
  | style _ _ hnew => exact valid_change_style h hnew (Arguments.allows_style hs _ _) rfl
  | pageNumber _ _ =>
    refine ⟨h.names, { h.permits with pageNumber := ?_ }⟩
    rintro n ⟨⟩
    exact Arguments.allows_pageNumber hs _
  | numberizeTitle _ =>
    refine ⟨h.names, { h.permits with numberingStart := ?_ }⟩
    rintro level ⟨⟩
    exact Arguments.allows_numberingStart hs _
  | title _ hstyle _ =>
    exact valid_change_item h ⟨h.hasStyle_iff.1 hstyle, Arguments.allows_titleLevel hs _⟩
  | body _ hstyle hcontent =>
    refine valid_change_item h ⟨h.hasStyle_iff.1 hstyle, fun run hrun => ?_⟩
    obtain ⟨n, hn, hnrun⟩ := List.mem_filterMap.1 hrun
    exact text_ne_empty_of_run? (hcontent n hn) hnrun

/-- **A step** keeps the invariant. -/
theorem valid_step (hs : settings.Sound) (h : r.Valid settings) (i : Instruction) :
    (r.step settings i).Valid settings := by
  cases hj : r.judge settings i with
  | rejected errors =>
    rw [step_of_rejected hj]
    exact ⟨h.names, h.permits⟩
  | accepted c warnings =>
    obtain ⟨corrections, ha, -⟩ := judge_eq_accepted_iff.1 hj
    have hc := valid_change hs h ha
    rw [step_of_accepted hj]
    exact ⟨hc.names, hc.permits⟩

/-- **A run** keeps the invariant. -/
theorem valid_foldl_step (hs : settings.Sound) (h : r.Valid settings) (is : List Instruction) :
    (is.foldl (step settings) r).Valid settings := by
  induction is generalizing r with
  | nil => exact h
  | cons i is ih => exact ih (valid_step hs h i)

/-! ## The model -/

/-- A property of items that a number in front of a title does not break. -/
theorem forall_numberFrom {P : Item → Prop}
    (hP : ∀ c start t, P (.title t) → P (.title (TitleNumber.numberTitle c start t)))
    {start deepest : UInt32} {c : TitleNumber.Counters} {content : List Item}
    (h : ∀ i ∈ content, P i) :
    ∀ i ∈ TitleNumber.numberFrom start deepest c content, P i := by
  induction content generalizing c with
  | nil => exact List.forall_mem_nil _
  | cons j content ih =>
    obtain ⟨hj, hrest⟩ := List.forall_mem_cons.1 h
    cases j with
    | body s => exact List.forall_mem_cons.2 ⟨hj, ih hrest⟩
    | title t =>
      rw [TitleNumber.numberFrom]
      split
      · exact List.forall_mem_cons.2 ⟨hP c start t hj, ih hrest⟩
      · exact List.forall_mem_cons.2 ⟨hj, ih hrest⟩

theorem content_finish_of_none (h : r.numberingStart = none) :
    (r.finish settings).content = r.content := by
  simp [finish, h]

theorem content_finish_of_some {start : UInt32} (h : r.numberingStart = some start) :
    (r.finish settings).content =
      numberTitles start settings.limits.titleLevel r.content := by
  simp [finish, h]

theorem forall_content_finish {P : Item → Prop}
    (hP : ∀ c start t, P (.title t) → P (.title (TitleNumber.numberTitle c start t)))
    (h : ∀ i ∈ r.content, P i) : ∀ i ∈ (r.finish settings).content, P i := by
  cases hstart : r.numberingStart with
  | none =>
    rw [content_finish_of_none hstart]
    exact h
  | some start =>
    rw [content_finish_of_some hstart]
    exact forall_numberFrom hP h

theorem pageNumber_finish {P : PageNumber → Prop} (hs : P settings.pageNumber)
    (h : ∀ n, r.pageNumber = some n → P n) : P (r.finish settings).pageNumber := by
  show P (r.pageNumber.getD settings.pageNumber)
  cases hn : r.pageNumber with
  | none => exact hs
  | some n => exact h n hn

theorem valid_finish (hs : settings.Sound) (h : r.Valid settings) :
    (r.finish settings).Valid settings := by
  refine { h.permits with
    pageNumber := ?_, content := forall_content_finish (fun _ _ _ ht => ht) h.permits.content }
  rintro n ⟨⟩
  exact pageNumber_finish hs.pageNumber h.permits.pageNumber

end Resolution

theorem Model.valid_ofInstructions {settings : Settings} (hs : settings.Sound)
    (is : List Instruction) : (Model.ofInstructions settings is).Valid settings :=
  Resolution.valid_finish hs (Resolution.valid_foldl_step hs (Resolution.valid_start hs) is)

/-- **Every state and every model is valid** under settings that were accepted. -/
theorem valid_of_ofLayers {layers : List Layer} {settings : Settings}
    (h : Settings.ofLayers layers = .ok settings) (is : List Instruction) :
    (is.foldl (Resolution.step settings) (.start settings)).Valid settings ∧
      (Model.ofInstructions settings is).Valid settings :=
  have hs := Settings.sound_of_flaws (Settings.flaws_of_ofLayers h)
  ⟨Resolution.valid_foldl_step hs (Resolution.valid_start hs) is,
    Model.valid_ofInstructions hs is⟩

theorem valid_of_ofLayers_standard :
    let is : List Instruction :=
      [.directive .style (.ofList [("name", .text "s"), ("fontSize", .number 900)]) 1,
        .emphasis .bold "b" 2, .block .title (.ofList [("style", .text "s")]) [.text "t"] 3]
    Settings.ofLayers [] = .ok Settings.standard ∧
      (is.foldl (Resolution.step .standard) (.start .standard)).Valid .standard ∧
        (Model.ofInstructions .standard is).Valid .standard :=
  ⟨Settings.ofLayers_nil, valid_of_ofLayers Settings.ofLayers_nil _⟩

end Folio
