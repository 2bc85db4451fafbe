import Folio.Proofs.Roundtrip

/-!
# The labels of pages

**Counting up** (`PageNumber.CountsUp`). Pages are counted from 1, as far as a word of 32 bits goes.
Just the pages from the start page on have labels, the first of these has the label 1, the label of
every page is one more than that of the page in front of it, and none needs more than 32 bits.

**Theorem (`page_labels_count_up_iff`).** The labels of a compiled document count up just if its
start page is not 0. Accepted settings guarantee this if and only if their least start page is not
0.

There is no page 0. But while settings are not accepted if they allow a level 0, a start at page 0
is nowhere ruled out (`page_labels_from_zero`).
-/

namespace Folio

namespace PageNumber

/-- The labels count 1, 2, 3, … from the start page on. -/
structure CountsUp (n : PageNumber) : Prop where
  labelled : ∀ page, 1 ≤ page → ((n.label? page).isSome ↔ n.start ≤ page)
  first : ∀ page label, 1 ≤ page → n.label? page = some label →
    (∀ earlier, 1 ≤ earlier → earlier < page → n.label? earlier = none) → label = 1
  next : ∀ page following label, 1 ≤ page → following.toNat = page.toNat + 1 →
    n.label? page = some label →
      ∃ label', n.label? following = some label' ∧ label'.toNat = label.toNat + 1
  fits : ∀ page, 1 ≤ page → n.start ≤ page → page.toNat - n.start.toNat + 1 < UInt32.size

variable {n : PageNumber} {page : UInt32}

theorem label?_of_lt (h : page < n.start) : n.label? page = none := if_pos h

theorem label?_of_le (h : n.start ≤ page) : n.label? page = some (page - n.start + 1) :=
  if_neg (UInt32.not_lt.2 h)

theorem label?_isSome_iff : (n.label? page).isSome ↔ n.start ≤ page := by
  by_cases h : n.start ≤ page
  · simp [label?_of_le h, h]
  · simp [label?_of_lt (UInt32.not_le.1 h), h]

theorem one_le_of_ne_zero (h : page ≠ 0) : 1 ≤ page := by
  apply UInt32.le_iff_toNat_le.2
  exact Nat.pos_of_ne_zero fun h0 => h (UInt32.toNat_inj.1 h0)

/-- From page 1 on, the start page can be taken away and 1 added in words of 32 bits. -/
theorem toNat_label (hstart : n.start ≠ 0) (h : n.start ≤ page) :
    (page - n.start + 1).toNat = page.toNat - n.start.toNat + 1 := by
  have hpos : 1 ≤ n.start.toNat := UInt32.le_iff_toNat_le.1 (one_le_of_ne_zero hstart)
  have hle := UInt32.le_iff_toNat_le.1 h
  have hpage := page.toNat_lt
  rw [UInt32.toNat_add, UInt32.toNat_sub_of_le _ _ h, UInt32.toNat_one]
  apply Nat.mod_eq_of_lt
  omega

/-- A start at page 0 makes every label too large by one. -/
theorem label?_of_start_eq_zero (h : n.start = 0) : n.label? page = some (page + 1) := by
  have hle : n.start ≤ page := by
    rw [h]
    exact UInt32.le_iff_toNat_le.2 (Nat.zero_le _)
  rw [label?_of_le hle, h, UInt32.sub_zero]

theorem countsUp_of_start_ne_zero (hstart : n.start ≠ 0) : n.CountsUp where
  labelled := fun _ _ => label?_isSome_iff
  first := by
    intro page label _ hlabel hearlier
    have hle : n.start ≤ page := label?_isSome_iff.1 (by rw [hlabel]; rfl)
    rw [label?_of_le hle, Option.some.injEq] at hlabel
    -- The start page has a label itself, so it is not in front of the first page that has one.
    have hfirst : page ≤ n.start := by
      apply UInt32.not_lt.1
      intro hlt
      have hnone := hearlier n.start (one_le_of_ne_zero hstart) hlt
      rw [label?_of_le (UInt32.le_refl _)] at hnone
      cases hnone
    rw [← hlabel, UInt32.le_antisymm hfirst hle, UInt32.sub_self, UInt32.zero_add]
  next := by
    intro page following label _ hfollowing hlabel
    have hle : n.start ≤ page := label?_isSome_iff.1 (by rw [hlabel]; rfl)
    have hnat := UInt32.le_iff_toNat_le.1 hle
    have hle' : n.start ≤ following := UInt32.le_iff_toNat_le.2 (by omega)
    rw [label?_of_le hle, Option.some.injEq] at hlabel
    refine ⟨_, label?_of_le hle', ?_⟩
    rw [← hlabel, toNat_label hstart hle, toNat_label hstart hle', hfollowing]
    omega
  fits := by
    intro page _ hle
    rw [← toNat_label hstart hle]
    exact UInt32.toNat_lt _

/-- **The labels count up** just if the start page is not 0. -/
theorem countsUp_iff : n.CountsUp ↔ n.start ≠ 0 := by
  constructor
  · intro h hstart
    -- The label of the last page of all does not fit then.
    have hlast := h.fits (.ofNat (UInt32.size - 1)) (by decide) (by rw [hstart]; decide)
    rw [hstart] at hlast
    exact absurd hlast (by decide)
  · exact countsUp_of_start_ne_zero

end PageNumber

/-! ## Start pages of compiled documents -/

variable {settings : Settings}

/-- A source that asks for page numbers from page 0 on. -/
def startAtZero : String := "$pageNumber(#pageNumberStart=0)"

theorem read_startAtZero : Instruction.read (Scan.ofSource startAtZero).tokens =
    .ok [.directive .pageNumber (.ofList [("pageNumberStart", .number 0)]) 1] := by
  have htokens : (Scan.ofSource startAtZero).tokens =
      [⟨.keyword (.directive .pageNumber), "$pageNumber", 1, 0, 11⟩, ⟨.openParen, "(", 1, 11, 12⟩,
        ⟨.argumentName "pageNumberStart", "#pageNumberStart", 1, 12, 28⟩, ⟨.equals, "=", 1, 28, 29⟩,
        ⟨.number 0, "0", 1, 29, 30⟩, ⟨.closeParen, ")", 1, 30, 31⟩] := by
    decide +kernel
  rw [htokens]
  rfl

/-- If settings allow page 0, a source can start there. -/
theorem exists_start_eq_zero (hmin : settings.limits.pageStart.min = 0) :
    ∃ c, Compilation.ofSource settings startAtZero = .ok c ∧ c.model.pageNumber.start = 0 := by
  let args : Arguments := .ofList [("pageNumberStart", .number 0)]
  let bounds := settings.limits.pageStart
  have hzero : bounds.contains 0 := by
    simp [bounds, Bounds.contains_iff, hmin]
  refine ⟨⟨_, _, _⟩, Compilation.ofSource_eq_ok_iff.2 ⟨_, read_startAtZero, rfl⟩, ?_⟩
  show (args.number "pageNumberStart" bounds settings.pageNumber.start).value = 0
  show (Arguments.numberWithin "pageNumberStart" bounds settings.pageNumber.start 0).value = 0
  rw [Arguments.numberWithin, if_pos hzero]
  rfl

theorem start_ne_zero_of_valid {m : Model} (hm : m.Valid settings)
    (hmin : settings.limits.pageStart.min ≠ 0) : m.pageNumber.start ≠ 0 := by
  intro hstart
  have hle := (Bounds.contains_iff.1 (hm.pageNumber _ rfl).2).1
  rw [hstart] at hle
  apply hmin
  apply UInt32.toNat_inj.1
  exact Nat.le_zero.1 (Int.ofNat_le.1 hle)

/-- **When labels count up.** Under accepted settings, the labels of a compiled document count up
just if its start page is not 0. They do so for every source just if the settings allow no start at
page 0. -/
theorem page_labels_count_up_iff {layers : List Layer}
    (hl : Settings.ofLayers layers = .ok settings) :
    (∀ source c, Compilation.ofSource settings source = .ok c →
      (c.model.pageNumber.CountsUp ↔ c.model.pageNumber.start ≠ 0)) ∧
    ((∀ source c, Compilation.ofSource settings source = .ok c → c.model.pageNumber.CountsUp) ↔
      settings.limits.pageStart.min ≠ 0) := by
  refine ⟨fun _ _ _ => PageNumber.countsUp_iff, ?_, ?_⟩
  · intro hall hmin
    obtain ⟨c, hc, hstart⟩ := exists_start_eq_zero hmin
    exact PageNumber.countsUp_iff.1 (hall _ c hc) hstart
  · intro hmin source c hc
    have hsound := Settings.sound_of_flaws (Settings.flaws_of_ofLayers hl)
    have hvalid := Compilation.valid_ofSource hsound hc
    exact PageNumber.countsUp_iff.2 (start_ne_zero_of_valid hvalid hmin)

theorem page_labels_count_up_standard :
    Settings.ofLayers [] = .ok .standard ∧
      ∀ source c, Compilation.ofSource .standard source = .ok c → c.model.pageNumber.CountsUp :=
  ⟨Settings.ofLayers_nil, (page_labels_count_up_iff Settings.ofLayers_nil).2.2 (by decide)⟩

/-- Settings that allow a start at page 0 are accepted. Then page 1 can have the label 2. -/
theorem page_labels_from_zero :
    ∃ settings, Settings.ofLayers [.override "limits.page_start.min" (.ofWord 0)] = .ok settings ∧
      ∃ c, Compilation.ofSource settings startAtZero = .ok c ∧ ¬ c.model.pageNumber.CountsUp ∧
        c.model.pageNumber.label? 1 = some 2 := by
  let settings : Settings :=
    { Settings.standard with limits := { Settings.standard.limits with pageStart := ⟨0, 9999⟩ } }
  have hmin : settings.limits.pageStart.min = 0 := rfl
  obtain ⟨c, hc, hstart⟩ := exists_start_eq_zero hmin
  refine ⟨settings, by decide +kernel, c, hc, ?_, ?_⟩
  · exact fun h => PageNumber.countsUp_iff.1 h hstart
  · exact PageNumber.label?_of_start_eq_zero hstart

end Folio
