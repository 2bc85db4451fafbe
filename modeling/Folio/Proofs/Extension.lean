import Folio.Proofs.Growth

/-!
# Longer documents

What more instructions at the end of a document do to its model.

**Theorem (`extends_append`).** Styles, errors and warnings of the longer document begin with those
of the shorter one. Page numbers stay once an instruction that sets them is accepted. The items
begin with those of the shorter document as well, apart from the numbers in front of titles; and
with the same start of numbering, even these are the same.

Resolution only adds to a state, which `grows_foldl_step` says already. What is left is the pass
that numbers titles. It runs over the whole content afresh, but a number counts the titles in front
of it only, so the items that come later do not matter (`numberFrom_isPrefix`).
-/

namespace Folio

/-- The item with the text of a title left out. -/
def Item.shape : Item → Item
  | title t => .title { t with text := "" }
  | body s => .body s

namespace Resolution

variable {settings : Settings}

/-! ## Titles in front -/

/-- **The numbers of titles do not depend on later items.** -/
theorem numberFrom_isPrefix (start deepest : UInt32) (c : TitleNumber.Counters)
    {content more : List Item} (h : content <+: more) :
    TitleNumber.numberFrom start deepest c content <+:
      TitleNumber.numberFrom start deepest c more := by
  obtain ⟨rest, rfl⟩ := h
  induction content generalizing c with
  | nil => exact List.nil_prefix
  | cons i content ih =>
    cases i with
    | body s => exact (List.prefix_cons_inj _).2 (ih c)
    | title t =>
      rw [List.cons_append, TitleNumber.numberFrom, TitleNumber.numberFrom]
      split
      · exact (List.prefix_cons_inj _).2 (ih _)
      · exact (List.prefix_cons_inj _).2 (ih c)

theorem content_finish_isPrefix {r s : Resolution} (h : r.content <+: s.content)
    (hstart : s.numberingStart = r.numberingStart) :
    (r.finish settings).content <+: (s.finish settings).content := by
  cases hr : r.numberingStart with
  | none =>
    rw [content_finish_of_none hr, content_finish_of_none (hstart.trans hr)]
    exact h
  | some start =>
    rw [content_finish_of_some hr, content_finish_of_some (hstart.trans hr)]
    exact numberFrom_isPrefix _ _ _ h

theorem shape_finish_isPrefix {r s : Resolution} (h : r.content <+: s.content) :
    (r.finish settings).content.map Item.shape <+: (s.finish settings).content.map Item.shape := by
  have hshape := map_finish (f := Item.shape) (fun _ _ _ => rfl) settings
  rw [hshape, hshape]
  exact h.map Item.shape

/-! ## Page numbers -/

theorem exists_pageNumber_step {r : Resolution} {i : Instruction}
    (h : (r.step settings i).diagnostics.errors = r.diagnostics.errors)
    (hk : i.keyword = .directive .pageNumber) :
    ∃ n, (r.step settings i).pageNumber = some n := by
  obtain ⟨c, warnings, hj⟩ := errors_step_eq_iff.1 h
  obtain ⟨corrections, ha, -⟩ := judge_eq_accepted_iff.1 hj
  rw [step_of_accepted hj]
  cases ha with
  | pageNumber => exact ⟨_, rfl⟩
  | _ => cases hk

/-- Page numbers are set behind a document in which they were accepted. -/
theorem exists_pageNumber_of_survivor {r : Resolution} {is : List Instruction} {i : Instruction}
    (h : i ∈ survivors settings r is) (hk : i.keyword = .directive .pageNumber) :
    ∃ n, (is.foldl (step settings) r).pageNumber = some n := by
  induction is generalizing r with
  | nil => cases h
  | cons j is ih =>
    rw [survivors] at h
    split at h
    · next herrors =>
      rcases List.mem_cons.1 h with rfl | h
      · obtain ⟨n, hn⟩ := exists_pageNumber_step herrors hk
        exact ⟨n, (grows_foldl_step settings _ is).pageNumber n hn⟩
      · exact ih h
    · exact ih h

end Resolution

/-- **A longer document** adds to the model at the end, and changes at most the numbers of
titles. -/
theorem extends_append (settings : Settings) (xs ys : List Instruction) :
    let m := Model.ofInstructions settings xs
    let m' := Model.ofInstructions settings (xs ++ ys)
    m.styles <+: m'.styles ∧ m.diagnostics.errors <+: m'.diagnostics.errors ∧
      m.diagnostics.warnings <+: m'.diagnostics.warnings ∧
      ((∃ i ∈ Resolution.survivors settings (.start settings) xs,
        i.keyword = .directive .pageNumber) → m'.pageNumber = m.pageNumber) ∧
      m.content.map Item.shape <+: m'.content.map Item.shape ∧
      (m'.numberingStart = m.numberingStart → m.content <+: m'.content) := by
  have hgrows :=
    Resolution.grows_foldl_step settings (xs.foldl (.step settings) (.start settings)) ys
  simp only [Model.ofInstructions, List.foldl_append]
  refine ⟨hgrows.styles, hgrows.errors, hgrows.warnings, ?_,
    Resolution.shape_finish_isPrefix hgrows.content,
    Resolution.content_finish_isPrefix hgrows.content⟩
  rintro ⟨i, hi, hk⟩
  obtain ⟨n, hn⟩ := Resolution.exists_pageNumber_of_survivor hi hk
  rw [Resolution.pageNumber_finish_of_some hn,
    Resolution.pageNumber_finish_of_some (hgrows.pageNumber n hn)]

theorem extends_append_numbered :
    let pages : Instruction :=
      .directive .pageNumber (.ofList [("pageNumberStart", .number 3)]) 1
    let xs : List Instruction :=
      [pages, .directive .numberizeTitle .empty 2, .block .title .empty [.text "a"] 3]
    let ys : List Instruction :=
      [.directive .pageNumber .empty 4, .block .title .empty [.text "b"] 5]
    let m := Model.ofInstructions .standard xs
    let m' := Model.ofInstructions .standard (xs ++ ys)
    pages ∈ Resolution.survivors .standard (.start .standard) xs ∧
      m'.pageNumber = m.pageNumber ∧ m'.numberingStart = m.numberingStart ∧
      m.content <+: m'.content := by
  intro pages xs ys m m'
  obtain ⟨-, -, -, hpage, -, hcontent⟩ := extends_append .standard xs ys
  have hsurvivor : pages ∈ Resolution.survivors .standard (.start .standard) xs := by
    rw [Resolution.survivors, if_pos (by decide +kernel)]
    exact List.mem_cons_self
  have hstart : m'.numberingStart = m.numberingStart := by decide +kernel
  exact ⟨hsurvivor, hpage ⟨pages, hsurvivor, rfl⟩, hstart, hcontent hstart⟩

end Folio
