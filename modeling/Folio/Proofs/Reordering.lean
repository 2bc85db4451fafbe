import Folio.Proofs.Growth
import Folio.Proofs.Precedence
import Mathlib.Data.Fintype.Basic
import Mathlib.Data.List.FinRange
import Mathlib.Logic.Equiv.Fin.Rotate
import Mathlib.Tactic.FinCases

/-!
# Instructions in another order

**Links** (`Linked`). The order counts between two directives of a kind, between two blocks, and
between a block and a style under the name that the block uses. It does not count between others.

**Rearrangements** (`Rearranged`). The same instructions at other places, where no two linked ones
are turned round.

**Theorem (`ofInstructions_rearranged`).** A rearranged document has the same model, with its errors
and its warnings in another order.

Two instructions that are not linked can be taken in either order from any state (`alike_swap`): the
verdict on one is the same behind the other (`judge_step`), and their changes are to different parts
of the state. A rearrangement moves one instruction after the other to the front, past such as it is
not linked to (`Reorders`).
-/

namespace Folio

/-! ## Rearrangements -/

section Rearrangements

variable {α ι : Type} {R : α → α → Prop}

/-- The second list has the elements of the first at other places, and related elements that follow
each other do so still. -/
def Rearranged (R : α → α → Prop) (xs ys : List α) : Prop :=
  ∃ σ : Fin xs.length ≃ Fin ys.length,
    (∀ k, ys.get (σ k) = xs.get k) ∧ ∀ j k, j < k → R (xs.get j) (xs.get k) → σ j < σ k

/-- The first element is found behind elements that it is not related to, and the others are
rearranged in the same way when it is taken out. -/
inductive Reorders (R : α → α → Prop) : List α → List α → Prop
  | nil : Reorders R [] []
  | cons {x : α} {xs as bs : List α} : (∀ a ∈ as, ¬ R x a) → Reorders R xs (as ++ bs) →
      Reorders R (x :: xs) (as ++ x :: bs)

/-- A rearrangement given by the old places in their new order. -/
theorem reorders_map [LinearOrder ι] {f : ι → α} {is l : List ι} (hsorted : is.Pairwise (· < ·))
    (hperm : l.Perm is) (hkept : l.Pairwise fun a b => b < a → ¬ R (f b) (f a)) :
    Reorders R (is.map f) (l.map f) := by
  induction is generalizing l with
  | nil =>
    rw [List.perm_nil.1 hperm]
    exact .nil
  | cons i is ih =>
    obtain ⟨as, bs, rfl⟩ := List.append_of_mem (hperm.mem_iff.2 List.mem_cons_self)
    have hrest : (as ++ bs).Perm is := (List.perm_middle.symm.trans hperm).cons_inv
    obtain ⟨hfirst, hsorted⟩ := List.pairwise_cons.1 hsorted
    obtain ⟨-, -, hcross⟩ := List.pairwise_append.1 hkept
    rw [List.map_append, List.map_cons, List.map_cons]
    refine .cons (fun a ha => ?_) ?_
    · obtain ⟨j, hj, rfl⟩ := List.mem_map.1 ha
      have hlt := hfirst j (hrest.subset (List.mem_append_left bs hj))
      exact hcross j hj i List.mem_cons_self hlt
    · rw [← List.map_append]
      have hsub : (as ++ bs).Sublist (as ++ i :: bs) :=
        (List.sublist_cons_self i bs).append_left as
      exact ih hsorted hrest (hkept.sublist hsub)

theorem reorders_of_rearranged {xs ys : List α} (h : Rearranged R xs ys) : Reorders R xs ys := by
  obtain ⟨σ, hσ, hkept⟩ := h
  -- The old places, in the order in which the second list has their elements.
  let places : List (Fin xs.length) := List.ofFn σ.symm
  have hys : places.map xs.get = ys := by
    have hget : xs.get ∘ σ.symm = ys.get := by
      funext k
      rw [Function.comp_apply, ← hσ, Equiv.apply_symm_apply]
    rw [List.map_ofFn, hget, List.ofFn_get]
  have hxs : (List.finRange xs.length).map xs.get = xs := by
    rw [List.finRange, List.map_ofFn]
    exact List.ofFn_get xs
  have hperm : places.Perm (List.finRange xs.length) := by
    refine (List.perm_ext_iff_of_nodup (List.nodup_ofFn.2 σ.symm.injective)
      (List.nodup_finRange _)).2 fun k => ?_
    exact iff_of_true (List.mem_ofFn.2 ⟨σ k, σ.symm_apply_apply k⟩) (List.mem_finRange k)
  have hpairwise : places.Pairwise fun a b => b < a → ¬ R (xs.get b) (xs.get a) := by
    refine List.pairwise_ofFn.2 fun j k hjk hlt hR => ?_
    have hturned := hkept _ _ hlt hR
    rw [Equiv.apply_symm_apply, Equiv.apply_symm_apply] at hturned
    exact absurd hturned hjk.asymm
  have hsorted : (List.finRange xs.length).Pairwise (· < ·) :=
    List.pairwise_ofFn.2 fun _ _ hlt => hlt
  have hreorders := reorders_map hsorted hperm hpairwise
  rwa [hxs, hys] at hreorders

end Rearrangements

/-! ## Links -/

namespace Instruction

/-- The name that a `$style` gives. -/
def declaredName? : Instruction → Option String
  | directive .style args _ => args.text? "name"
  | _ => none

/-- The style that a block uses, named or by default. A number names none. -/
def usedStyle? (settings : Settings) : Instruction → Option String
  | block kind args _ _ =>
    match args.get? "style" with
    | some (.number _) => none
    | _ => some (args.blockStyle settings kind)
  | _ => none

theorem usedStyle?_of_wellSigned {settings : Settings} {kind : BlockKind} {args : Arguments}
    {content : List Node} {line : Nat} (h : (block kind args content line).WellSigned) :
    (block kind args content line).usedStyle? settings = some (args.blockStyle settings kind) := by
  have hsigned : (Signature.ofBlock kind).lookup "style" = some .text := by cases kind <;> rfl
  rw [usedStyle?]
  split
  · next v hv =>
    obtain ⟨s, hs, -⟩ := Arguments.text?_of_wellSigned h hsigned hv
    cases hs
  · rfl

end Instruction

/-- Two instructions whose order counts. -/
inductive Linked (settings : Settings) : Instruction → Instruction → Prop
  | directives {kind : DirectiveKind} {args args' : Arguments} {line line' : Nat} :
      Linked settings (.directive kind args line) (.directive kind args' line')
  | blocks {kind kind' : BlockKind} {args args' : Arguments} {content content' : List Node}
      {line line' : Nat} :
      Linked settings (.block kind args content line) (.block kind' args' content' line')
  | declared {i j : Instruction} {name : String} : i.declaredName? = some name →
      j.usedStyle? settings = some name → Linked settings i j
  | used {i j : Instruction} {name : String} : i.usedStyle? settings = some name →
      j.declaredName? = some name → Linked settings i j

theorem Linked.symm {settings : Settings} {i j : Instruction} (h : Linked settings i j) :
    Linked settings j i := by
  cases h with
  | directives => exact .directives
  | blocks => exact .blocks
  | declared hi hj => exact .used hj hi
  | used hi hj => exact .declared hj hi

/-- Where numbering is asked for counts only among the instructions that do so. -/
theorem keyword_of_linked_numbering {settings : Settings} {args : Arguments} {line : Nat}
    {j : Instruction} (h : Linked settings (.directive .numberizeTitle args line) j) :
    j.keyword = .directive .numberizeTitle := by
  cases h with
  | directives => rfl
  | declared hi => cases hi
  | used hi => cases hi

namespace Resolution

variable {settings : Settings} {r s t : Resolution} {i j : Instruction}

/-! ## What a verdict depends on -/

/-- A verdict looks at the name that the instruction gives or uses, and for page numbers at whether
they are set. -/
theorem judge_congr
    (hname : ∀ name, i.declaredName? = some name ∨ i.usedStyle? settings = some name →
      r.hasStyle name = s.hasStyle name)
    (hpage : i.keyword = .directive .pageNumber → r.pageNumber.isSome = s.pageNumber.isSome) :
    r.judge settings i = s.judge settings i := by
  cases i with
  | directive kind args line =>
    cases kind with
    | style =>
      have hjudge : r.judgeStyle settings args line = s.judgeStyle settings args line := by
        unfold judgeStyle
        cases hn : args.text? "name" with
        | none => rfl
        | some name => simp only [hname name (.inl hn)]
      exact congrArg (Verdict.ofErrors _) hjudge
    | pageNumber =>
      have hjudge : r.judgePageNumber settings args line =
          s.judgePageNumber settings args line := by
        rw [judgePageNumber, judgePageNumber, hpage rfl]
      exact congrArg (Verdict.ofErrors _) hjudge
    | numberizeTitle => rfl
  | block kind args content line =>
    by_cases hs : (Instruction.block kind args content line).WellSigned
    · have hstyle := hname _ (.inr (Instruction.usedStyle?_of_wellSigned hs))
      have herrors : r.styleErrors kind (args.blockStyle settings kind) line =
          s.styleErrors kind (args.blockStyle settings kind) line := by
        rw [styleErrors, styleErrors, hstyle]
      cases kind with
      | title =>
        have hjudge : r.judgeTitle settings args content line =
            s.judgeTitle settings args content line :=
          congrArg (fun es => Verdict.ofErrors (es ++ _) _) herrors
        exact congrArg (Verdict.ofErrors _) hjudge
      | body =>
        have hjudge : r.judgeSection settings args content line =
            s.judgeSection settings args content line :=
          congrArg (fun es => Verdict.ofErrors (es ++ _) _) herrors
        exact congrArg (Verdict.ofErrors _) hjudge
    · have hne : signatureErrors (.ofBlock kind) (.block kind) args line ≠ [] :=
        fun h => hs (signatureErrors_eq_nil_iff.1 h)
      exact (ofErrors_of_ne_nil hne).trans (ofErrors_of_ne_nil hne).symm
  | emphasis kind text line => rfl

theorem exists_of_asks? {c : Change} (h : i.asks? settings = some c) :
    ∃ kind args line, i = .directive kind args line ∧ args.change? settings kind = some c := by
  cases i with
  | directive kind args line =>
    by_cases hs : (Instruction.directive kind args line).WellSigned
    · exact ⟨kind, args, line, rfl, (Instruction.asks?_of_wellSigned hs).symm.trans h⟩
    · cases (Instruction.asks?_of_not_wellSigned hs).symm.trans h
  | _ => cases h

theorem exists_of_style? {style : Style} (h : i.style? settings = some style) :
    ∃ args line, i = .directive .style args line ∧ args.text? "name" = some style.name := by
  obtain ⟨c, hc, hstyle⟩ := Option.bind_eq_some_iff.1 h
  obtain ⟨kind, args, line, rfl, hchange⟩ := exists_of_asks? hc
  cases kind with
  | style =>
    obtain ⟨name, hname, rfl⟩ := Option.map_eq_some_iff.1 hchange
    cases hstyle
    exact ⟨args, line, rfl, hname⟩
  | _ =>
    cases hchange
    cases hstyle

theorem exists_of_pageNumber? {n : PageNumber} (h : i.pageNumber? settings = some n) :
    ∃ args line, i = .directive .pageNumber args line := by
  obtain ⟨c, hc, hn⟩ := Option.bind_eq_some_iff.1 h
  obtain ⟨kind, args, line, rfl, hchange⟩ := exists_of_asks? hc
  cases kind with
  | style =>
    obtain ⟨name, -, rfl⟩ := Option.map_eq_some_iff.1 hchange
    cases hn
  | pageNumber => exact ⟨args, line, rfl⟩
  | numberizeTitle =>
    cases hchange
    cases hn

theorem exists_of_declaredName? {name : String} (h : i.declaredName? = some name) :
    ∃ args line, i = .directive .style args line := by
  unfold Instruction.declaredName? at h
  split at h
  · exact ⟨_, _, rfl⟩
  · cases h

/-- The verdict on an instruction is the same behind one that it is not linked to. -/
theorem judge_step (h : ¬ Linked settings i j) :
    (r.step settings i).judge settings j = r.judge settings j := by
  refine judge_congr (fun name hname => ?_) fun hpage => ?_
  · rw [hasStyle_step]
    cases hstyle : i.style? settings with
    | none => simp
    | some style =>
      obtain ⟨args, line, rfl, hi⟩ := exists_of_style? hstyle
      have hne : name ≠ style.name := by
        rintro rfl
        obtain hj | hj := hname
        · obtain ⟨args', line', rfl⟩ := exists_of_declaredName? hj
          exact h .directives
        · exact h (.declared hi hj)
      simp [hne]
  · rw [pageNumber_step]
    cases hn : i.pageNumber? settings with
    | none => simp
    | some n =>
      obtain ⟨args, line, rfl⟩ := exists_of_pageNumber? hn
      cases j with
      | directive kind args' line' =>
        cases hpage
        exact absurd .directives h
      | _ => cases hpage

/-! ## States that differ in the order of diagnostics -/

/-- The two states are the same but for the order of the errors and that of the warnings. -/
structure Alike (r s : Resolution) : Prop where
  styles : r.styles = s.styles
  names : r.names = s.names
  pageNumber : r.pageNumber = s.pageNumber
  numberingStart : r.numberingStart = s.numberingStart
  content : r.content = s.content
  errors : r.diagnostics.errors.Perm s.diagnostics.errors
  warnings : r.diagnostics.warnings.Perm s.diagnostics.warnings

theorem Alike.refl (r : Resolution) : r.Alike r :=
  ⟨rfl, rfl, rfl, rfl, rfl, .refl _, .refl _⟩

theorem Alike.trans (h : r.Alike s) (h' : s.Alike t) : r.Alike t :=
  ⟨h.styles.trans h'.styles, h.names.trans h'.names, h.pageNumber.trans h'.pageNumber,
    h.numberingStart.trans h'.numberingStart, h.content.trans h'.content,
    h.errors.trans h'.errors, h.warnings.trans h'.warnings⟩

theorem alike_change (h : r.Alike s) (c : Change) : (r.change c).Alike (s.change c) := by
  cases c with
  | style style =>
    exact { h with styles := congrArg (· ++ [style]) h.styles,
                   names := congrArg (·.insert style.name) h.names }
  | pageNumber n => exact { h with pageNumber := rfl }
  | numberingStart level => exact { h with numberingStart := rfl }
  | item item => exact { h with content := congrArg (· ++ [item]) h.content }

theorem alike_report (h : r.Alike s) (ds : List Diagnostic) :
    (r.report ds).Alike (s.report ds) := by
  refine { h with errors := ?_, warnings := ?_ }
  · rw [report, report, Diagnostics.errors_extend, Diagnostics.errors_extend]
    exact h.errors.append_right _
  · rw [report, report, Diagnostics.warnings_extend, Diagnostics.warnings_extend]
    exact h.warnings.append_right _

theorem alike_report_report (r : Resolution) (ds es : List Diagnostic) :
    ((r.report ds).report es).Alike ((r.report es).report ds) := by
  refine ⟨rfl, rfl, rfl, rfl, rfl, ?_, ?_⟩
  · simp only [report, Diagnostics.errors_extend, List.append_assoc]
    exact List.perm_append_comm.append_left _
  · simp only [report, Diagnostics.warnings_extend, List.append_assoc]
    exact List.perm_append_comm.append_left _

theorem alike_apply (h : r.Alike s) (v : Verdict) : (r.apply v).Alike (s.apply v) := by
  cases v with
  | rejected errors => exact alike_report h errors
  | accepted c warnings => exact alike_report (alike_change h c) warnings

theorem alike_step (h : r.Alike s) (i : Instruction) :
    (r.step settings i).Alike (s.step settings i) := by
  have hjudge : r.judge settings i = s.judge settings i :=
    judge_congr (fun name _ => congrArg (·.contains name) h.names)
      fun _ => congrArg Option.isSome h.pageNumber
  rw [step, step, hjudge]
  exact alike_apply h _

theorem alike_foldl_step (h : r.Alike s) (is : List Instruction) :
    (is.foldl (step settings) r).Alike (is.foldl (step settings) s) := by
  induction is generalizing r s with
  | nil => exact h
  | cons i is ih => exact ih (alike_step h i)

/-! ## Two instructions in either order -/

theorem change_report (r : Resolution) (ds : List Diagnostic) (c : Change) :
    (r.report ds).change c = (r.change c).report ds := by
  cases c <;> rfl

/-- The changes of two instructions that are not linked are to different parts of a state. -/
theorem change_change {c d : Change} {cs ds : List Correction} (hi : Accepts settings r i c cs)
    (hj : Accepts settings r j d ds) (h : ¬ Linked settings i j) (t : Resolution) :
    (t.change c).change d = (t.change d).change c := by
  cases hi with
  | style =>
    cases hj with
    | style => exact absurd .directives h
    | _ => rfl
  | pageNumber =>
    cases hj with
    | pageNumber => exact absurd .directives h
    | _ => rfl
  | numberizeTitle =>
    cases hj with
    | numberizeTitle => exact absurd .directives h
    | _ => rfl
  | title =>
    cases hj with
    | title => exact absurd .blocks h
    | body => exact absurd .blocks h
    | _ => rfl
  | body =>
    cases hj with
    | title => exact absurd .blocks h
    | body => exact absurd .blocks h
    | _ => rfl

/-- **Two instructions that are not linked** can be taken in either order. -/
theorem alike_swap (h : ¬ Linked settings i j) (r : Resolution) :
    ((r.step settings i).step settings j).Alike ((r.step settings j).step settings i) := by
  have hij : (r.step settings i).step settings j =
      (r.apply (r.judge settings i)).apply (r.judge settings j) := by
    rw [step, judge_step h, step]
  have hji : (r.step settings j).step settings i =
      (r.apply (r.judge settings j)).apply (r.judge settings i) := by
    rw [step, judge_step fun hlinked => h hlinked.symm, step]
  rw [hij, hji]
  cases hi : r.judge settings i with
  | rejected errors =>
    cases hj : r.judge settings j with
    | rejected errors' => exact alike_report_report r errors errors'
    | accepted d warnings =>
      simp only [apply, change_report]
      exact alike_report_report _ errors warnings
  | accepted c warnings =>
    cases hj : r.judge settings j with
    | rejected errors =>
      simp only [apply, change_report]
      exact alike_report_report _ warnings errors
    | accepted d warnings' =>
      obtain ⟨cs, hc, -⟩ := judge_eq_accepted_iff.1 hi
      obtain ⟨ds, hd, -⟩ := judge_eq_accepted_iff.1 hj
      simp only [apply, change_report, change_change hc hd h]
      exact alike_report_report _ warnings warnings'

/-- An instruction can be taken in front of such as it is not linked to. -/
theorem alike_pass {is : List Instruction} (h : ∀ j ∈ is, ¬ Linked settings i j)
    (r : Resolution) :
    (is.foldl (step settings) (r.step settings i)).Alike
      ((is.foldl (step settings) r).step settings i) := by
  induction is generalizing r with
  | nil => exact Alike.refl _
  | cons j is ih =>
    obtain ⟨hj, his⟩ := List.forall_mem_cons.1 h
    exact (alike_foldl_step (alike_swap hj r) is).trans (ih his _)

/-- **A rearranged document** leads to the same state but for the order of diagnostics. -/
theorem alike_of_reorders {xs ys : List Instruction} (h : Reorders (Linked settings) xs ys)
    (r : Resolution) : (xs.foldl (step settings) r).Alike (ys.foldl (step settings) r) := by
  induction h generalizing r with
  | nil => exact Alike.refl r
  | @cons i xs as bs hpass _ ih =>
    have hfront := ih (r.step settings i)
    rw [List.foldl_append] at hfront
    rw [List.foldl_cons, List.foldl_append, List.foldl_cons]
    exact hfront.trans (alike_foldl_step (alike_pass hpass r) bs)

end Resolution

/-- **Instructions that are not linked can change places.** The model stays the same but for the
order of its errors and warnings. -/
theorem ofInstructions_rearranged {settings : Settings} {xs ys : List Instruction}
    (h : Rearranged (Linked settings) xs ys) :
    let m := Model.ofInstructions settings xs
    let m' := Model.ofInstructions settings ys
    m.styles = m'.styles ∧ m.pageNumber = m'.pageNumber ∧ m.numberingStart = m'.numberingStart ∧
      m.content = m'.content ∧ m.diagnostics.errors.Perm m'.diagnostics.errors ∧
      m.diagnostics.warnings.Perm m'.diagnostics.warnings := by
  have halike := Resolution.alike_of_reorders (reorders_of_rearranged h) (.start settings)
  refine ⟨halike.styles, ?_, halike.numberingStart, ?_, halike.errors, halike.warnings⟩
  · exact congrArg (·.getD settings.pageNumber) halike.pageNumber
  · simp only [Model.ofInstructions, Resolution.finish, halike.numberingStart, halike.content]

/-- It does not matter where the numbering of titles is asked for. -/
theorem ofInstructions_rearranged_numbering :
    let numbering : Instruction := .directive .numberizeTitle .empty 1
    let rest : List Instruction :=
      [.block .title .empty [.text "a"] 2,
        .directive .style (.ofList [("name", .text "s"), ("fontSize", .number 0)]) 3,
        .block .body (.ofList [("style", .text "s")]) [.text "b"] 4]
    let m := Model.ofInstructions .standard (numbering :: rest)
    let m' := Model.ofInstructions .standard (rest ++ [numbering])
    Rearranged (Linked .standard) (numbering :: rest) (rest ++ [numbering]) ∧
      m.styles = m'.styles ∧ m.content = m'.content ∧
        m.diagnostics.warnings.Perm m'.diagnostics.warnings := by
  intro numbering rest m m'
  have hfree : ∀ i ∈ rest, ¬ Linked .standard numbering i := by
    intro i hi hlinked
    have hkeyword := keyword_of_linked_numbering hlinked
    simp only [rest, List.mem_cons, List.not_mem_nil, or_false] at hi
    obtain rfl | rfl | rfl := hi <;> cases hkeyword
  have h : Rearranged (Linked .standard) (numbering :: rest) (rest ++ [numbering]) := by
    refine ⟨(finRotate 4).symm, ?_, fun j k hjk hlinked => ?_⟩
    · intro (k : Fin 4)
      fin_cases k <;> rfl
    · induction j using Fin.cases with
      | zero =>
        induction k using Fin.cases with
        | zero => exact absurd hjk (lt_irrefl _)
        | succ k => exact absurd hlinked (hfree _ (List.get_mem rest k))
      | succ j =>
        have hkept : ∀ (j : Fin 3) (k : Fin 4), j.succ < k →
            (finRotate 4).symm j.succ < (finRotate 4).symm k := by decide
        exact hkept j k hjk
  obtain ⟨hstyles, -, -, hcontent, -, hwarnings⟩ := ofInstructions_rearranged h
  exact ⟨h, hstyles, hcontent, hwarnings⟩

end Folio
