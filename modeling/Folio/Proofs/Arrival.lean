import Folio.Diagnostic
import Mathlib.Data.List.Basic

/-!
# Diagnostics in the order of arrival

**Arrivals** (`Diagnostics.Call`). Diagnostics come one by one or several at once. Either way each
goes to the end of the list of its severity (`foldl_receive_eq_extend`), so after any calls the two
lists are the arrivals of one severity each (`errors_ofCalls`, `warnings_ofCalls`).

**Stability** (`filter_mergeSort`). A sort does not move elements past each other that may stand in
either order.

**Theorem (`diagnostics_kept_and_sorted`).** No diagnostic is lost, and in source order those of one
line are its errors as they came and then its warnings as they came.
-/

namespace Folio

namespace Diagnostics

/-! ## Calls -/

inductive Call where
  | push (d : Diagnostic)
  | extend (more : List Diagnostic)
  deriving DecidableEq, Repr

/-- The diagnostics that come with a call. -/
def Call.arrivals : Call → List Diagnostic
  | push d => [d]
  | extend more => more

def receive (ds : Diagnostics) : Call → Diagnostics
  | .push d => ds.push d
  | .extend more => ds.extend more

/-- What there is after the calls, one after the other. -/
def ofCalls (calls : List Call) : Diagnostics := calls.foldl receive empty

/-- **One call.** -/
theorem receive_eq_extend (ds : Diagnostics) (call : Call) :
    ds.receive call = ds.extend call.arrivals := by
  cases call with
  | push d => rfl
  | extend more => rfl

/-- **A run of calls.** -/
theorem foldl_receive_eq_extend (ds : Diagnostics) (calls : List Call) :
    calls.foldl receive ds = ds.extend (calls.flatMap Call.arrivals) := by
  induction calls generalizing ds with
  | nil => rfl
  | cons call calls ih =>
    rw [List.foldl_cons, ih, receive_eq_extend, List.flatMap_cons]
    simp only [extend, List.foldl_append]

theorem errors_ofCalls (calls : List Call) :
    (ofCalls calls).errors = (calls.flatMap Call.arrivals).filter (·.severity = .error) := by
  rw [ofCalls, foldl_receive_eq_extend, errors_extend]
  rfl

theorem warnings_ofCalls (calls : List Call) :
    (ofCalls calls).warnings = (calls.flatMap Call.arrivals).filter (·.severity = .warning) := by
  rw [ofCalls, foldl_receive_eq_extend, warnings_extend]
  rfl

/-- There are errors and warnings, and nothing else. -/
theorem perm_severities (ds : List Diagnostic) :
    (ds.filter (·.severity = .error) ++ ds.filter (·.severity = .warning)).Perm ds := by
  have hwarning : ∀ d : Diagnostic,
      decide (d.severity = .warning) = !decide (d.severity = .error) := by
    intro d
    cases d.severity <;> rfl
  simp only [hwarning]
  exact List.filter_append_perm _ ds

end Diagnostics

/-! ## Stability -/

/-- **A sort is stable.** Elements that may stand in any order stay in the one they have. -/
theorem filter_mergeSort {α : Type} {le : α → α → Bool}
    (trans : ∀ a b c, le a b → le b c → le a c) (total : ∀ a b, le a b || le b a)
    {p : α → Bool} (hp : ∀ a b, p a → p b → le a b) (l : List α) :
    (l.mergeSort le).filter p = l.filter p := by
  have hpairwise : (l.filter p).Pairwise (le · ·) := by
    apply List.pairwise_of_forall_mem_list
    intro a ha b hb
    exact hp a b (List.mem_filter.1 ha).2 (List.mem_filter.1 hb).2
  have hsublist : (l.filter p).Sublist (l.mergeSort le) :=
    List.sublist_mergeSort trans total hpairwise List.filter_sublist
  have hfiltered : (l.filter p).Sublist ((l.mergeSort le).filter p) := by
    simpa using hsublist.filter p
  have hlength : (l.filter p).length = ((l.mergeSort le).filter p).length :=
    ((List.mergeSort_perm l le).filter p).length_eq.symm
  exact (hfiltered.eq_of_length hlength).symm

namespace Diagnostics

/-! ## The order of lines -/

theorem line_le_trans (a b c : Diagnostic) (hab : decide (a.line ≤ b.line))
    (hbc : decide (b.line ≤ c.line)) : decide (a.line ≤ c.line) := by
  rw [decide_eq_true_eq] at hab hbc ⊢
  exact Nat.le_trans hab hbc

theorem line_le_total (a b : Diagnostic) :
    decide (a.line ≤ b.line) || decide (b.line ≤ a.line) := by
  rw [Bool.or_eq_true, decide_eq_true_eq, decide_eq_true_eq]
  exact Nat.le_total a.line b.line

theorem pairwise_inSourceOrder (ds : Diagnostics) :
    ds.inSourceOrder.Pairwise fun d e => d.line ≤ e.line := by
  have h := List.pairwise_mergeSort line_le_trans line_le_total ds.all
  simpa [inSourceOrder] using h

/-- In source order the errors of a line come first, and each list keeps its order. -/
theorem filter_line_inSourceOrder (ds : Diagnostics) (line : Nat) :
    ds.inSourceOrder.filter (·.line = line) =
      ds.errors.filter (·.line = line) ++ ds.warnings.filter (·.line = line) := by
  have hline : ∀ a b : Diagnostic, decide (a.line = line) → decide (b.line = line) →
      decide (a.line ≤ b.line) := by
    intro a b ha hb
    rw [decide_eq_true_eq] at ha hb ⊢
    exact Nat.le_of_eq (ha.trans hb.symm)
  rw [inSourceOrder, filter_mergeSort line_le_trans line_le_total hline, all, List.filter_append]

theorem withCode_eq_append (ds : Diagnostics) (c : Diagnostic.Code) :
    ds.withCode c = ds.errors.filter (·.code = c) ++ ds.warnings.filter (·.code = c) := by
  rw [withCode, all, List.filter_append]

end Diagnostics

open Diagnostics

/-- **Diagnostics are kept and sorted stably.** After any calls the errors are the errors among the
arrivals, in their order, and so are the warnings; nothing else has arrived. Source order has the
same diagnostics, by line; of each line it has the errors in the order of arrival, then the warnings
so. A search for a code finds the errors with it and then the warnings with it, again in the order
of arrival. -/
theorem diagnostics_kept_and_sorted (calls : List Call) :
    let ds := ofCalls calls
    let arrivals := calls.flatMap Call.arrivals
    let errors := arrivals.filter (·.severity = .error)
    let warnings := arrivals.filter (·.severity = .warning)
    (ds.errors = errors ∧ ds.warnings = warnings ∧ (errors ++ warnings).Perm arrivals) ∧
      (ds.inSourceOrder.Perm (errors ++ warnings) ∧
        ds.inSourceOrder.Pairwise (fun d e => d.line ≤ e.line) ∧
        ∀ line, ds.inSourceOrder.filter (·.line = line) =
          errors.filter (·.line = line) ++ warnings.filter (·.line = line)) ∧
      ∀ c, ds.withCode c = errors.filter (·.code = c) ++ warnings.filter (·.code = c) := by
  intro ds arrivals errors warnings
  have herrors : ds.errors = errors := errors_ofCalls calls
  have hwarnings : ds.warnings = warnings := warnings_ofCalls calls
  rw [← herrors, ← hwarnings]
  refine ⟨⟨rfl, rfl, ?_⟩, ⟨inSourceOrder_perm ds, pairwise_inSourceOrder ds, ?_⟩, ?_⟩
  · rw [herrors, hwarnings]
    exact perm_severities arrivals
  · exact filter_line_inSourceOrder ds
  · exact withCode_eq_append ds

/-- Two errors and a warning of one line, behind a warning of a later one. -/
example :
    let error (message : String) : Diagnostic := ⟨.error, .unknownStyle, 2, message⟩
    let warning (line : Nat) : Diagnostic := ⟨.warning, .unknownColor, line, "w"⟩
    (ofCalls [.push (warning 5), .extend [warning 2, error "b"], .push (error "a")]).inSourceOrder =
      [error "b", error "a", warning 2, warning 5] := by
  cbv

end Folio
