import Folio.Proofs.Reading
import Folio.Settings.Standard

/-!
# Layout

The kinds of the tokens are what a document says. Their texts, lines and spans tell how it is laid
out.

**Alike** (`ReadAlike`). Two token lists come to the same: to instructions that differ in lines at
most, or to errors in the same context, at the same place of both lists.

**Theorem (`kinds_decide`).** Token lists of the same kinds are read alike, and under any settings
the models of their documents differ in the lines of diagnostics at most.

The two readers run in lockstep. Between two steps their states differ in lines only
(`step?_withoutLines`), and what may come next does not depend on lines.
-/

namespace Folio

/-! ## Without lines -/

/-- The instruction and all that it holds, the lines aside. -/
def Instruction.withoutLines (i : Instruction) : Instruction := i.mapLine fun _ => 0

/-- The model, the lines of its diagnostics aside. -/
def Model.withoutLines (m : Model) : Model := m.mapLine fun _ => 0

/-- Instructions that differ in lines only have models that do. -/
theorem Model.withoutLines_ofInstructions (settings : Settings) {is js : List Instruction}
    (h : is.map Instruction.withoutLines = js.map Instruction.withoutLines) :
    (Model.ofInstructions settings is).withoutLines =
      (Model.ofInstructions settings js).withoutLines := by
  have hmap : ∀ ks : List Instruction, (Model.ofInstructions settings ks).withoutLines =
      Model.ofInstructions settings (ks.map Instruction.withoutLines) :=
    fun ks => (ofInstructions_mapLine (fun _ => 0) settings ks).symm
  rw [hmap, hmap, h]

/-! ## Reading in lockstep -/

/-- Two token lists come to the same, the lines aside. -/
inductive ReadAlike (ts us : List Token) :
    Except SyntaxError (List Instruction) → Except SyntaxError (List Instruction) → Prop
  | document {is js : List Instruction} :
      is.map Instruction.withoutLines = js.map Instruction.withoutLines →
      ReadAlike ts us (.ok is) (.ok js)
  | errorAtEnd (line line' : Nat) (context : Context) :
      ReadAlike ts us (.error ⟨none, line, context⟩) (.error ⟨none, line', context⟩)
  | errorAt {k : Nat} {t u : Token} (context : Context) : ts[k]? = some t → us[k]? = some u →
      ReadAlike ts us (.error ⟨some t, t.line, context⟩) (.error ⟨some u, u.line, context⟩)

/-- What is found behind two first tokens is found in the whole lists. -/
theorem ReadAlike.cons {t u : Token} {ts us : List Token}
    {x y : Except SyntaxError (List Instruction)} (h : ReadAlike ts us x y) :
    ReadAlike (t :: ts) (u :: us) x y := by
  cases h with
  | document h => exact .document h
  | errorAtEnd line line' context => exact .errorAtEnd line line' context
  | @errorAt k t' u' context ht hu =>
    exact .errorAt (k := k + 1) context (by simpa using ht) (by simpa using hu)

namespace Reader

def withoutLines (r : Reader) : Reader := r.mapLine fun _ => 0

variable {r s : Reader}

theorem context_of_withoutLines (h : r.withoutLines = s.withoutLines) :
    r.phase.context = s.phase.context := by
  have hphase : r.phase.mapLine (fun _ => 0) = s.phase.mapLine fun _ => 0 :=
    congrArg Reader.phase h
  rw [← Phase.context_mapLine (fun _ => 0) r.phase, hphase, Phase.context_mapLine]

theorem document?_of_withoutLines (h : r.withoutLines = s.withoutLines) :
    r.document?.map (List.map Instruction.withoutLines) =
      s.document?.map (List.map Instruction.withoutLines) := by
  have hmap : ∀ r' : Reader, r'.document?.map (List.map Instruction.withoutLines) =
      r'.withoutLines.document? := fun r' => (document?_mapLine (fun _ => 0) r').symm
  rw [hmap, hmap, h]

/-- **A step in lockstep.** Tokens of one kind take states that differ in lines only to such states,
or neither of them goes on. -/
theorem step?_withoutLines {t u : Token} (h : r.withoutLines = s.withoutLines)
    (hk : t.kind = u.kind) :
    (r.step? t).map withoutLines = (s.step? u).map withoutLines := by
  have hleaf : (t.mapLine fun _ => 0).leaf = (u.mapLine fun _ => 0).leaf := by
    rw [leaf_mapLine_zero, leaf_mapLine_zero, hk]
  calc
    (r.step? t).map withoutLines = r.withoutLines.step? (t.mapLine fun _ => 0) :=
      (step?_mapLine (fun _ => 0) r t).symm
    _ = s.withoutLines.step? (u.mapLine fun _ => 0) := by
      rw [h, ← step?_token_leaf, hleaf, step?_token_leaf]
    _ = (s.step? u).map withoutLines := step?_mapLine (fun _ => 0) s u

/-- **A run in lockstep.** -/
theorem readAlike_readFrom (h : r.withoutLines = s.withoutLines) {ts us : List Token}
    (hkinds : ts.map (·.kind) = us.map (·.kind)) (line line' : Nat) :
    ReadAlike ts us (r.readFrom line ts) (s.readFrom line' us) := by
  induction ts generalizing r s us line line' with
  | nil =>
    obtain rfl : us = [] := List.map_eq_nil_iff.1 hkinds.symm
    have hdocument := document?_of_withoutLines h
    rw [readFrom, readFrom, context_of_withoutLines h]
    cases hr : r.document? <;> cases hs : s.document? <;> rw [hr, hs] at hdocument
    · exact .errorAtEnd line line' _
    · cases hdocument
    · cases hdocument
    · exact .document (Option.some.inj hdocument)
  | cons t ts ih =>
    cases us with
    | nil => cases hkinds
    | cons u us =>
      obtain ⟨hk, hkinds⟩ := List.cons.inj hkinds
      have hstep := step?_withoutLines h hk
      rw [readFrom, readFrom, context_of_withoutLines h]
      cases hr : r.step? t <;> cases hs : s.step? u <;> rw [hr, hs] at hstep
      · exact .errorAt (k := 0) _ rfl rfl
      · cases hstep
      · cases hstep
      · exact (ih (Option.some.inj hstep) hkinds t.line u.line).cons

end Reader

/-! ## Only the kinds count -/

/-- **The kinds decide.** Token lists of the same kinds are both read or both not. If they are,
their instructions differ in lines only, and under any settings the models do, in the lines of
their diagnostics. If they are not, both errors are at the end, or both at the same place, and the
context is the same. -/
theorem kinds_decide {ts us : List Token} (h : ts.map (·.kind) = us.map (·.kind)) :
    ReadAlike ts us (Instruction.read ts) (Instruction.read us) ∧
      ∀ settings is js, Instruction.read ts = .ok is → Instruction.read us = .ok js →
        (Model.ofInstructions settings is).withoutLines =
          (Model.ofInstructions settings js).withoutLines := by
  have halike : ReadAlike ts us (Instruction.read ts) (Instruction.read us) :=
    Reader.readAlike_readFrom rfl h 1 1
  refine ⟨halike, fun settings is js hts hus => ?_⟩
  rw [hts, hus] at halike
  cases halike with
  | document hsame => exact Model.withoutLines_ofInstructions settings hsame

/-- A document that is complained about, on one line and on three. -/
theorem kinds_decide_broken_lines :
    let ts : List Token := [⟨.keyword (.emphasis .bold), "$bold", 1, 0, 5⟩,
      ⟨.openParen, "(", 1, 5, 6⟩, ⟨.closeParen, ")", 1, 6, 7⟩, ⟨.openBrace, "\x7b", 1, 7, 8⟩,
      ⟨.closeBrace, "\x7d", 1, 8, 9⟩]
    let us : List Token := [⟨.keyword (.emphasis .bold), "$bold", 2, 1, 6⟩,
      ⟨.openParen, "(", 2, 7, 8⟩, ⟨.closeParen, ")", 2, 8, 9⟩, ⟨.openBrace, "\x7b", 3, 10, 11⟩,
      ⟨.closeBrace, "\x7d", 3, 11, 12⟩]
    ts.map (·.kind) = us.map (·.kind) ∧
      ReadAlike ts us (.ok [.emphasis .bold "" 1]) (.ok [.emphasis .bold "" 2]) ∧
        (Model.ofInstructions .standard [.emphasis .bold "" 1]).withoutLines =
          (Model.ofInstructions .standard [.emphasis .bold "" 2]).withoutLines := by
  intro ts us
  have h : ts.map (·.kind) = us.map (·.kind) := rfl
  exact ⟨h, (kinds_decide h).1, (kinds_decide h).2 .standard _ _ rfl rfl⟩

end Folio
