import Folio.Proofs.SourceOrder
import Mathlib.Data.List.DropRight

/-!
# Lines and columns

**Of an offset** (`lineAt`, `columnAt`). One more than the line feeds in the source in front of it,
and one more than the characters there behind the last of them.

**Cursors** (`Cursor`). What lines and columns need not be kept for every character: a cursor moves
from item to item. It looks at a character only when an item behind it begins, and counts the
columns of a line only then (`Cursor.places`).

**Theorem (`lines_and_columns_exact`).** The line of each token, the line and column of each illegal
character, and those that a cursor finds for all of them in turn, are those of their offsets.

Positions and cursors both say something about the source in front of them. For positions it is
`advance_start`, for cursors `Cursor.Stands`. Characters move it along one by one (`stands_pass`),
so it does not matter whether they are blanks, or parts of tokens, or illegal (`places_of_finds`).
-/

namespace Folio

/-! ## Lines and columns of offsets -/

/-- The line of an offset. -/
def lineAt (source : String) (offset : Nat) : Nat := 1 + (slice source 0 offset).toList.count '\n'

/-- The end of a text behind its last line feed. -/
def lastLine (cs : List Char) : List Char := cs.rtakeWhile (· != '\n')

/-- The column of an offset, in characters. -/
def columnAt (source : String) (offset : Nat) : Nat :=
  1 + (lastLine (slice source 0 offset).toList).length

theorem lastLine_concat (cs : List Char) (c : Char) :
    lastLine (cs ++ [c]) = if c = '\n' then [] else lastLine cs ++ [c] := by
  rw [lastLine, List.rtakeWhile_concat]
  by_cases hc : c = '\n' <;> simp [hc, lastLine]

/-- A position tells the line and column behind a text. -/
theorem Position.advance_start (cs : List Char) :
    start.advance cs = ⟨1 + cs.count '\n', 1 + (lastLine cs).length, String.utf8Len cs⟩ := by
  induction cs using List.reverseRecOn with
  | nil => rfl
  | append_singleton cs c ih =>
    rw [advance_append, ih, advance_cons, advance_nil, step, lastLine_concat]
    by_cases hc : c = '\n'
    · simp [hc, Nat.add_assoc]
    · simp [hc, Nat.add_assoc]

section Source

variable {source : String} {before rest : List Char}

theorem slice_zero (h : source.toList = before ++ rest) :
    slice source 0 (String.utf8Len before) = String.ofList before := by
  have hslice : slice source (String.utf8Len []) (String.utf8Len [] + String.utf8Len before) =
      String.ofList before := slice_eq [] before rest (by simpa using h)
  simpa using hslice

theorem lineAt_eq (h : source.toList = before ++ rest) :
    lineAt source (String.utf8Len before) = 1 + before.count '\n' := by
  rw [lineAt, slice_zero h, String.toList_ofList]

theorem columnAt_eq (h : source.toList = before ++ rest) :
    columnAt source (String.utf8Len before) = 1 + (lastLine before).length := by
  rw [columnAt, slice_zero h, String.toList_ofList]

end Source

/-! ## Cursors -/

/-- A line, the offset at which it begins, and the offset up to which characters were looked at. -/
structure Cursor where
  line : Nat
  lineStart : Nat
  passed : Nat
  deriving DecidableEq, Repr

namespace Cursor

def start : Cursor := ⟨1, 0, 0⟩

/-- Past one more character. -/
def pass (k : Cursor) (c : Char) : Cursor :=
  if c = '\n' then ⟨k.line + 1, k.passed + c.utf8Size, k.passed + c.utf8Size⟩
  else ⟨k.line, k.lineStart, k.passed + c.utf8Size⟩

/-- Past the characters up to an offset. -/
def moveTo (source : String) (k : Cursor) (offset : Nat) : Cursor :=
  (slice source k.passed offset).toList.foldl pass k

/-- One more than the characters from the beginning of the line. -/
def column (source : String) (k : Cursor) : Nat := 1 + (slice source k.lineStart k.passed).length

/-- The lines and columns at which the items begin, found by a cursor that moves from one to the
next. -/
def places (source : String) : Cursor → List Scanned → List (Nat × Nat)
  | _, [] => []
  | k, i :: is =>
    let k' := k.moveTo source i.first
    (k'.line, k'.column source) :: places source k' is

/-- The cursor stands behind a text. -/
structure Stands (k : Cursor) (before : List Char) : Prop where
  line : k.line = 1 + before.count '\n'
  lineStart : k.lineStart + String.utf8Len (lastLine before) = String.utf8Len before
  passed : k.passed = String.utf8Len before

variable {k : Cursor} {before cs rest : List Char} {source : String}

theorem stands_start : start.Stands [] := ⟨rfl, rfl, rfl⟩

theorem stands_pass (h : k.Stands before) (c : Char) : (k.pass c).Stands (before ++ [c]) := by
  obtain ⟨hline, hstart, hpassed⟩ := h
  unfold pass
  by_cases hc : c = '\n'
  · subst hc
    refine ⟨?_, ?_, ?_⟩
    · simp [hline, Nat.add_assoc]
    · simp [lastLine_concat, hpassed]
    · simp [hpassed]
  · rw [if_neg hc]
    refine ⟨?_, ?_, ?_⟩
    · simp [hline, hc]
    · simp [lastLine_concat, hc, ← hstart, Nat.add_assoc]
    · simp [hpassed]

theorem stands_foldl_pass (h : k.Stands before) (cs : List Char) :
    (cs.foldl pass k).Stands (before ++ cs) := by
  induction cs generalizing k before with
  | nil => simpa using h
  | cons c cs ih => simpa using ih (stands_pass h c)

theorem stands_moveTo (h : k.Stands before) (hsource : source.toList = before ++ cs ++ rest) :
    (k.moveTo source (String.utf8Len (before ++ cs))).Stands (before ++ cs) := by
  rw [moveTo, h.passed, String.utf8Len_append, slice_eq before cs rest hsource,
    String.toList_ofList]
  exact stands_foldl_pass h cs

theorem Stands.column_eq (h : k.Stands before) (hsource : source.toList = before ++ rest) :
    k.column source = 1 + (lastLine before).length := by
  have hparts : before.rdropWhile (· != '\n') ++ lastLine before = before :=
    List.rdropWhile_append_rtakeWhile
  have hstart : k.lineStart = String.utf8Len (before.rdropWhile (· != '\n')) := by
    have hlength := congrArg String.utf8Len hparts
    rw [String.utf8Len_append] at hlength
    have := h.lineStart
    omega
  have hslice := slice_eq (before.rdropWhile (· != '\n')) (lastLine before) rest
    (hparts.symm ▸ hsource)
  rw [← String.utf8Len_append, hparts] at hslice
  rw [column, hstart, h.passed, hslice, String.length_ofList]

/-- The cursor in front of an item, and behind those in front of it. -/
theorem places_cons {i : Scanned} (is : List Scanned) (hk : k.Stands before)
    (hsource : source.toList = before ++ cs ++ rest)
    (hfirst : i.first = String.utf8Len (before ++ cs)) :
    ∃ k' : Cursor, k'.Stands (before ++ cs) ∧ k.places source (i :: is) =
      (lineAt source i.first, columnAt source i.first) :: k'.places source is := by
  have hstands := stands_moveTo hk hsource
  rw [← hfirst] at hstands
  refine ⟨k.moveTo source i.first, hstands, ?_⟩
  rw [places, hstands.line, hstands.column_eq hsource, hfirst, lineAt_eq hsource,
    columnAt_eq hsource]

/-- A cursor finds the places of the items. The scan has come to `cs`, and `passed` is what the
cursor has not looked at since the last item. -/
theorem places_of_finds {m : Mode} {p : Position} {is : List Scanned} (h : Finds m p cs is)
    (before passed : List Char) (hsource : source.toList = before ++ passed ++ cs)
    (hp : p.offset = String.utf8Len (before ++ passed)) (hk : k.Stands before) :
    k.places source is = is.map fun i => (lineAt source i.first, columnAt source i.first) := by
  induction h generalizing k before passed with
  | nil => rfl
  | @blank m p c cs is _ _ ih =>
    refine ih before (passed ++ [c]) (by simp [hsource]) ?_ hk
    rw [Position.offset_step, hp]
    simp [Nat.add_assoc]
  | @token m p text rest kind is _ _ ih =>
    obtain ⟨k', hk', hplaces⟩ := places_cons (i := .token (.placed kind p text)) is hk hsource hp
    rw [hplaces, List.map_cons]
    refine congrArg _ (ih (before ++ passed) text (by simp [hsource]) ?_ hk')
    rw [Position.offset_advance, String.utf8ByteSize_ofList, hp]
    simp [Nat.add_assoc]
  | @illegal m p c cs is _ _ ih =>
    obtain ⟨k', hk', hplaces⟩ := places_cons (i := .illegal ⟨c, p⟩) is hk hsource hp
    rw [hplaces, List.map_cons]
    refine congrArg _ (ih (before ++ passed) [c] (by simp [hsource]) ?_ hk')
    rw [Position.offset_step, hp]
    simp [Nat.add_assoc]

end Cursor

/-! ## Items of a source -/

/-- An item is on the line of its offset. -/
theorem line_eq_lineAt {source : String} {before rest : List Char} {i : Scanned}
    (hsource : source.toList = before ++ rest) (hi : i.StandsAt (Position.start.advance before)) :
    i.line = lineAt source i.first := by
  rw [Scanned.line_of_standsAt hi, Scanned.first_of_standsAt hi, Position.advance_start,
    lineAt_eq hsource]

theorem column_eq_columnAt {source : String} {before rest : List Char} {e : IllegalCharacter}
    (hsource : source.toList = before ++ rest)
    (he : (Scanned.illegal e).StandsAt (Position.start.advance before)) :
    e.position.column = columnAt source e.position.offset := by
  have hposition : e.position = Position.start.advance before := he
  rw [hposition, Position.advance_start, columnAt_eq hsource]

theorem exists_split_of_mem {source : String} {i : Scanned}
    (hi : i ∈ (Scanner.ofSource source).items) :
    ∃ before rest, source.toList = before ++ rest ∧ i.StandsAt (Position.start.advance before) := by
  obtain ⟨before, behind, hsource, -, hstands⟩ :=
    exists_split_of_finds (Scanner.finds_items .document .start source.toList) i hi
  exact ⟨before, i.text.toList ++ behind, by rw [hsource, List.append_assoc], hstands⟩

theorem Scan.token_mem_of_mem {is : List Scanned} {t : Token} (h : t ∈ (ofItems is).tokens) :
    .token t ∈ is := by
  obtain ⟨i, hi, hit⟩ := List.mem_filterMap.1 h
  cases i with
  | token u =>
    cases hit
    exact hi
  | illegal e => cases hit

theorem Scan.illegal_mem_of_mem {is : List Scanned} {e : IllegalCharacter}
    (h : e ∈ (ofItems is).illegal) : .illegal e ∈ is := by
  obtain ⟨i, hi, hie⟩ := List.mem_filterMap.1 h
  cases i with
  | token t => cases hie
  | illegal e' =>
    cases hie
    exact hi

/-- **Lines and columns are exact.** The line of every token and the line and column of every
illegal character are those of its offset, and a cursor that moves from item to item finds the
same. -/
theorem lines_and_columns_exact (source : String) :
    (∀ t ∈ (Scan.ofSource source).tokens, t.line = lineAt source t.first) ∧
      (∀ e ∈ (Scan.ofSource source).illegal,
        e.position.line = lineAt source e.position.offset ∧
          e.position.column = columnAt source e.position.offset) ∧
      Cursor.start.places source (Scanner.ofSource source).items =
        (Scanner.ofSource source).items.map
          fun i => (lineAt source i.first, columnAt source i.first) := by
  refine ⟨fun t ht => ?_, fun e he => ?_, ?_⟩
  · obtain ⟨before, rest, hsource, hstands⟩ := exists_split_of_mem (Scan.token_mem_of_mem ht)
    exact line_eq_lineAt hsource hstands
  · obtain ⟨before, rest, hsource, hstands⟩ := exists_split_of_mem (Scan.illegal_mem_of_mem he)
    exact ⟨line_eq_lineAt hsource hstands, column_eq_columnAt hsource hstands⟩
  · exact Cursor.places_of_finds (Scanner.finds_items _ _ _) [] [] rfl rfl Cursor.stands_start

/-- A string over two lines, with a stray character behind it. -/
theorem lines_and_columns_exact_broken_string :
    let source := "$style(\"é\né\" x)"
    let x : IllegalCharacter := ⟨'x', ⟨2, 4, 15⟩⟩
    let close : Token := ⟨.closeParen, ")", 2, 16, 17⟩
    close ∈ (Scan.ofSource source).tokens ∧ x ∈ (Scan.ofSource source).illegal ∧
      2 = lineAt source 16 ∧ 2 = lineAt source 15 ∧ 4 = columnAt source 15 ∧
      Cursor.start.places source (Scanner.ofSource source).items =
        [(1, 1), (1, 7), (1, 8), (2, 4), (2, 5)] := by
  intro source x close
  obtain ⟨htokens, hillegal, hplaces⟩ := lines_and_columns_exact source
  have hclose : close ∈ (Scan.ofSource source).tokens := by decide +kernel
  have hx : x ∈ (Scan.ofSource source).illegal := by decide +kernel
  obtain ⟨hline, hcolumn⟩ := hillegal x hx
  exact ⟨hclose, hx, htokens close hclose, hline, hcolumn, hplaces.trans (by decide +kernel)⟩

end Folio
