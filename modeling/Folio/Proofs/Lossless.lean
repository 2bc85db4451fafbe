import Folio.Proofs.Lexeme
import Mathlib.Data.String.Basic

/-!
# A scan loses nothing

**Found items** (`Finds`). The items of a text as a relation with a rule for each of the four things
that a scanner does: it ends, skips a blank, takes a lexeme, or passes over a stray character. So
facts about scans are inductions over the rules. `finds_items` and `items_of_finds` say that the
scanner finds just these items.

**Theorem (`items_partition`).** The items of a source cut it into pieces. Each item covers the
bytes of its text and no others, items lie apart and in order, and what lies between them is blank.
So the gaps and the texts in turn are the source again.
-/

namespace Folio

/-! ## Found items -/

theorem Position.offset_step (p : Position) (c : Char) :
    (p.step c).offset = p.offset + c.utf8Size := by
  unfold step
  split <;> rfl

/-- The token of the kind whose text begins at the position. -/
def Token.placed (kind : Kind) (p : Position) (text : List Char) : Token :=
  ⟨kind, String.ofList text, p.line, p.offset, (p.advance text).offset⟩

/-- The items that a scan of the text finds in the mode, from the position on. -/
inductive Finds : Mode → Position → List Char → List Scanned → Prop
  | nil (m : Mode) (p : Position) : Finds m p [] []
  | blank {m : Mode} {p : Position} {c : Char} {cs : List Char} {is : List Scanned} :
      Text.isBlank c → Finds m (p.step c) cs is → Finds m p (c :: cs) is
  | token {m : Mode} {p : Position} {text rest : List Char} {kind : Kind} {is : List Scanned} :
      Lexeme m text rest kind → Finds (m.after kind) (p.advance text) rest is →
      Finds m p (text ++ rest) (.token (.placed kind p text) :: is)
  | illegal {m : Mode} {p : Position} {c : Char} {cs : List Char} {is : List Scanned} :
      Stray m c cs → Finds m (p.step c) cs is → Finds m p (c :: cs) (.illegal ⟨c, p⟩ :: is)

namespace Scanner

theorem next?_of_not_blank {m : Mode} {p : Position} {c : Char} {cs : List Char}
    (hc : Text.isBlank c = false) :
    (Scanner.mk m p (c :: cs)).next? = (Scanner.mk m p (c :: cs)).front? := by
  rw [next?, skipBlanks_of_not_blank hc]

theorem next?_of_lexeme {m : Mode} {text rest : List Char} {kind : Kind}
    (h : Lexeme m text rest kind) (p : Position) :
    (Scanner.mk m p (text ++ rest)).next? =
      some (.token (.placed kind p text), ⟨m.after kind, p.advance text, rest⟩) := by
  obtain ⟨c, cs, rfl⟩ := List.exists_cons_of_ne_nil h.ne_nil
  have ht := h.token?_eq
  rw [List.cons_append] at ht ⊢
  rw [next?_of_not_blank (h.isBlank_head c rfl), front?]
  simp only [ht]
  simp [take, Token.placed]

theorem next?_of_stray {m : Mode} {c : Char} {cs : List Char} (h : Stray m c cs) (p : Position) :
    (Scanner.mk m p (c :: cs)).next? = some (.illegal ⟨c, p⟩, ⟨m, p.step c, cs⟩) := by
  rw [next?_of_not_blank h.isBlank, front?]
  simp only [h.token?_eq]

/-- There is nothing to find but what the rules say. -/
theorem items_of_finds {m : Mode} {p : Position} {cs : List Char} {is : List Scanned}
    (h : Finds m p cs is) : (Scanner.mk m p cs).items = is := by
  induction h with
  | nil m p => exact items_of_next?_eq_none rfl
  | @blank m p c cs is hc _ ih =>
    rw [items_congr (congrArg front? (skipBlanks_of_blank hc))]
    exact ih
  | @token m p text rest kind is hlexeme _ ih =>
    rw [items_of_next?_eq_some (next?_of_lexeme hlexeme p), ih]
  | @illegal m p c cs is hstray _ ih =>
    rw [items_of_next?_eq_some (next?_of_stray hstray p), ih]

theorem exists_finds (n : Nat) (m : Mode) (p : Position) (cs : List Char) (hn : cs.length ≤ n) :
    ∃ is, Finds m p cs is := by
  induction n generalizing m p cs with
  | zero =>
    obtain rfl : cs = [] := List.length_eq_zero_iff.1 (Nat.le_zero.1 hn)
    exact ⟨[], .nil m p⟩
  | succ n ih =>
    cases cs with
    | nil => exact ⟨[], .nil m p⟩
    | cons c cs =>
      have hcs : cs.length ≤ n := Nat.le_of_succ_le_succ hn
      by_cases hc : Text.isBlank c
      · obtain ⟨is, his⟩ := ih m (p.step c) cs hcs
        exact ⟨is, .blank hc his⟩
      obtain hstray | ⟨text, rest, kind, hsplit, hlexeme⟩ :=
        stray_or_lexeme m cs (by simpa using hc)
      · obtain ⟨is, his⟩ := ih m (p.step c) cs hcs
        exact ⟨_, .illegal hstray his⟩
      · have hlength := congrArg List.length hsplit
        have htext := List.length_pos_iff.2 hlexeme.ne_nil
        rw [List.length_cons, List.length_append] at hlength
        obtain ⟨is, his⟩ := ih (m.after kind) (p.advance text) rest (by omega)
        exact hsplit ▸ ⟨_, .token hlexeme his⟩

/-- The scanner finds what the rules say. -/
theorem finds_items (m : Mode) (p : Position) (cs : List Char) :
    Finds m p cs (Scanner.mk m p cs).items := by
  obtain ⟨is, his⟩ := exists_finds cs.length m p cs le_rfl
  rwa [items_of_finds his]

end Scanner

/-! ## Texts and spans -/

namespace Scanned

/-- The source text that an item stands for. -/
def text : Scanned → String
  | token t => t.text
  | illegal e => String.singleton e.character

/-- The offset of the first byte. -/
def first : Scanned → Nat
  | token t => t.first
  | illegal e => e.position.offset

/-- The offset behind the last byte. -/
def past : Scanned → Nat
  | token t => t.past
  | illegal e => e.position.offset + e.character.utf8Size

/-- The item is one whose text begins at the position. -/
def StandsAt (p : Position) : Scanned → Prop
  | token t => t = .placed t.kind p t.text.toList
  | illegal e => e.position = p

theorem standsAt_placed (kind : Kind) (p : Position) (text : List Char) :
    (token (.placed kind p text)).StandsAt p := by
  simp [StandsAt, Token.placed]

theorem text_placed (kind : Kind) (p : Position) (text : List Char) :
    (token (.placed kind p text)).text.toList = text := by
  simp [Scanned.text, Token.placed]

theorem text_illegal (c : Char) (p : Position) : (illegal ⟨c, p⟩).text.toList = [c] := by
  simp [Scanned.text]

theorem first_of_standsAt {i : Scanned} {p : Position} (h : i.StandsAt p) : i.first = p.offset := by
  cases i with
  | token t =>
    rw [StandsAt] at h
    rw [first, h]
    rfl
  | illegal e => exact congrArg Position.offset h

theorem past_of_standsAt {i : Scanned} {p : Position} (h : i.StandsAt p) :
    i.past = p.offset + i.text.utf8ByteSize := by
  cases i with
  | token t =>
    rw [StandsAt] at h
    have hpast : t.past = (p.advance t.text.toList).offset := by
      rw [h]
      simp [Token.placed]
    rw [past, hpast, Position.offset_advance, String.ofList_toList]
    rfl
  | illegal e => rw [past, text, String.utf8ByteSize_singleton, congrArg Position.offset h]

end Scanned

/-! ## Where items stand -/

/-- Every item has its text in the source, where it stands. -/
theorem exists_split_of_finds {m : Mode} {p : Position} {cs : List Char} {is : List Scanned}
    (h : Finds m p cs is) :
    ∀ i ∈ is, ∃ before behind, cs = before ++ i.text.toList ++ behind ∧ i.text ≠ "" ∧
      i.StandsAt (p.advance before) := by
  induction h with
  | nil => exact List.forall_mem_nil _
  | @blank m p c cs is _ _ ih =>
    intro i hi
    obtain ⟨before, behind, rfl, htext, hstands⟩ := ih i hi
    exact ⟨c :: before, behind, rfl, htext, hstands⟩
  | @token m p text rest kind is hlexeme _ ih =>
    refine List.forall_mem_cons.2 ⟨⟨[], rest, ?_, ?_, Scanned.standsAt_placed kind p text⟩, ?_⟩
    · rw [Scanned.text_placed, List.nil_append]
    · intro hempty
      have htext := Scanned.text_placed kind p text
      rw [hempty] at htext
      exact hlexeme.ne_nil htext.symm
    · intro i hi
      obtain ⟨before, behind, rfl, htext, hstands⟩ := ih i hi
      rw [← Position.advance_append] at hstands
      exact ⟨text ++ before, behind, by simp, htext, hstands⟩
  | @illegal m p c cs is _ _ ih =>
    refine List.forall_mem_cons.2 ⟨⟨[], cs, by simp [Scanned.text], ?_, rfl⟩, ?_⟩
    · simp [Scanned.text]
    · intro i hi
      obtain ⟨before, behind, rfl, htext, hstands⟩ := ih i hi
      exact ⟨c :: before, behind, rfl, htext, hstands⟩

/-- Later items begin behind the position that a scan goes on from. -/
theorem offset_le_of_finds {m : Mode} {p : Position} {cs : List Char} {is : List Scanned}
    (h : Finds m p cs is) : ∀ i ∈ is, p.offset ≤ i.first := by
  intro i hi
  obtain ⟨before, behind, -, -, hstands⟩ := exists_split_of_finds h i hi
  rw [Scanned.first_of_standsAt hstands, Position.offset_advance]
  exact Nat.le_add_right _ _

/-- Items lie apart and in order. -/
theorem pairwise_of_finds {m : Mode} {p : Position} {cs : List Char} {is : List Scanned}
    (h : Finds m p cs is) : is.Pairwise fun i j => i.past ≤ j.first := by
  induction h with
  | nil => exact .nil
  | blank _ _ ih => exact ih
  | @token m p text rest kind is _ hrest ih =>
    exact List.pairwise_cons.2 ⟨fun j hj => offset_le_of_finds hrest j hj, ih⟩
  | @illegal m p c cs is _ hrest ih =>
    refine List.pairwise_cons.2 ⟨fun j hj => ?_, ih⟩
    have hle := offset_le_of_finds hrest j hj
    rwa [Position.offset_step] at hle

theorem length_le_of_finds {m : Mode} {p : Position} {cs : List Char} {is : List Scanned}
    (h : Finds m p cs is) : is.length ≤ cs.length := by
  induction h with
  | nil => exact le_rfl
  | blank _ _ ih => exact Nat.le_succ_of_le ih
  | @token m p text rest kind is hlexeme _ ih =>
    have htext := List.length_pos_iff.2 hlexeme.ne_nil
    rw [List.length_cons, List.length_append]
    omega
  | illegal _ _ ih => exact Nat.succ_le_succ ih

/-! ## Gaps -/

/-- The bytes of the source from `first` up to `past`. -/
def slice (source : String) (first past : Nat) : String :=
  String.Pos.Raw.extract source ⟨first⟩ ⟨past⟩

theorem slice_eq {source : String} (before text behind : List Char)
    (h : source.toList = before ++ text ++ behind) :
    slice source (String.utf8Len before) (String.utf8Len before + String.utf8Len text) =
      String.ofList text := by
  rw [slice, ← String.ofList_toList (s := source), h]
  exact String.extract_of_valid before text behind

/-- What lies in front of the items, between them and behind them, from the offset on. -/
def gaps (source : String) (offset : Nat) : List Scanned → List String
  | [] => [slice source offset source.utf8ByteSize]
  | i :: is => slice source offset i.first :: gaps source i.past is

/-- A gap, then a text and a gap in turn. -/
def interleave : List String → List String → String
  | gap :: gaps, text :: texts => gap ++ text ++ interleave gaps texts
  | gaps, _ => String.join gaps

/-- The gaps are blank, and with the texts of the items they make up a text. -/
structure Fills (source : String) (offset : Nat) (is : List Scanned) (cs : List Char) : Prop where
  blank : ∀ gap ∈ gaps source offset is, ∀ c ∈ gap.toList, Text.isBlank c
  pieces : interleave (gaps source offset is) (is.map Scanned.text) = String.ofList cs

theorem fills_nil {source : String} {before gap : List Char}
    (hsource : source.toList = before ++ gap) (hgap : ∀ c ∈ gap, Text.isBlank c) :
    Fills source (String.utf8Len before) [] gap := by
  have hsize : source.utf8ByteSize = String.utf8Len before + String.utf8Len gap := by
    rw [← String.utf8Len_toList, hsource, String.utf8Len_append]
  have hslice := slice_eq before gap [] (by rw [hsource, List.append_nil])
  rw [← hsize] at hslice
  constructor
  · rw [gaps, hslice, List.forall_mem_singleton, String.toList_ofList]
    exact hgap
  · rw [gaps, hslice]
    simp [interleave]

theorem fills_cons {source : String} {before gap rest : List Char} {i : Scanned}
    {is : List Scanned} {p : Position} (hi : i.StandsAt p)
    (hp : p.offset = String.utf8Len (before ++ gap))
    (hsource : source.toList = before ++ gap ++ (i.text.toList ++ rest))
    (hgap : ∀ c ∈ gap, Text.isBlank c) (hrest : Fills source i.past is rest) :
    Fills source (String.utf8Len before) (i :: is) (gap ++ (i.text.toList ++ rest)) := by
  have hslice : slice source (String.utf8Len before) i.first = String.ofList gap := by
    rw [Scanned.first_of_standsAt hi, hp, String.utf8Len_append]
    exact slice_eq before gap _ hsource
  constructor
  · rw [gaps, hslice]
    refine List.forall_mem_cons.2 ⟨?_, hrest.blank⟩
    rw [String.toList_ofList]
    exact hgap
  · rw [gaps, hslice, List.map_cons, interleave, hrest.pieces, String.ofList_append,
      String.ofList_append, String.ofList_toList, String.append_assoc]

/-- The gaps and the items fill up the source behind `before`. The scan has come to `cs`, and `gap`
is what it has skipped since the last item. -/
theorem fills_of_finds {m : Mode} {p : Position} {cs : List Char} {is : List Scanned}
    (h : Finds m p cs is) {source : String} (before gap : List Char)
    (hsource : source.toList = before ++ gap ++ cs) (hgap : ∀ c ∈ gap, Text.isBlank c)
    (hp : p.offset = String.utf8Len (before ++ gap)) :
    Fills source (String.utf8Len before) is (gap ++ cs) := by
  induction h generalizing before gap with
  | nil m p =>
    rw [List.append_nil] at hsource ⊢
    exact fills_nil hsource hgap
  | @blank m p c cs is hc _ ih =>
    have hgap' : ∀ d ∈ gap ++ [c], Text.isBlank d := by
      intro d hd
      rcases List.mem_append.1 hd with hd | hd
      · exact hgap d hd
      · rwa [List.mem_singleton.1 hd]
    have hrest := ih before (gap ++ [c]) (by simp [hsource]) hgap' (by
      rw [Position.offset_step, hp]
      simp [Nat.add_assoc])
    rwa [List.append_assoc] at hrest
  | @token m p text rest kind is _ _ ih =>
    have hstands := Scanned.standsAt_placed kind p text
    have htext := Scanned.text_placed kind p text
    have hpast : (Scanned.token (.placed kind p text)).past =
        String.utf8Len (before ++ gap ++ text) := by
      rw [Scanned.past_of_standsAt hstands, ← String.utf8Len_toList, htext, hp,
        ← String.utf8Len_append]
    have hrest := ih (before ++ gap ++ text) [] (by simp [hsource])
      (List.forall_mem_nil _) (by
        rw [Position.offset_advance, String.utf8ByteSize_ofList, hp]
        simp [Nat.add_assoc])
    rw [← hpast] at hrest
    have hfills := fills_cons hstands hp (by rw [htext, hsource]; rfl) hgap hrest
    rwa [htext] at hfills
  | @illegal m p c cs is _ _ ih =>
    have hstands : (Scanned.illegal ⟨c, p⟩).StandsAt p := rfl
    have htext : (Scanned.illegal ⟨c, p⟩).text.toList = [c] := by simp [Scanned.text]
    have hpast : (Scanned.illegal ⟨c, p⟩).past = String.utf8Len (before ++ gap ++ [c]) := by
      rw [Scanned.past_of_standsAt hstands, ← String.utf8Len_toList, htext, hp,
        ← String.utf8Len_append]
    have hrest := ih (before ++ gap ++ [c]) [] (by simp [hsource])
      (List.forall_mem_nil _) (by
        rw [Position.offset_step, hp]
        simp [Nat.add_assoc])
    rw [← hpast] at hrest
    have hfills := fills_cons hstands hp (by rw [htext, hsource]; rfl) hgap hrest
    rwa [htext] at hfills

/-! ## The items of a source -/

/-- An item that stands behind `before` covers the bytes of its text. -/
theorem covers_of_split {source : String} {before behind : List Char} {i : Scanned}
    (hsource : source.toList = before ++ i.text.toList ++ behind) (htext : i.text ≠ "")
    (hi : i.StandsAt (Position.start.advance before)) :
    i.first < i.past ∧ String.Pos.Raw.IsValid source ⟨i.first⟩ ∧
      String.Pos.Raw.IsValid source ⟨i.past⟩ ∧ slice source i.first i.past = i.text := by
  have hfirst : i.first = String.utf8Len before := by
    rw [Scanned.first_of_standsAt hi, Position.offset_advance, String.utf8ByteSize_ofList]
    exact Nat.zero_add _
  have hpast : i.past = String.utf8Len before + String.utf8Len i.text.toList := by
    rw [Scanned.past_of_standsAt hi, ← Scanned.first_of_standsAt hi, hfirst, String.utf8Len_toList]
  have hparts : source = String.ofList before ++ (i.text ++ String.ofList behind) := by
    rw [← String.ofList_toList (s := source), hsource, String.ofList_append, String.ofList_append,
      String.ofList_toList, String.append_assoc]
  refine ⟨?_, ?_, ?_, ?_⟩
  · have hsize : i.text.utf8ByteSize ≠ 0 := by simpa using htext
    rw [hfirst, hpast, String.utf8Len_toList]
    omega
  · refine String.Pos.Raw.isValid_iff_exists_append.2 ⟨_, _, hparts, ?_⟩
    rw [hfirst, String.rawEndPos_ofList]
  · rw [← String.append_assoc] at hparts
    refine String.Pos.Raw.isValid_iff_exists_append.2 ⟨_, _, hparts, ?_⟩
    rw [hpast]
    simp [String.Pos.Raw.ext_iff, String.utf8ByteSize_ofList]
  · rw [hfirst, hpast, slice_eq before _ behind hsource, String.ofList_toList]

/-- **A scan loses nothing.** Every item covers bytes of the source, on character boundaries, and
its text is what the source has there. Items do not overlap and come in order. In front of them,
between them and behind them there are blanks only, which with the texts in turn make up the source;
and there are no more items than characters. -/
theorem items_partition (source : String) :
    let items := (Scanner.ofSource source).items
    Scan.ofSource source = .ofItems items ∧
      (∀ i ∈ items, i.first < i.past ∧ String.Pos.Raw.IsValid source ⟨i.first⟩ ∧
        String.Pos.Raw.IsValid source ⟨i.past⟩ ∧ slice source i.first i.past = i.text) ∧
      items.Pairwise (fun i j => i.past ≤ j.first) ∧
      (∀ gap ∈ gaps source 0 items, ∀ c ∈ gap.toList, Text.isBlank c) ∧
      interleave (gaps source 0 items) (items.map Scanned.text) = source ∧
      items.length ≤ source.length := by
  intro items
  have hfinds : Finds .document .start source.toList items := Scanner.finds_items _ _ _
  have hfills : Fills source 0 items source.toList :=
    fills_of_finds hfinds [] [] rfl (List.forall_mem_nil _) rfl
  refine ⟨rfl, fun i hi => ?_, pairwise_of_finds hfinds, hfills.blank, ?_, ?_⟩
  · obtain ⟨before, behind, hsource, htext, hstands⟩ := exists_split_of_finds hfinds i hi
    exact covers_of_split hsource htext hstands
  · rw [hfills.pieces, String.ofList_toList]
  · rw [← String.length_toList]
    exact length_le_of_finds hfinds

end Folio
