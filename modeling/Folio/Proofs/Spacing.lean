import Folio.Proofs.Compiled
import Folio.Proofs.Concatenation
import Folio.Proofs.Layout

/-!
# Spacing

How many blanks there are between two tokens, and which, does not matter. Whether there are any
does.

**Refilled gaps** (`Refills`). Other blanks in place of those that a scan skips, some for some and
none for none.

**Theorem (`spacing_insignificant`).** If the gaps of a source are refilled, the same items are
found, the places aside. So both sources compile or neither does, and their models differ in the
lines of diagnostics at most.

The two scans run in lockstep (`finds_refilled`). What follows an item in the one text follows it in
the other, with blanks for blanks (`Respaced`), and so begins with the same word. Of what follows a
lexeme or a stray character, no more than that counts (`Lexeme.respaced`, `Stray.respaced`).
-/

namespace Folio

/-! ## Blanks for blanks -/

/-- One text is the other with runs of blanks in place of runs of blanks. -/
inductive Respaced : List Char → List Char → Prop
  | nil : Respaced [] []
  | char (c : Char) {as bs : List Char} : Respaced as bs → Respaced (c :: as) (c :: bs)
  | gap {g g' as bs : List Char} : g ≠ [] → g' ≠ [] → (∀ c ∈ g, Text.isBlank c) →
      (∀ c ∈ g', Text.isBlank c) → Respaced as bs → Respaced (g ++ as) (g' ++ bs)

namespace Respaced

variable {as bs : List Char}

theorem symm (h : Respaced as bs) : Respaced bs as := by
  induction h with
  | nil => exact .nil
  | char c _ ih => exact .char c ih
  | gap hg hg' hblank hblank' _ ih => exact .gap hg' hg hblank' hblank ih

theorem append_left (cs : List Char) (h : Respaced as bs) : Respaced (cs ++ as) (cs ++ bs) := by
  induction cs with
  | nil => exact h
  | cons c cs ih => exact .char c ih

/-- Both begin with the same words. -/
theorem isPrefix (h : Respaced as bs) {w : List Char} (hw : ∀ c ∈ w, Text.isBlank c = false)
    (hfront : w <+: as) : w <+: bs := by
  induction h generalizing w with
  | nil => exact hfront
  | @char c as bs _ ih =>
    cases w with
    | nil => exact List.nil_prefix
    | cons d w =>
      obtain ⟨rfl, htail⟩ := List.cons_prefix_cons.1 hfront
      exact List.cons_prefix_cons.2 ⟨rfl, ih (fun e he => hw e (List.mem_cons_of_mem _ he)) htail⟩
  | @gap g g' as bs hg _ hblank _ _ _ =>
    cases w with
    | nil => exact List.nil_prefix
    | cons d w =>
      -- A word does not begin with a blank.
      obtain ⟨c, g, rfl⟩ := List.exists_cons_of_ne_nil hg
      obtain ⟨rfl, -⟩ := List.cons_prefix_cons.1 hfront
      have hd := hw d List.mem_cons_self
      rw [hblank d List.mem_cons_self] at hd
      cases hd

theorem mem (h : Respaced as bs) {c : Char} (hc : Text.isBlank c = false) (hmem : c ∈ as) :
    c ∈ bs := by
  induction h with
  | nil => exact hmem
  | char d _ ih =>
    rcases List.mem_cons.1 hmem with rfl | hmem
    · exact List.mem_cons_self
    · exact List.mem_cons_of_mem d (ih hmem)
  | gap _ _ hblank _ _ ih =>
    rcases List.mem_append.1 hmem with hmem | hmem
    · rw [hblank c hmem] at hc
      cases hc
    · exact List.mem_append_right _ (ih hmem)

/-- Both begin with the same character, or both with a blank. -/
theorem head? (h : Respaced as bs) :
    ∀ d ∈ bs.head?, d ∈ as.head? ∨ Text.isBlank d ∧ ∃ e ∈ as.head?, Text.isBlank e := by
  cases h with
  | nil => simp
  | char c _ =>
    rintro _ ⟨⟩
    exact .inl rfl
  | @gap g g' as bs hg hg' hblank hblank' _ =>
    obtain ⟨c, g, rfl⟩ := List.exists_cons_of_ne_nil hg
    obtain ⟨c', g', rfl⟩ := List.exists_cons_of_ne_nil hg'
    rintro _ ⟨⟩
    exact .inr ⟨hblank' c' List.mem_cons_self, c, rfl, hblank c List.mem_cons_self⟩

/-- What is so of the first character, and of blanks, is so of the first character. -/
theorem forall_head? (h : Respaced as bs) {q : Char → Prop} (hblank : ∀ d, Text.isBlank d → q d)
    (has : ∀ d ∈ as.head?, q d) : ∀ d ∈ bs.head?, q d := by
  intro d hd
  rcases h.head? d hd with hd | ⟨hd, -⟩
  · exact has d hd
  · exact hblank d hd

end Respaced

/-! ## Lexemes and stray characters in front of other blanks -/

theorem isNameChar_of_isBlank {c : Char} (h : Text.isBlank c) : isNameChar c = false := by
  by_contra hname
  rw [isBlank_of_isNameChar (by simpa using hname)] at h
  cases h

theorem isDigit_of_isBlank {c : Char} (h : Text.isBlank c) : c.isDigit = false := by
  by_contra hdigit
  rw [isBlank_of_isDigit (by simpa using hdigit)] at h
  cases h

theorem isAlpha_of_isBlank {c : Char} (h : Text.isBlank c) : c.isAlpha = false := by
  have hname := isNameChar_of_isBlank h
  simp only [isNameChar, Char.isAlphanum, Bool.or_eq_false_iff] at hname
  exact hname.1.1

section Rest

variable {m : Mode} {rest rest' : List Char} (hrest : Respaced rest rest')

include hrest

theorem Lexeme.respaced {text : List Char} {kind : Kind} (h : Lexeme m text rest kind) :
    Lexeme m text rest' kind := by
  cases h with
  | bracket _ hc => exact .bracket _ hc
  | keyword k => exact .keyword k _
  | text hc hplain hends =>
    refine .text hc hplain fun d hd => ?_
    rcases hrest.head? d hd with hd | ⟨-, e, he, hblank⟩
    · exact hends d hd
    · -- Free text goes on over blanks.
      rw [isBlank_of_endsText (hends e he)] at hblank
      cases hblank
  | equals => exact .equals _
  | comma => exact .comma _
  | name hc hmore hends =>
    exact .name hc hmore (hrest.forall_head? (fun _ => isNameChar_of_isBlank) hends)
  | string _ hvalue => exact .string _ hvalue
  | number hdigits hends =>
    exact .number hdigits (hrest.forall_head? (fun _ => isDigit_of_isBlank) hends)

theorem Stray.respaced {c : Char} (h : Stray m c rest) : Stray m c rest' := by
  cases h with
  | hash => exact .hash _
  | dollar hk =>
    refine .dollar fun k hname => hk k (hrest.symm.isPrefix ?_ hname)
    exact fun d hd => isBlank_of_isNameChar (isNameChar_of_mem_name k hd)
  | nameless hends => exact .nameless (hrest.forall_head? (fun _ => isAlpha_of_isBlank) hends)
  | quote hquote => exact .quote fun hmem => hquote (hrest.symm.mem rfl hmem)
  | other _ hc hbracket hequals hcomma hhash hquote hdigit =>
    exact .other _ hc hbracket hequals hcomma hhash hquote hdigit

end Rest

/-! ## Refilled gaps -/

/-- The second gap has blanks in place of the blanks of the first. -/
structure Refills (gap gap' : String) : Prop where
  empty_iff : gap = "" ↔ gap' = ""
  blank : ∀ c ∈ gap'.toList, Text.isBlank c

theorem interleave_nil (gs : List String) : interleave gs [] = String.join gs := by
  cases gs <;> rfl

theorem toList_interleave_cons (g t : String) (gs ts : List String) :
    (interleave (g :: gs) (t :: ts)).toList =
      g.toList ++ (t.toList ++ (interleave gs ts).toList) := by
  rw [interleave, String.toList_append, String.toList_append, List.append_assoc]

theorem respaced_gap {g g' : String} (h : Refills g g') (hg : ∀ c ∈ g.toList, Text.isBlank c)
    {as bs : List Char} (has : Respaced as bs) :
    Respaced (g.toList ++ as) (g'.toList ++ bs) := by
  by_cases hempty : g = ""
  · rw [hempty, h.empty_iff.1 hempty]
    exact has
  · have hempty' : g' ≠ "" := fun h' => hempty (h.empty_iff.2 h')
    exact .gap (by simpa using hempty) (by simpa using hempty') hg h.blank has

/-- A text with refilled gaps has blanks in place of blanks. -/
theorem respaced_interleave {gs gs' : List String} (h : List.Forall₂ Refills gs gs')
    (hgs : ∀ g ∈ gs, ∀ c ∈ g.toList, Text.isBlank c) (ts : List String) :
    Respaced (interleave gs ts).toList (interleave gs' ts).toList := by
  induction h generalizing ts with
  | nil => cases ts <;> exact .nil
  | @cons g g' gs gs' hg _ ih =>
    obtain ⟨hblank, hgs⟩ := List.forall_mem_cons.1 hgs
    cases ts with
    | nil =>
      have hrest := ih hgs []
      rw [interleave_nil, interleave_nil] at hrest ⊢
      rw [String.join_cons, String.join_cons, String.toList_append, String.toList_append]
      exact respaced_gap hg hblank hrest
    | cons t ts =>
      rw [toList_interleave_cons, toList_interleave_cons]
      exact respaced_gap hg hblank ((ih hgs ts).append_left t.toList)

/-! ## Two scans in lockstep -/

/-- The item, the place aside where it stands. -/
def Scanned.placeless : Scanned → Scanned
  | token t => token { t with line := 0, first := 0, past := 0 }
  | illegal e => illegal { e with position := .start }

section Finds

variable {m : Mode} {p : Position} {cs : List Char} {i : Scanned} {is : List Scanned}

theorem finds_behind_blanks {gap : List Char} (hgap : ∀ c ∈ gap, Text.isBlank c) :
    Finds m p (gap ++ cs) is ↔ Finds m (p.advance gap) cs is := by
  induction gap generalizing p with
  | nil => rfl
  | cons c gap ih =>
    obtain ⟨hc, hgap⟩ := List.forall_mem_cons.1 hgap
    rw [Position.advance_cons, ← ih hgap]
    refine ⟨fun h => ?_, .blank hc⟩
    have hitems := Scanner.items_of_finds h
    rw [List.cons_append, Scanner.items_congr (congrArg Scanner.front?
      (Scanner.skipBlanks_of_blank hc))] at hitems
    exact hitems ▸ Scanner.finds_items _ _ _

/-- The text of an item does not begin with a blank. -/
theorem exists_head_of_finds (h : Finds m p cs is) :
    ∀ i ∈ is, ∃ d ds, i.text.toList = d :: ds ∧ Text.isBlank d = false := by
  induction h with
  | nil => exact List.forall_mem_nil _
  | blank _ _ ih => exact ih
  | @token m p text rest kind is hlexeme _ ih =>
    obtain ⟨d, ds, rfl⟩ := List.exists_cons_of_ne_nil hlexeme.ne_nil
    exact List.forall_mem_cons.2
      ⟨⟨d, ds, Scanned.text_placed kind p _, hlexeme.isBlank_head d rfl⟩, ih⟩
  | @illegal m p c cs is hstray _ ih =>
    exact List.forall_mem_cons.2 ⟨⟨c, [], Scanned.text_illegal c p, hstray.isBlank⟩, ih⟩

/-- **One item in lockstep.** If an item is found at the front of a text, one like it is found there
when blanks behind it are replaced by blanks. -/
theorem finds_cons_respaced (h : Finds m p (i.text.toList ++ cs) (i :: is)) :
    ∃ n q, Finds n q cs is ∧ ∀ p' cs', Respaced cs cs' →
      ∃ i' q', i'.placeless = i.placeless ∧
        ∀ is', Finds n q' cs' is' → Finds m p' (i.text.toList ++ cs') (i' :: is') := by
  generalize hds : i.text.toList ++ cs = ds, hjs : i :: is = js at h
  cases h with
  | nil => cases hjs
  | @blank m p d ds _ hd hrest =>
    obtain ⟨e, es, htext, he⟩ := exists_head_of_finds hrest i (hjs ▸ List.mem_cons_self)
    rw [htext] at hds
    rw [(List.cons.inj hds).1, hd] at he
    cases he
  | @token m p text rest kind _ hlexeme hrest =>
    cases hjs
    rw [Scanned.text_placed] at hds ⊢
    obtain rfl := List.append_cancel_left hds
    exact ⟨_, _, hrest, fun p' cs' hcs =>
      ⟨.token (.placed kind p' text), p'.advance text, rfl, fun _ => .token (hlexeme.respaced hcs)⟩⟩
  | @illegal m p c rest _ hstray hrest =>
    cases hjs
    rw [Scanned.text_illegal] at hds ⊢
    obtain rfl := (List.cons.inj hds).2
    exact ⟨_, _, hrest, fun p' cs' hcs =>
      ⟨.illegal ⟨c, p'⟩, p'.step c, rfl, fun _ => .illegal (hstray.respaced hcs)⟩⟩

end Finds

/-- **Two scans in lockstep.** -/
theorem finds_refilled {gs gs' : List String} (h : List.Forall₂ Refills gs gs')
    (hgs : ∀ g ∈ gs, ∀ c ∈ g.toList, Text.isBlank c) {m : Mode} {p : Position} {is : List Scanned}
    (hlength : gs.length = is.length + 1)
    (his : Finds m p (interleave gs (is.map Scanned.text)).toList is) (p' : Position) :
    ∃ is', Finds m p' (interleave gs' (is.map Scanned.text)).toList is' ∧
      is'.map Scanned.placeless = is.map Scanned.placeless := by
  induction h generalizing m p is p' with
  | nil => cases hlength
  | @cons g g' gs gs' hg hrefills ih =>
    obtain ⟨hblank, hgs⟩ := List.forall_mem_cons.1 hgs
    cases is with
    | nil =>
      obtain rfl : gs = [] := List.length_eq_zero_iff.1 (Nat.succ.inj hlength)
      cases hrefills
      refine ⟨[], ?_, rfl⟩
      have hfinds : Finds m p' (g'.toList ++ []) [] := (finds_behind_blanks hg.blank).2 (.nil _ _)
      simpa [interleave_nil] using hfinds
    | cons i is =>
      rw [List.map_cons, toList_interleave_cons] at his
      obtain ⟨n, q, hrest, hlockstep⟩ :=
        finds_cons_respaced ((finds_behind_blanks hblank).1 his)
      obtain ⟨i', q', hi', hcons⟩ := hlockstep (p'.advance g'.toList) _
        (respaced_interleave hrefills hgs (is.map Scanned.text))
      obtain ⟨is', his', hsame⟩ := ih hgs (Nat.succ.inj hlength) hrest q'
      refine ⟨i' :: is', ?_, by rw [List.map_cons, List.map_cons, hi', hsame]⟩
      rw [List.map_cons, toList_interleave_cons]
      exact (finds_behind_blanks hg.blank).2 (hcons is' his')

theorem length_gaps (source : String) (offset : Nat) (is : List Scanned) :
    (gaps source offset is).length = is.length + 1 := by
  induction is generalizing offset with
  | nil => rfl
  | cons i is ih => rw [gaps, List.length_cons, ih, List.length_cons]

/-! ## Sources with refilled gaps -/

theorem kindsOf_placeless (is : List Scanned) :
    kindsOf (is.map Scanned.placeless) = kindsOf is := by
  induction is with
  | nil => rfl
  | cons i is ih =>
    cases i with
    | token t => exact congrArg (t.kind :: ·) ih
    | illegal e => exact ih

/-- If a source compiles, one with tokens of the same kinds does, to a model that is alike. -/
theorem exists_compilation_of_kinds {source source' : String}
    (hkinds : (Scan.ofSource source).tokens.map (·.kind) =
      (Scan.ofSource source').tokens.map (·.kind))
    {settings : Settings} {c : Compilation} (h : Compilation.ofSource settings source = .ok c) :
    ∃ c', Compilation.ofSource settings source' = .ok c' ∧
      c'.model.withoutLines = c.model.withoutLines := by
  obtain ⟨is, hread, rfl⟩ := Compilation.ofSource_eq_ok_iff.1 h
  have halike : ReadAlike _ _ (Instruction.read (Scan.ofSource source).tokens)
      (Instruction.read (Scan.ofSource source').tokens) :=
    Reader.readAlike_readFrom rfl hkinds 1 1
  rw [hread] at halike
  cases hread' : Instruction.read (Scan.ofSource source').tokens with
  | error e =>
    rw [hread'] at halike
    cases halike
  | ok js =>
    rw [hread'] at halike
    cases halike with
    | document hsame =>
      refine ⟨_, Compilation.ofSource_eq_ok_iff.2 ⟨js, hread', rfl⟩, ?_⟩
      exact (Model.withoutLines_ofInstructions settings hsame).symm

theorem fills_ofSource (source : String) :
    Fills source 0 (Scanner.ofSource source).items source.toList :=
  fills_of_finds (finds_ofSource source) [] [] rfl (List.forall_mem_nil _) rfl

theorem interleave_gaps (source : String) :
    interleave (gaps source 0 (Scanner.ofSource source).items)
      ((Scanner.ofSource source).items.map Scanned.text) = source := by
  rw [(fills_ofSource source).pieces, String.ofList_toList]

/-- The items of a source with refilled gaps. -/
theorem placeless_items_refilled {source : String} {gaps' : List String}
    (h : List.Forall₂ Refills (gaps source 0 (Scanner.ofSource source).items) gaps') :
    let items := (Scanner.ofSource source).items
    (Scanner.ofSource (interleave gaps' (items.map Scanned.text))).items.map Scanned.placeless =
      items.map Scanned.placeless := by
  intro items
  have hfinds : Finds .document .start
      (interleave (gaps source 0 items) (items.map Scanned.text)).toList items := by
    rw [interleave_gaps]
    exact finds_ofSource source
  obtain ⟨is', his', hsame⟩ :=
    finds_refilled h (fills_ofSource source).blank (length_gaps source 0 items) hfinds .start
  rw [← hsame]
  exact congrArg (List.map Scanned.placeless) (Scanner.items_of_finds his')

/-- **Spacing is insignificant.** If blanks that a scan skips are replaced by other blanks, the scan
finds the same items, the places aside. Under any settings the source compiles just if it did, and
then its model differs in the lines of diagnostics at most. -/
theorem spacing_insignificant {source : String} {gaps' : List String}
    (h : List.Forall₂ Refills (gaps source 0 (Scanner.ofSource source).items) gaps') :
    let items := (Scanner.ofSource source).items
    let source' := interleave gaps' (items.map Scanned.text)
    interleave (gaps source 0 items) (items.map Scanned.text) = source ∧
      (Scanner.ofSource source').items.map Scanned.placeless = items.map Scanned.placeless ∧
      ∀ settings,
        (∀ c, Compilation.ofSource settings source = .ok c →
          ∃ c', Compilation.ofSource settings source' = .ok c' ∧
            c'.model.withoutLines = c.model.withoutLines) ∧
        ∀ c', Compilation.ofSource settings source' = .ok c' →
          ∃ c, Compilation.ofSource settings source = .ok c := by
  intro items source'
  have hsame := placeless_items_refilled h
  have hkinds : kindsOf items = kindsOf (Scanner.ofSource source').items := by
    rw [← kindsOf_placeless items, ← hsame, kindsOf_placeless]
  refine ⟨interleave_gaps source, hsame, fun settings => ⟨fun c hc => ?_, fun c' hc' => ?_⟩⟩
  · exact exists_compilation_of_kinds hkinds hc
  · obtain ⟨c, hc, -⟩ := exists_compilation_of_kinds hkinds.symm hc'
    exact ⟨c, hc⟩

/-- Line feeds for the blank behind a sigil that begins nothing. -/
theorem spacing_insignificant_stray :
    let items := (Scanner.ofSource "$style(# )").items
    let items' := (Scanner.ofSource "$style(#\n\n)").items
    List.Forall₂ Refills (gaps "$style(# )" 0 items) ["", "", "", "\n\n", ""] ∧
      items'.map Scanned.placeless = items.map Scanned.placeless ∧
      ∃ c c', Compilation.ofSource .standard "$style(# )" = .ok c ∧
        Compilation.ofSource .standard "$style(#\n\n)" = .ok c' ∧
        c'.model.withoutLines = c.model.withoutLines := by
  intro items items'
  have hgaps : gaps "$style(# )" 0 items = ["", "", "", " ", ""] := by decide +kernel
  have hsource : interleave ["", "", "", "\n\n", ""] (items.map Scanned.text) =
      "$style(#\n\n)" := by
    decide +kernel
  have hnone : Refills "" "" := ⟨Iff.rfl, by simp⟩
  have hsome : Refills " " "\n\n" := ⟨by simp, List.all_eq_true.1 (by decide)⟩
  have hrefills : List.Forall₂ Refills (gaps "$style(# )" 0 items) ["", "", "", "\n\n", ""] := by
    rw [hgaps]
    exact .cons hnone (.cons hnone (.cons hnone (.cons hsome (.cons hnone .nil))))
  obtain ⟨-, hsame, hcompiles⟩ := spacing_insignificant hrefills
  rw [hsource] at hsame hcompiles
  have hok : (Compilation.ofSource .standard "$style(# )").isOk := by decide +kernel
  refine ⟨hrefills, hsame, ?_⟩
  cases hc : Compilation.ofSource .standard "$style(# )" with
  | error e => simp [hc, Except.isOk, Except.toBool] at hok
  | ok c =>
    obtain ⟨c', hc', hmodel⟩ := (hcompiles .standard).1 c hc
    exact ⟨c, c', rfl, hc', hmodel⟩

end Folio
