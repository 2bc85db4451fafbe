import Folio.Proofs.ArgumentOrder
import Folio.Proofs.Complaints
import Folio.Proofs.LineBreaks
import Folio.Proofs.NumericArguments

/-!
# The lines of a report

**Explanations** (`Arguments.Explains`). Messages are made of fixed words, keywords, names and
numbers, which are all unbroken, and at most one text that is written in the arguments. So if a
message breaks the line, the arguments explain it (`Complaint.explains`).

**Theorem (`report_one_per_line_iff`).** Under the standard settings a report has one line for each
illegal character, error and warning, just if no string of the source that stands in a message has a
line feed.

A string goes on to the next quote, over line feeds too, and messages do not escape what they quote.
So a report may have more lines than there are things to report (`report_not_one_per_line`).
-/

namespace Folio

/-! ## Names -/

theorem Keyword.unbroken_text (k : Keyword) : Unbroken k.text := by
  rcases k with k | k | k <;> cases k <;> decide

theorem PagePosition.unbroken_name (p : PagePosition) : Unbroken p.name := by
  cases p <;> decide

/-- The positions that a message lists. -/
theorem PagePosition.unbroken_names : Unbroken (", ".intercalate (all.map (·.name))) := by
  apply unbroken_intercalate (by decide)
  intro s hs
  obtain ⟨p, -, rfl⟩ := List.mem_map.1 hs
  exact p.unbroken_name

/-- The names that signatures know. -/
theorem Keyword.unbroken_of_mem_names (k : Keyword) :
    ∀ name ∈ k.signature.names, Unbroken name := by
  rcases k with k | k | k <;> cases k <;> decide

/-! ## Settings -/

/-- A default text is one line. -/
def ParameterKind.OneLine : ParameterKind → Prop
  | text s | font s | color s => Unbroken s
  | required | position _ | number _ _ => True

instance : DecidablePred ParameterKind.OneLine := fun
  | .text s | .font s | .color s => inferInstanceAs (Decidable (Unbroken s))
  | .required | .position _ | .number _ _ => .isTrue trivial

/-- All texts that an instruction can fall back to are one line. -/
def Settings.OneLine (settings : Settings) : Prop :=
  ∀ k : Keyword, ∀ p ∈ k.parameters settings, p.kind.OneLine

theorem Settings.oneLine_standard : Settings.standard.OneLine := by
  intro k
  rcases k with k | k | k <;> cases k <;> decide

/-! ## What a message quotes -/

/-- If the message breaks the line, it quotes a text of the arguments that does. -/
def Arguments.Explains (args : Arguments) (message : String) : Prop :=
  Unbroken message ∨ ∃ name s, args.text? name = some s ∧ Quotes message s

variable {settings : Settings} {args : Arguments} {i : Instruction}

namespace Arguments.Explains

theorem quoting {name s front : String} (hs : args.text? name = some s) (hfront : Unbroken front) :
    args.Explains (front ++ s) :=
  .inr ⟨name, s, hs, (Quotes.self s).prepend hfront⟩

theorem prepend {ahead message : String} (hahead : Unbroken ahead) (h : args.Explains message) :
    args.Explains (ahead ++ message) := by
  rcases h with h | ⟨name, s, hs, hquotes⟩
  · exact .inl (unbroken_append.2 ⟨hahead, h⟩)
  · exact .inr ⟨name, s, hs, hquotes.prepend hahead⟩

theorem append {message behind : String} (h : args.Explains message) (hbehind : Unbroken behind) :
    args.Explains (message ++ behind) := by
  rcases h with h | ⟨name, s, hs, hquotes⟩
  · exact .inl (unbroken_append.2 ⟨h, hbehind⟩)
  · exact .inr ⟨name, s, hs, hquotes.append hbehind⟩

end Arguments.Explains

/-- The message of a correction quotes what was written. -/
theorem Parameter.Corrects.explains {p : Parameter} {c : Correction} (h : p.Corrects args c)
    (hname : Unbroken p.name) (hkind : p.kind.OneLine) : args.Explains c.message := by
  cases h with
  | @font name s fallback hs =>
    have hfallback : Unbroken fallback := hkind
    have hfont : args.Explains ("font '" ++ s) := .quoting hs (by decide)
    have hplace : args.Explains ("font '" ++ s ++ "' in #" ++ name) :=
      (hfont.append (by decide)).append hname
    exact ((hplace.append (by decide)).append hfallback).append (by decide)
  | @color name s fallback hs =>
    have hfallback : Unbroken fallback := hkind
    have hcolor : args.Explains ("color '" ++ s) := .quoting hs (by decide)
    have hplace : args.Explains ("color '" ++ s ++ "' in #" ++ name) :=
      (hcolor.append (by decide)).append hname
    exact ((hplace.append (by decide)).append hfallback).append (by decide)
  | @position name s fallback hs =>
    have hposition : args.Explains ("position '" ++ s) := .quoting hs (by decide)
    have hlist : args.Explains ("position '" ++ s ++ "' is not one of ") :=
      hposition.append (by decide)
    have hnames := hlist.append PagePosition.unbroken_names
    exact ((hnames.append (by decide)).append fallback.unbroken_name).append (by decide)
  | @notNumber name s bounds fallback hs =>
    have hfront : Unbroken ("#" ++ name ++ " expects a number, found \"") := by
      simp only [unbroken_append, hname]
      decide
    have hfound := Arguments.Explains.quoting hs hfront
    exact (hfound.append (by decide)).append (unbroken_toString_nat _)
  | @outOfRange name l v bounds fallback =>
    left
    show Unbroken ("#" ++ name ++ " = " ++ toString v ++ " is outside " ++ bounds.display ++
      ", using " ++ toString fallback.toNat)
    simp only [unbroken_append, hname, unbroken_toString_int, unbroken_toString_nat,
      bounds.unbroken_display]
    decide

theorem Fault.unbroken_acceptedNames {names : List String} (h : ∀ name ∈ names, Unbroken name) :
    Unbroken (acceptedNames names) := by
  unfold acceptedNames
  split
  · decide
  · apply unbroken_intercalate (by decide)
    intro shown hshown
    obtain ⟨name, hname, rfl⟩ := List.mem_map.1 hshown
    exact unbroken_append.2 ⟨by decide, h name hname⟩

/-- The style of a block is written in its arguments, or it is one line. -/
theorem Arguments.blockStyle_of_oneLine (hs : settings.OneLine) (args : Arguments)
    (kind : BlockKind) : args.text? "style" = some (args.blockStyle settings kind) ∨
      Unbroken (args.blockStyle settings kind) := by
  unfold blockStyle
  cases args.text? "style" with
  | some s => exact .inl rfl
  | none =>
    right
    cases kind with
    | title => exact hs (.block .title) _ List.mem_cons_self
    | body => exact hs (.block .body) _ List.mem_cons_self

/-- The message of a fault quotes the name of a style, if anything. -/
theorem Instruction.MayHave.explains {f : Fault} (h : i.MayHave settings f)
    (hs : settings.OneLine) (hnames : ∀ name, (i.arguments.get? name).isSome → Unbroken name) :
    i.arguments.Explains f.message := by
  cases h with
  | unknownArgument hname =>
    have hname := hnames _ hname
    have haccepted := Fault.unbroken_acceptedNames i.keyword.unbroken_of_mem_names
    left
    simp only [Fault.message, unbroken_append, i.keyword.unbroken_text, hname, haccepted]
    decide
  | numberForText hget =>
    have hname := hnames _ (Option.isSome_of_eq_some hget)
    left
    simp only [Fault.message, unbroken_append, i.keyword.unbroken_text, hname,
      unbroken_toString_int]
    decide
  | styleWithoutName hname => exact .inl (by decide)
  | @duplicateStyle args line name hname =>
    have hstyle : args.Explains ("style '" ++ name) := .quoting hname (by decide)
    exact hstyle.append (by decide)
  | secondPageNumber => exact .inl (by decide)
  | @unknownStyle kind args content line =>
    have hfront : Unbroken ((Keyword.block kind).text ++ ": referenced style '") := by
      simp only [unbroken_append, Keyword.unbroken_text]
      decide
    have hstyle : args.Explains ((Keyword.block kind).text ++ ": referenced style '" ++
        args.blockStyle settings kind) := by
      rcases args.blockStyle_of_oneLine hs kind with hstyle | hstyle
      · exact .quoting hstyle hfront
      · exact .inl (unbroken_append.2 ⟨hfront, hstyle⟩)
    exact hstyle.append (by decide)
  | nestedInTitle | nestedInSection | emptyEmphasis | misplacedEmphasis =>
    left
    simp only [Fault.message, unbroken_append, Keyword.unbroken_text]
    decide

theorem Complaint.explains {d : Diagnostic} (h : Complaint settings i d) (hs : settings.OneLine)
    (hnames : ∀ name, (i.arguments.get? name).isSome → Unbroken name) :
    i.arguments.Explains d.message := by
  cases h with
  | fault hf => exact hf.explains hs hnames
  | @correction p c hp hc =>
    have hname : Unbroken p.name := by
      apply i.keyword.unbroken_of_mem_names
      rw [← i.keyword.names_parameters settings]
      exact List.mem_map_of_mem hp
    have hkeyword : Unbroken (i.keyword.text ++ ": ") :=
      unbroken_append.2 ⟨i.keyword.unbroken_text, by decide⟩
    exact (hc.explains hname (hs _ p hp)).prepend hkeyword

/-! ## Arguments of a source -/

/-- An argument of a part of a document is read from tokens: one is its name, and one is its
value. -/
theorem exists_tokens_of_get? {ts : List Token} {is : List Instruction}
    (hr : Instruction.read ts = .ok is) {i : Instruction}
    (hi : i ∈ is.flatMap Instruction.parts) {name : String} {l : Literal}
    (hl : i.arguments.get? name = some l) :
    (∃ t ∈ ts, t.kind = .argumentName name) ∧ ∃ t ∈ ts, t.kind = l.kind := by
  obtain ⟨n, hn⟩ := List.mem_iff_getElem?.1 hi
  obtain ⟨front, written, behind, hleaves, -, hargs⟩ := (begins_of_read hr).exists_keyword hn
  have hwritten : (name, l) ∈ written := by
    rw [hargs, Arguments.get?_ofList] at hl
    exact List.mem_reverse.1 (mem_of_lookup_eq_some hl)
  have htoken : ∀ k ∈ argumentKinds (name, l), ∃ u ∈ ts, u.kind = k := by
    intro k hk
    have hlist : k ∈ listKinds written := argumentKinds_subset_listKinds hwritten hk
    have hleaf : Leaf.plain k ∈ ts.map Token.leaf := by
      rw [hleaves]
      apply List.mem_append_right
      apply List.mem_cons_of_mem
      exact List.mem_append_left _ (List.mem_map_of_mem hlist)
    obtain ⟨u, hu, hleaf⟩ := List.mem_map.1 hleaf
    refine ⟨u, hu, ?_⟩
    rw [← u.kind_leaf, hleaf]
    rfl
  exact ⟨htoken _ (by simp [argumentKinds]), htoken _ (by simp [argumentKinds])⟩

theorem Lexeme.unbroken_argumentName {m : Mode} {text rest : List Char} {name : String}
    (h : Lexeme m text rest (.argumentName name)) : Unbroken name := by
  cases h with
  | @bracket _ c _ _ hc =>
    unfold bracket? at hc
    split_ifs at hc <;> cases hc
  | @name c more _ hc hmore =>
    show '\n' ∉ (String.ofList (c :: more)).toList
    rw [String.toList_ofList]
    intro hmem
    rcases List.mem_cons.1 hmem with rfl | hmem
    · exact absurd hc (by decide)
    · exact absurd (hmore _ hmem) (by decide)

/-- A name in a source is one line. -/
theorem unbroken_argumentName_of_mem_tokens {source name : String} {t : Token}
    (ht : t ∈ (Scan.ofSource source).tokens) (hk : t.kind = .argumentName name) :
    Unbroken name := by
  obtain ⟨front, back, htokens⟩ := List.append_of_mem ht
  have hfinds := Scanner.finds_items .document .start source.toList
  obtain ⟨rest, hlexeme⟩ := exists_lexeme_of_finds hfinds htokens
  rw [hk] at hlexeme
  exact hlexeme.unbroken_argumentName

/-- The names of the arguments of a source are one line. -/
theorem unbroken_name_of_mem_parts {source : String} {is : List Instruction}
    (hr : Instruction.read (Scan.ofSource source).tokens = .ok is) {i : Instruction}
    (hi : i ∈ is.flatMap Instruction.parts) :
    ∀ name, (i.arguments.get? name).isSome → Unbroken name := by
  intro name hname
  obtain ⟨l, hl⟩ := Option.isSome_iff_exists.1 hname
  obtain ⟨⟨t, ht, hk⟩, -⟩ := exists_tokens_of_get? hr hi hl
  exact unbroken_argumentName_of_mem_tokens ht hk

/-! ## Messages of a source -/

/-- A message breaks the line only if it quotes a string of the source that does. -/
theorem unbroken_message {source : String} {c : Compilation} (hs : settings.OneLine)
    (hc : Compilation.ofSource settings source = .ok c) {d : Diagnostic}
    (hd : d ∈ c.model.diagnostics.all)
    (hstrings : ∀ t ∈ c.scan.tokens, ∀ s, t.kind = .string s →
      s.toList <:+: d.message.toList → Unbroken s) : Unbroken d.message := by
  obtain ⟨is, hread, rfl⟩ := Compilation.ofSource_eq_ok_iff.1 hc
  obtain ⟨i, hi, hcomplaint⟩ := complaint_of_mem_diagnostics hd
  have hpart : i ∈ is.flatMap Instruction.parts := List.mem_flatMap.2 ⟨i, hi, i.mem_parts⟩
  have hnames := unbroken_name_of_mem_parts hread hpart
  rcases hcomplaint.explains hs hnames with h | ⟨name, s, htext, hquotes⟩
  · exact h
  · obtain ⟨-, t, ht, hk⟩ := exists_tokens_of_get? hread hpart (Arguments.get?_of_text? htext)
    exact hquotes.unbroken (hstrings t ht s hk hquotes.isInfix)

/-! ## Reports -/

theorem IllegalCharacter.unbroken_reportLine (e : IllegalCharacter) : Unbroken e.reportLine := by
  unfold reportLine display
  simp only [unbroken_append, unbroken_quotedChar, unbroken_toString_nat]
  decide

theorem Diagnostic.unbroken_display_iff {d : Diagnostic} :
    Unbroken d.display ↔ Unbroken d.message := by
  have hseverity : Unbroken d.severity.name := by cases d.severity <;> decide
  have hcode : Unbroken d.code.name := by cases d.code <;> decide
  have hopen : Unbroken " [" := by decide
  have hline : Unbroken "] (line " := by decide
  have hclose : Unbroken "): " := by decide
  simp only [display, unbroken_append, hseverity, hcode, unbroken_toString_nat, hopen, hline,
    hclose, true_and]

/-- How the entry of an error or a warning begins. -/
def BeginsEntry (l : String) : Prop :=
  "error [".toList <+: l.toList ∨ "warning [".toList <+: l.toList

instance (l : String) : Decidable (BeginsEntry l) :=
  inferInstanceAs (Decidable (_ ∨ _))

theorem BeginsEntry.append {front : String} (h : BeginsEntry front) (back : String) :
    BeginsEntry (front ++ back) := by
  unfold BeginsEntry at h ⊢
  rw [String.toList_append]
  rcases h with h | h
  · exact .inl (h.trans (List.prefix_append _ _))
  · exact .inr (h.trans (List.prefix_append _ _))

theorem IllegalCharacter.beginsEntry_reportLine (e : IllegalCharacter) :
    BeginsEntry e.reportLine := by
  apply BeginsEntry.append
  decide

theorem Diagnostic.beginsEntry_display (d : Diagnostic) : BeginsEntry d.display := by
  have hfront : BeginsEntry (d.severity.name ++ " [") := by cases d.severity <;> decide
  exact ((((hfront.append _).append _).append _).append _).append _

/-- The report has a line for every illegal character, error and warning, and no other line. -/
def Compilation.OnePerLine (c : Compilation) : Prop :=
  ∃ lines, IsLines c.report lines ∧
    lines.Perm (c.scan.illegal.map (·.reportLine) ++ c.model.diagnostics.all.map (·.display)) ∧
      ∀ l ∈ lines, BeginsEntry l

theorem Compilation.onePerLine_iff {c : Compilation} :
    c.OnePerLine ↔ ∀ d ∈ c.model.diagnostics.all, Unbroken d.message := by
  let entries := c.scan.illegal.map (·.reportLine) ++ c.model.diagnostics.all.map (·.display)
  constructor
  · rintro ⟨lines, hlines, hperm, -⟩ d hd
    have hdisplay : d.display ∈ entries := List.mem_append_right _ (List.mem_map_of_mem hd)
    exact Diagnostic.unbroken_display_iff.1 (hlines.unbroken _ (hperm.mem_iff.2 hdisplay))
  · intro hmessages
    have hperm : (reportLines c.scan.illegal c.model.diagnostics).Perm entries :=
      (c.model.diagnostics.inSourceOrder_perm.map _).append_left _
    have hentries : ∀ l ∈ entries, Unbroken l ∧ BeginsEntry l := by
      intro l hl
      rcases List.mem_append.1 hl with hl | hl
      · obtain ⟨e, -, rfl⟩ := List.mem_map.1 hl
        exact ⟨e.unbroken_reportLine, e.beginsEntry_reportLine⟩
      · obtain ⟨d, hd, rfl⟩ := List.mem_map.1 hl
        exact ⟨Diagnostic.unbroken_display_iff.2 (hmessages d hd), d.beginsEntry_display⟩
    refine ⟨_, ⟨?_, rfl⟩, hperm, ?_⟩
    · intro l hl
      exact (hentries l (hperm.mem_iff.1 hl)).1
    · intro l hl
      exact (hentries l (hperm.mem_iff.1 hl)).2

/-- **When a report is one per line.** For a source that compiles under the standard settings, the
report has one line for each illegal character, error and warning just if no string of the source
that stands in a message has a line feed. -/
theorem report_one_per_line_iff {source : String} {c : Compilation}
    (hc : Compilation.ofSource .standard source = .ok c) :
    c.OnePerLine ↔ ∀ d ∈ c.model.diagnostics.all, ∀ t ∈ c.scan.tokens, ∀ s, t.kind = .string s →
      s.toList <:+: d.message.toList → Unbroken s := by
  rw [Compilation.onePerLine_iff]
  constructor
  · intro h d hd t _ s _ hin
    exact (h d hd).of_isInfix hin
  · intro h d hd
    exact unbroken_message Settings.oneLine_standard hc hd (h d hd)

/-- A name with a line feed that no message quotes. -/
theorem report_one_per_line_unquoted :
    let source := "$style(#name=\"a\nb\")$section(#style=\"no\")\x7bx\x7d"
    ∃ c, Compilation.ofSource .standard source = .ok c ∧ (c.OnePerLine ↔
      ∀ d ∈ c.model.diagnostics.all, ∀ t ∈ c.scan.tokens, ∀ s, t.kind = .string s →
        s.toList <:+: d.message.toList → Unbroken s) := by
  intro source
  have hok : (Compilation.ofSource .standard source).isOk := by decide +kernel
  cases hc : Compilation.ofSource .standard source with
  | error e =>
    rw [hc] at hok
    cases hok
  | ok c => exact ⟨c, rfl, report_one_per_line_iff hc⟩

/-- The name of a style that is not there has a line feed, and so has the message. -/
theorem report_not_one_per_line :
    ∃ c, Compilation.ofSource .standard "$section(#style=\"a\nb\")\x7bx\x7d" = .ok c ∧
      ¬ c.OnePerLine := by
  generalize hsource : "$section(#style=\"a\nb\")\x7bx\x7d" = source
  have hbroken : (Compilation.ofSource .standard source).toOption.any fun c =>
      c.model.diagnostics.all.any fun d => !decide (Unbroken d.message) := by
    rw [← hsource]
    decide +kernel
  cases hc : Compilation.ofSource .standard source with
  | error e =>
    rw [hc] at hbroken
    cases hbroken
  | ok c =>
    rw [hc] at hbroken
    refine ⟨c, rfl, ?_⟩
    intro hone
    obtain ⟨d, hd, hmessage⟩ := List.any_eq_true.1 hbroken
    simp [Compilation.onePerLine_iff.1 hone d hd] at hmessage

end Folio
