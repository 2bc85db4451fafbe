import Folio.Proofs.ArgumentPlace
import Folio.Proofs.Complaints
import Folio.Proofs.Defaults
import Folio.Proofs.Modes

/-!
# Numeric arguments, from the source to the model

**Spellings** (`Literal.Spelling`). Digits in a source become a number, cut off at 64 bits, and
digits in quotes become a text.

**Theorem (`numeric_arguments`).** In a source that compiles, let digits be the value of a numeric
argument, with quotes or without. If its instruction is accepted without the argument, it is
accepted with it. The field of the argument holds the value of the digits if that is within the
bounds, and there is no correction of the argument; otherwise it holds the default, and there is
one. A source with the other spelling compiles too, and has the same model but for the texts of
warnings.

Behind an equals sign the mode is arguments mode, so digits are read as a number and digits in
quotes as a text (`exists_spelling_of_tokens`). Bounds have 32 bits, so a number that is cut off
lies outside, as does a text of a number that has more than 64 bits (`number_of_spelling`). No
verdict looks at diagnostics, so two runs that part in the text of a warning go on alike
(`sameUpToWarnings_foldl_step`).
-/

namespace Folio

/-! ## Spellings -/

/-- The literal is what digits stand for, without quotes or with them. -/
def Literal.Spelling (d : String) (l : Literal) : Prop :=
  l = .number (min (Text.decimal d.toList) Text.maxInt64) ∨ l = .text d

/-- A token among others is a lexeme in the mode behind those in front. -/
theorem exists_lexeme_of_finds {m : Mode} {p : Position} {cs : List Char} {is : List Scanned}
    (h : Finds m p cs is) {front back : List Token} {t : Token}
    (htokens : (Scan.ofItems is).tokens = front ++ t :: back) :
    ∃ rest, Lexeme (m.behind (front.map (·.kind))) t.text.toList rest t.kind := by
  induction h generalizing front with
  | nil => cases front <;> cases htokens
  | blank _ _ ih => exact ih htokens
  | @token m p text rest kind is hlexeme _ ih =>
    cases front with
    | nil =>
      cases htokens
      refine ⟨rest, ?_⟩
      simpa [Token.placed, Mode.behind] using hlexeme
    | cons u front =>
      obtain ⟨rfl, hrest⟩ := List.cons.inj htokens
      exact ih hrest
  | illegal _ _ ih => exact ih htokens

/-- Only in arguments mode is there an equals sign, so the next token is read in it as well. -/
theorem exists_lexeme_behind_equals {source : String} {front back : List Token} {t : Token}
    {kinds : List Kind} (htokens : (Scan.ofSource source).tokens = front ++ t :: back)
    (hfront : front.map (·.kind) = kinds ++ [.equals]) :
    ∃ rest, Lexeme .arguments t.text.toList rest t.kind := by
  have hfinds := Scanner.finds_items .document .start source.toList
  obtain ⟨rest, hlexeme⟩ := exists_lexeme_of_finds hfinds htokens
  obtain ⟨front, last, rfl, rfl, hlast⟩ := List.map_eq_append_iff.1 hfront
  obtain ⟨equals, none, rfl, hequals, hnone⟩ := List.map_eq_cons_iff.1 hlast
  obtain rfl := List.map_eq_nil_iff.1 hnone
  rw [List.append_assoc] at htokens
  obtain ⟨_, hahead⟩ := exists_lexeme_of_finds hfinds htokens
  have hmode : Mode.document.behind (front.map (·.kind)) = .arguments := by
    have hreads := hequals ▸ hahead.reads
    generalize Mode.document.behind (front.map (·.kind)) = m at hreads
    cases m with
    | document => exact hreads.elim
    | arguments => rfl
  rw [hfront, Mode.behind_append, hmode] at hlexeme
  exact ⟨rest, hlexeme⟩

/-- In arguments mode, digits are a number and digits in quotes are a string. -/
theorem Lexeme.exists_spelling {text rest : List Char} {kind : Kind} {d : String}
    (h : Lexeme .arguments text rest kind) (hd : Text.IsDigits d.toList)
    (htext : text = d.toList ∨ text = '"' :: d.toList ++ ['"']) :
    ∃ l : Literal, l.kind = kind ∧ l.Spelling d := by
  rcases htext with rfl | rfl
  · have hhead : ∀ c ∈ d.toList.head?, c.isDigit := fun c hc => hd.2 c (List.mem_of_mem_head? hc)
    generalize hcs : d.toList = cs at h hhead
    cases h with
    | @bracket _ c _ _ hc =>
      rw [bracket?_of_endsText (endsText_of_isDigit (hhead c rfl))] at hc
      cases hc
    | number => exact ⟨_, rfl, .inl (by rw [hcs])⟩
    | equals | comma | name | string => exact absurd (hhead _ rfl) (by decide)
  · generalize hcs : '"' :: d.toList ++ ['"'] = cs at h
    cases h with
    | bracket => simp at hcs
    | @string value =>
      have hvalue : d.toList = value := by simpa using hcs
      exact ⟨.text d, by rw [← hvalue, String.ofList_toList]; rfl, .inr rfl⟩
    | number hdigits =>
      cases hcs
      exact absurd (hdigits _ List.mem_cons_self) (by decide)
    | equals | comma | name => cases hcs

/-- The token behind an equals sign is a literal that is a spelling of its digits. -/
theorem exists_spelling_of_tokens {source : String} {front back : List Token} {t : Token}
    {kinds : List Kind} {d : String}
    (htokens : (Scan.ofSource source).tokens = front ++ t :: back)
    (hfront : front.map (·.kind) = kinds ++ [.equals]) (hd : Text.IsDigits d.toList)
    (htext : t.text = d ∨ t.text = "\"" ++ d ++ "\"") :
    ∃ l : Literal, l.kind = t.kind ∧ l.Spelling d := by
  obtain ⟨rest, hlexeme⟩ := exists_lexeme_behind_equals htokens hfront
  refine hlexeme.exists_spelling hd (htext.imp (congrArg String.toList) fun h => ?_)
  simp [h]

/-! ## An argument more or less -/

namespace Arguments

variable {args : Arguments} {name : String} {l : Literal}

/-- The arguments with other names. -/
def without (args : Arguments) (name : String) : Arguments :=
  ⟨args.entries.filter (·.1 ≠ name), args.sorted.filter _⟩

theorem get?_without (args : Arguments) (name other : String) :
    (args.without name).get? other = if other = name then none else args.get? other := by
  ext l
  rw [← mem_entries_iff, without, List.mem_filter, mem_entries_iff]
  split_ifs with hother <;> simp [hother]

theorem insert_without (args : Arguments) (name : String) (l : Literal) :
    (args.without name).insert name l = args.insert name l := by
  refine eq_of_get? fun other => ?_
  rw [get?_insert, get?_insert, get?_without]
  split_ifs <;> rfl

theorem insert_of_get? (h : args.get? name = some l) : args.insert name l = args := by
  refine eq_of_get? fun other => ?_
  rw [get?_insert]
  split_ifs with hother
  · rw [hother, h]
  · rfl

end Arguments

/-- An argument for a number is no fault, whatever it is. -/
theorem Signature.faults_insert_number {signature : Signature} {keyword : Keyword}
    {args : Arguments} {name : String} (l : Literal)
    (hname : signature.lookup name = some .number) :
    signature.faults keyword (args.insert name l) =
      signature.faults keyword (args.without name) := by
  rw [← Arguments.insert_without]
  exact faults_insert ((args.get?_without name name).trans (if_pos rfl)) hname nofun

/-! ## What digits are read as -/

/-- The digits are read as their value within the bounds, and corrected once otherwise. -/
theorem Arguments.number_of_spelling {args : Arguments} {name d : String} {l : Literal}
    (hd : Text.IsDigits d.toList) (hget : args.get? name = some l) (hl : l.Spelling d)
    (bounds : Bounds) (fallback : UInt32) :
    if bounds.contains (Text.decimal d.toList) then
      args.number name bounds fallback = .plain (UInt32.ofNat (Text.decimal d.toList))
    else ∃ c, args.number name bounds fallback = .replaced fallback c := by
  have hmax : (bounds.max.toNat : Int) < Text.maxInt64 := by
    have := bounds.max.toNat_lt
    simp only [Text.maxInt64]
    omega
  split_ifs with hb
  · have hdenotes : l.Denotes (Text.decimal d.toList) := by
      rcases hl with rfl | rfl
      · exact min_eq_left ((Bounds.contains_iff.1 hb).2.trans hmax.le)
      · exact Text.numeral_of_isDigits hd
    simpa using number_of_denotes hget hdenotes hb
  · refine number_of_not_contains hget fun v hv => ?_
    rcases hl with rfl | rfl
    · -- A number that is cut off is not within the bounds either.
      obtain rfl : min (Text.decimal d.toList : Int) Text.maxInt64 = v := hv
      rcases le_total (Text.decimal d.toList : Int) Text.maxInt64 with hle | hle
      · rwa [min_eq_left hle, ← Bool.not_eq_true]
      · rw [min_eq_right hle, ← Bool.not_eq_true]
        exact fun hcut => hmax.not_ge (Bounds.contains_iff.1 hcut).2
    · rwa [← (Text.numeral_of_isDigits hd).eq hv, ← Bool.not_eq_true]

/-- The name of the argument that a correction is about. -/
def Correction.argument : Correction → String
  | unregisteredFont name _ _ | unknownColor name _ _ | notNumber name _ _
  | outOfRange name _ _ _ | unknownPosition name _ _ => name

namespace Parameter

variable {settings : Settings} {args : Arguments} {p : Parameter}

/-- The corrections of a parameter are about its argument. -/
theorem argument_of_mem_corrections : ∀ c ∈ p.corrections settings args, c.argument = p.name := by
  intro c hc
  cases corrects_of_mem hc <;> rfl

/-- Among the corrections of all parameters, those about an argument are those of its parameter. -/
theorem countP_flatMap_corrections {ps : List Parameter} (hnodup : (ps.map (·.name)).Nodup)
    (hp : p ∈ ps) : (ps.flatMap (·.corrections settings args)).countP (·.argument = p.name) =
      (p.corrections settings args).length := by
  have hother : ∀ ps : List Parameter, p.name ∉ ps.map (·.name) →
      (ps.flatMap (·.corrections settings args)).countP (·.argument = p.name) = 0 := by
    intro ps hnot
    refine List.countP_eq_zero.2 fun c hc => ?_
    obtain ⟨q, hq, hc⟩ := List.mem_flatMap.1 hc
    have hne : q.name ≠ p.name := fun heq => hnot (List.mem_map.2 ⟨q, hq, heq⟩)
    simp [argument_of_mem_corrections c hc, hne]
  obtain ⟨front, back, rfl⟩ := List.append_of_mem hp
  rw [List.map_append, List.map_cons, List.nodup_middle, List.nodup_cons, List.mem_append,
    not_or] at hnodup
  have hown : (p.corrections settings args).countP (·.argument = p.name) =
      (p.corrections settings args).length :=
    List.countP_eq_length.2 fun c hc => by simp [argument_of_mem_corrections c hc]
  rw [List.flatMap_append, List.flatMap_cons, List.countP_append, List.countP_append,
    hother front hnodup.1.1, hother back hnodup.1.2, hown, Nat.zero_add, Nat.add_zero]

end Parameter

/-- Two spellings are read as the same value, with as many corrections. -/
theorem Parameter.read?_of_spelling {settings : Settings} {args args' : Arguments}
    {name d : String} {bounds : Bounds} {fallback : UInt32} {l l' : Literal}
    (hd : Text.IsDigits d.toList) (hget : args.get? name = some l) (hl : l.Spelling d)
    (hget' : args'.get? name = some l') (hl' : l'.Spelling d) :
    let p : Parameter := ⟨name, .number bounds fallback⟩
    (p.read? settings args').map (·.value) = (p.read? settings args).map (·.value) ∧
      (p.corrections settings args').length = (p.corrections settings args).length := by
  have hnumber := Arguments.number_of_spelling hd hget hl bounds fallback
  have hnumber' := Arguments.number_of_spelling hd hget' hl' bounds fallback
  split_ifs at hnumber hnumber' with hb
  · simp [read?, corrections, hnumber, hnumber']
  · obtain ⟨c, hnumber⟩ := hnumber
    obtain ⟨c', hnumber'⟩ := hnumber'
    simp [read?, corrections, hnumber, hnumber', Corrected.map, Corrected.replaced]

/-! ## The instruction of the argument -/

namespace Resolution

variable {settings : Settings} {r : Resolution} {i : Instruction}

/-- Acceptance depends on the arguments by their faults and the texts. -/
theorem exists_accepts_withArguments {args args' : Arguments} {c : Change}
    {corrections : List Correction}
    (ha : Accepts settings r (i.withArguments args) c corrections)
    (hfaults : i.keyword.signature.faults i.keyword args' = [])
    (htext : ∀ name, i.keyword.signature.lookup name = some .text →
      args'.get? name = args.get? name) :
    ∃ c' corrections', Accepts settings r (i.withArguments args') c' corrections' := by
  have htext? : ∀ name, i.keyword.signature.lookup name = some .text →
      args'.text? name = args.text? name := fun name hname => by
    rw [Arguments.text?, htext name hname, Arguments.text?]
  have hstyle : ∀ kind, i.keyword = .block kind →
      args'.blockStyle settings kind = args.blockStyle settings kind := by
    intro kind hkind
    have hlookup : i.keyword.signature.lookup "style" = some .text := by
      rw [hkind]
      cases kind <;> rfl
    unfold Arguments.blockStyle
    rw [htext? "style" hlookup]
  cases i with
  | directive kind args₀ line =>
    cases ha with
    | style _ hname hnew => exact ⟨_, _, .style hfaults ((htext? "name" rfl).trans hname) hnew⟩
    | pageNumber _ hnone => exact ⟨_, _, .pageNumber hfaults hnone⟩
    | numberizeTitle => exact ⟨_, _, .numberizeTitle hfaults⟩
  | block kind args₀ content line =>
    cases ha with
    | title _ hused hcontent =>
      exact ⟨_, _, .title hfaults ((hstyle .title rfl).symm ▸ hused) hcontent⟩
    | body _ hused hcontent =>
      exact ⟨_, _, .body hfaults ((hstyle .body rfl).symm ▸ hused) hcontent⟩
  | emphasis kind text line => cases ha

theorem faults_of_accepts_withArguments {args : Arguments} {c : Change}
    {corrections : List Correction}
    (ha : Accepts settings r (i.withArguments args) c corrections) :
    i.keyword.signature.faults i.keyword args = [] := by
  cases i with
  | emphasis kind text line => cases ha
  | _ => exact faults_of_accepts ha

variable {name d : String} {bounds : Bounds} {fallback : UInt32}

/-- **The digits are resolved** to their value within the bounds and to the default otherwise, with
one correction. -/
theorem resolved_of_spelling (hp : ⟨name, .number bounds fallback⟩ ∈ i.keyword.parameters settings)
    (hd : Text.IsDigits d.toList) {l : Literal} (hget : i.arguments.get? name = some l)
    (hl : l.Spelling d)
    (hrest : (r.step settings (i.withArguments (i.arguments.without name))).diagnostics.errors =
      r.diagnostics.errors) :
    ∃ (change : Change) (corrections : List Correction),
      r.step settings i = { r.change change with diagnostics := ⟨r.diagnostics.errors,
        r.diagnostics.warnings ++ corrections.map (·.diagnostic i.keyword i.line)⟩ } ∧
      (∃ v, change.field? name = some (.number v) ∧
        if bounds.contains (Text.decimal d.toList) then v.toNat = Text.decimal d.toList
        else v = fallback) ∧
      corrections.countP (·.argument = name) =
        if bounds.contains (Text.decimal d.toList) then 0 else 1 := by
  have hlookup : i.keyword.signature.lookup name = some .number := Keyword.lookup_signature hp
  obtain ⟨c₀, warnings₀, hj₀⟩ := errors_step_eq_iff.1 hrest
  obtain ⟨corrections₀, ha₀, -⟩ := judge_eq_accepted_iff.1 hj₀
  have hfaults : i.keyword.signature.faults i.keyword i.arguments = [] := by
    rw [← Arguments.insert_of_get? hget, Signature.faults_insert_number l hlookup]
    exact faults_of_accepts_withArguments ha₀
  obtain ⟨change, corrections, ha⟩ := exists_accepts_withArguments ha₀ hfaults
    fun other hother => by
      have hne : other ≠ name := by
        rintro rfl
        cases hlookup.symm.trans hother
      exact ((i.arguments.get?_without name other).trans (if_neg hne)).symm
  rw [Instruction.withArguments_arguments] at ha
  have hj := judge_eq_accepted_iff.2 ⟨corrections, ha, rfl⟩
  obtain ⟨v, hread, hfield⟩ := field?_of_accepts ha _ hp
  obtain rfl : (i.arguments.number name bounds fallback).map .number = v := Option.some.inj hread
  have hnumber := Arguments.number_of_spelling hd hget hl bounds fallback
  have hlength : corrections.countP (·.argument = name) =
      (i.arguments.number name bounds fallback).corrections.length := by
    rw [corrections_of_accepts ha]
    exact Parameter.countP_flatMap_corrections (i.keyword.nodup_names_parameters settings) hp
  refine ⟨change, corrections, step_of_accepted hj, ⟨_, hfield, ?_⟩, hlength.trans ?_⟩
  · split_ifs at hnumber ⊢ with hb
    · rw [hnumber]
      exact_mod_cast Bounds.toNat_ofInt_of_contains hb
    · obtain ⟨c, hnumber⟩ := hnumber
      rw [hnumber]
      rfl
  · split_ifs at hnumber ⊢ with hb
    · rw [hnumber]
      rfl
    · obtain ⟨c, hnumber⟩ := hnumber
      rw [hnumber]
      rfl

/-! ## Two spellings -/

/-- The states are the same but for what their warnings say. -/
def SameUpToWarnings (r s : Resolution) : Prop :=
  ∃ warnings, warnings.length = r.diagnostics.warnings.length ∧
    s = { r with diagnostics := ⟨r.diagnostics.errors, warnings⟩ }

variable {s : Resolution}

/-- Verdicts with one outcome and as many warnings lead to the same but for the warnings. -/
theorem sameUpToWarnings_step_of_outcome {j : Instruction}
    (houtcome : (r.judge settings j).outcome = (r.judge settings i).outcome)
    (hlength : ∀ {c warnings warnings'}, r.judge settings i = .accepted c warnings →
      r.judge settings j = .accepted c warnings' → warnings'.length = warnings.length) :
    (r.step settings i).SameUpToWarnings (r.step settings j) := by
  cases hj : r.judge settings i with
  | rejected errors =>
    rw [hj] at houtcome
    rw [step_of_rejected hj, step_of_rejected (Verdict.eq_of_outcome_error houtcome)]
    exact ⟨_, rfl, rfl⟩
  | accepted c warnings =>
    rw [hj] at houtcome
    obtain ⟨warnings', hj'⟩ := Verdict.exists_of_outcome_ok houtcome
    rw [step_of_accepted hj, step_of_accepted hj']
    exact ⟨_, by simp [hlength hj hj'], rfl⟩

/-- **One instruction** in two such states. -/
theorem sameUpToWarnings_step (h : r.SameUpToWarnings s) (i : Instruction) :
    (r.step settings i).SameUpToWarnings (s.step settings i) := by
  obtain ⟨ws, hws, rfl⟩ := h
  have hjudge : Resolution.judge settings { r with diagnostics := ⟨r.diagnostics.errors, ws⟩ } i =
      r.judge settings i := judge_congr (fun _ _ => rfl) fun _ => rfl
  cases hj : r.judge settings i with
  | rejected errors =>
    rw [hj] at hjudge
    rw [step_of_rejected hj, step_of_rejected hjudge]
    exact ⟨_, hws, rfl⟩
  | accepted c warnings =>
    rw [hj] at hjudge
    rw [step_of_accepted hj, step_of_accepted hjudge]
    refine ⟨ws ++ warnings, by simp [hws], ?_⟩
    cases c <;> rfl

/-- **A run** in two such states. -/
theorem sameUpToWarnings_foldl_step (settings : Settings) (h : r.SameUpToWarnings s)
    (is : List Instruction) :
    (is.foldl (step settings) r).SameUpToWarnings (is.foldl (step settings) s) := by
  induction is generalizing r s with
  | nil => exact h
  | cons i is ih => exact ih (sameUpToWarnings_step h i)

/-- The models of two such states. -/
theorem SameUpToWarnings.finish (settings : Settings) (h : r.SameUpToWarnings s) :
    ∃ warnings, warnings.length = (r.finish settings).diagnostics.warnings.length ∧
      s.finish settings = { r.finish settings with
        diagnostics := ⟨(r.finish settings).diagnostics.errors, warnings⟩ } := by
  obtain ⟨warnings, hlength, rfl⟩ := h
  exact ⟨warnings, hlength, rfl⟩

/-- The digits in the other spelling lead to the same but for the warnings. -/
theorem sameUpToWarnings_step_spelling
    (hp : ⟨name, .number bounds fallback⟩ ∈ i.keyword.parameters settings)
    (hd : Text.IsDigits d.toList) {l l' : Literal} (hget : i.arguments.get? name = some l)
    (hl : l.Spelling d) (hl' : l'.Spelling d) :
    (r.step settings i).SameUpToWarnings
      (r.step settings (i.withArguments (i.arguments.insert name l'))) := by
  have hlookup : i.keyword.signature.lookup name = some .number := Keyword.lookup_signature hp
  have hfaults : i.keyword.signature.faults i.keyword (i.arguments.insert name l') =
      i.keyword.signature.faults i.keyword i.arguments := by
    conv => rhs; rw [← Arguments.insert_of_get? hget]
    rw [Signature.faults_insert_number l' hlookup, Signature.faults_insert_number l hlookup]
  have hread : ∀ q ∈ i.keyword.parameters settings,
      (q.read? settings (i.arguments.insert name l')).map (·.value) =
        (q.read? settings i.arguments).map (·.value) ∧
      (q.corrections settings (i.arguments.insert name l')).length =
        (q.corrections settings i.arguments).length := by
    intro q hq
    by_cases hname : q.name = name
    · obtain rfl : q = ⟨name, .number bounds fallback⟩ := List.inj_on_of_nodup_map
        (i.keyword.nodup_names_parameters settings) hq hp hname
      exact Parameter.read?_of_spelling hd hget hl
        ((i.arguments.get?_insert ..).trans (if_pos rfl)) hl'
    · have hsame : q.read? settings (i.arguments.insert name l') = q.read? settings i.arguments :=
        Parameter.read?_congr ((i.arguments.get?_insert ..).trans (if_neg hname))
      rw [Parameter.corrections, Parameter.corrections, hsame]
      exact ⟨rfl, rfl⟩
  have houtcome := outcome_judge_withArguments (r := r) hfaults fun q hq => (hread q hq).1
  rw [Instruction.withArguments_arguments] at houtcome
  refine sameUpToWarnings_step_of_outcome houtcome fun hj hj' => ?_
  rw [← i.withArguments_arguments] at hj
  rw [warnings_of_judge hj, warnings_of_judge hj', List.length_map, List.length_map,
    List.length_flatMap, List.length_flatMap]
  exact congrArg List.sum (List.map_congr_left fun q hq => (hread q hq).2)

end Resolution

/-- **Numeric arguments, end to end.** In a source that compiles, let the value of a numeric
argument be digits, with quotes or without. If the instruction is accepted without the argument, it
is accepted with it. Its field holds the value of the digits within the bounds and the default
otherwise, and just in the second case there is one correction of the argument. Another source with
the same tokens but for the spelling of this value compiles too. It has the same model but for what
the warnings say, and as many warnings. -/
theorem numeric_arguments {settings : Settings} {source : String} {c : Compilation}
    (hc : Compilation.ofSource settings source = .ok c) {before : List Instruction}
    {keyword : Keyword} {name : String} {front back : List Token} {value : Token}
    (htokens : c.scan.tokens = front ++ value :: back)
    (hplace : AroundValue before keyword name front back) {bounds : Bounds} {fallback : UInt32}
    (hp : ⟨name, .number bounds fallback⟩ ∈ keyword.parameters settings) {d : String}
    (hd : Text.IsDigits d.toList) (htext : value.text = d ∨ value.text = "\"" ++ d ++ "\"") :
    let n := Text.decimal d.toList
    let r := before.foldl (Resolution.step settings) (.start settings)
    (∃ i after, c.instructions = before ++ i :: after ∧ i.keyword = keyword ∧
      ((r.step settings (i.withArguments (i.arguments.without name))).diagnostics.errors =
          r.diagnostics.errors →
        ∃ (change : Change) (corrections : List Correction),
          r.step settings i = { r.change change with diagnostics := ⟨r.diagnostics.errors,
            r.diagnostics.warnings ++ corrections.map (·.diagnostic i.keyword i.line)⟩ } ∧
          (∃ v, change.field? name = some (.number v) ∧
            if bounds.contains n then v.toNat = n else v = fallback) ∧
          corrections.countP (·.argument = name) = if bounds.contains n then 0 else 1)) ∧
    ∀ {source' : String} {front' back' : List Token} {value' : Token},
      (Scan.ofSource source').tokens = front' ++ value' :: back' →
      front'.map Token.leaf = front.map Token.leaf →
      back'.map Token.leaf = back.map Token.leaf →
      (value'.text = d ∨ value'.text = "\"" ++ d ++ "\"") →
      ∃ c', Compilation.ofSource settings source' = .ok c' ∧
        ∃ warnings, warnings.length = c.model.diagnostics.warnings.length ∧
          c'.model = { c.model with diagnostics := ⟨c.model.diagnostics.errors, warnings⟩ } := by
  intro n r
  have hkeyword : ∀ e, keyword ≠ .emphasis e := by
    rintro e rfl
    cases hp
  obtain ⟨is, hread, rfl⟩ := Compilation.ofSource_eq_ok_iff.1 hc
  obtain ⟨kinds, hequals⟩ := hplace.exists_kinds
  obtain ⟨l, hl, hspelling⟩ := exists_spelling_of_tokens htokens hequals hd htext
  rw [show (Scan.ofSource source).tokens = front ++ value :: back from htokens] at hread
  obtain ⟨i, after, rfl, rfl, hget, hother⟩ := hplace.exists_instruction hkeyword hl hread
  refine ⟨⟨i, after, rfl, rfl, fun hrest =>
    Resolution.resolved_of_spelling hp hd hget hspelling hrest⟩, ?_⟩
  intro source' front' back' value' htokens' hfront hback htext'
  have hequals' : front'.map (·.kind) = kinds ++ [.equals] := by
    rw [← hequals, ← Token.kinds_leaves, hfront, Token.kinds_leaves]
  obtain ⟨l', hl', hspelling'⟩ := exists_spelling_of_tokens htokens' hequals' hd htext'
  have hread' := hother hfront hback hl'
  rw [← htokens'] at hread'
  have hstep := Resolution.sameUpToWarnings_step_spelling (r := r) hp hd hget hspelling hspelling'
  have hmodels := (Resolution.sameUpToWarnings_foldl_step settings hstep after).finish settings
  refine ⟨_, Compilation.ofSource_eq_ok_iff.2 ⟨_, hread', rfl⟩, ?_⟩
  simpa only [Model.ofInstructions, List.foldl_append, List.foldl_cons] using hmodels

/-- A number that has more than 64 bits is the default in either spelling. -/
theorem numeric_arguments_overlong :
    let i : Instruction := .directive .numberizeTitle
      (.ofList [("numberizeTitleStart", .number 9223372036854775807)]) 1
    ∃ c c' : Compilation,
      Compilation.ofSource .standard "$numberizeTitle(#numberizeTitleStart=099999999999999999999)" =
        .ok c ∧
      Compilation.ofSource .standard
        "$numberizeTitle(#numberizeTitleStart=\"099999999999999999999\")" = .ok c' ∧
      c.instructions = [i] ∧
      (∃ (change : Change) (corrections : List Correction),
        (Resolution.start .standard).step .standard i =
          { (Resolution.start .standard).change change with
            diagnostics := ⟨[], corrections.map (·.diagnostic i.keyword i.line)⟩ } ∧
        change.field? "numberizeTitleStart" = some (.number 1) ∧
        corrections.countP (·.argument = "numberizeTitleStart") = 1) ∧
      ∃ warnings, warnings.length = c.model.diagnostics.warnings.length ∧
        c'.model = { c.model with diagnostics := ⟨c.model.diagnostics.errors, warnings⟩ } := by
  intro i
  let front : List Token :=
    [⟨.keyword (.directive .numberizeTitle), "$numberizeTitle", 1, 0, 15⟩,
      ⟨.openParen, "(", 1, 15, 16⟩,
      ⟨.argumentName "numberizeTitleStart", "#numberizeTitleStart", 1, 16, 36⟩,
      ⟨.equals, "=", 1, 36, 37⟩]
  let value : Token := ⟨.number 9223372036854775807, "099999999999999999999", 1, 37, 58⟩
  let value' : Token := ⟨.string "099999999999999999999", "\"099999999999999999999\"", 1, 37, 60⟩
  have htokens : (Scan.ofSource
      "$numberizeTitle(#numberizeTitleStart=099999999999999999999)").tokens =
        front ++ value :: [⟨.closeParen, ")", 1, 58, 59⟩] := by decide +kernel
  have htokens' : (Scan.ofSource
      "$numberizeTitle(#numberizeTitleStart=\"099999999999999999999\")").tokens =
        front ++ value' :: [⟨.closeParen, ")", 1, 60, 61⟩] := by decide +kernel
  have hread : Instruction.read (front ++ value :: [⟨.closeParen, ")", 1, 58, 59⟩]) = .ok [i] := rfl
  obtain ⟨c, hc, hscan, hi⟩ : ∃ c, Compilation.ofSource .standard
      "$numberizeTitle(#numberizeTitleStart=099999999999999999999)" = .ok c ∧
        c.scan.tokens = front ++ value :: [⟨.closeParen, ")", 1, 58, 59⟩] ∧
        c.instructions = [i] :=
    ⟨_, Compilation.ofSource_eq_ok_iff.2 ⟨[i], htokens.symm ▸ hread, rfl⟩, htokens, rfl⟩
  have hplace : AroundValue [] (.directive .numberizeTitle) "numberizeTitleStart" front
      [⟨.closeParen, ")", 1, 58, 59⟩] :=
    @AroundValue.mk [] _ _ [] [] [] [] _ _ _ _ _ (.inl ⟨rfl, rfl⟩) rfl rfl
      (List.forall_mem_nil _) rfl rfl (List.forall_mem_nil _) rfl
  have hdigits : Text.IsDigits "099999999999999999999".toList := by decide
  obtain ⟨⟨j, after, hinstructions, -, hresolved⟩, hsame⟩ := numeric_arguments hc hscan hplace
    (List.mem_singleton.2 rfl) hdigits (.inl rfl)
  rw [hi] at hinstructions
  obtain ⟨rfl, rfl⟩ := List.cons.inj hinstructions
  obtain ⟨change, corrections, hstep, ⟨v, hfield, hv⟩, hcount⟩ := hresolved (by decide +kernel)
  rw [if_neg (by decide)] at hv
  rw [hv] at hfield
  obtain ⟨c', hc', hmodel⟩ := hsame htokens' rfl rfl (.inr rfl)
  exact ⟨c, c', hc, hc', hi, ⟨change, corrections, hstep, hfield, hcount⟩, hmodel⟩

end Folio
