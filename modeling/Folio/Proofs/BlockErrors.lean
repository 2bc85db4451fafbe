import Folio.Proofs.Parameters
import Mathlib.Data.List.Forall2

/-!
# The errors of a block

**Errors** (`BlockErrors`). A list of errors is right for a block by one of three rules, for names
that the block does not have, for numbers in place of texts, and for the style and the content. Each
rule is for blocks that none of the rules before is for. It says which errors there are and in which
order, names by their bytes and content as it is written.

**Theorem (`block_errors_exact`).** For each block there is just one right list, and these are the
errors that the block adds. It is empty just if the block is accepted. Then a title has the text of
its fragments in one, and a section has one run for each node.

The lists that the rules describe are compared with those that are computed by their members
(`eq_of_byteOrdered`), because arguments are kept by name, and the order of texts is that of their
bytes (`utf8_lt_iff`).
-/

namespace Folio

/-! ## Byte order -/

/-- The bytes of a text. -/
def Text.utf8 (s : String) : List UInt8 := s.toUTF8.data.toList

/-- Each text once, ordered by bytes. -/
def ByteOrdered (texts : List String) : Prop :=
  texts.Pairwise fun a b => Text.utf8 a < Text.utf8 b

namespace Text

theorem utf8_eq (s : String) : utf8 s = s.toList.flatMap String.utf8EncodeChar := by
  rw [utf8, String.toUTF8, ← String.utf8Encode_toList, List.utf8Encode]
  simp

/-- A smaller character has smaller bytes, and they are no prefix of those of the other. -/
theorem utf8EncodeChar_append_lt {c d : Char} (h : c < d) (xs ys : List UInt8) :
    String.utf8EncodeChar c ++ xs < String.utf8EncodeChar d ++ ys := by
  have hlt : c.val.toNat < d.val.toNat := h
  have hmax : d.val.toNat < 0x110000 := by
    rcases d.valid with h | h
    · exact Nat.lt_trans h (by decide)
    · exact h.2
  have hdiv : ∀ n : Nat, n / 262144 = n / 4096 / 64 ∧ n / 4096 = n / 64 / 64 := by omega
  simp only [String.utf8EncodeChar]
  split_ifs <;>
    simp only [List.cons_append, List.nil_append, List.cons_lt_cons_iff, UInt8.lt_iff_toNat_lt,
      UInt8.toNat_ofNat', ← UInt8.toNat_inj, hdiv] <;> omega

theorem utf8EncodeChar_ne_nil (c : Char) : String.utf8EncodeChar c ≠ [] := by
  simp only [String.utf8EncodeChar]
  split_ifs <;> exact List.cons_ne_nil _ _

theorem flatMap_utf8EncodeChar_lt {cs ds : List Char} (h : cs < ds) :
    cs.flatMap String.utf8EncodeChar < ds.flatMap String.utf8EncodeChar := by
  induction h with
  | @nil d ds =>
    obtain ⟨b, bs, hb⟩ := List.exists_cons_of_ne_nil (utf8EncodeChar_ne_nil d)
    rw [List.flatMap_cons, hb]
    exact .nil
  | rel h => exact utf8EncodeChar_append_lt h _ _
  | cons _ ih => exact List.append_left_lt ih

/-- **Texts are ordered by their bytes.** -/
theorem utf8_lt_iff {s t : String} : utf8 s < utf8 t ↔ s < t := by
  have hlt : ∀ {s t : String}, s < t → utf8 s < utf8 t := fun h => by
    rw [utf8_eq, utf8_eq]
    exact flatMap_utf8EncodeChar_lt h
  refine ⟨fun h => String.not_le.1 fun hle => ?_, hlt⟩
  by_cases heq : s = t
  · subst heq
    exact List.lt_irrefl _ h
  · have hts : t < s := String.not_le.1 fun hst => heq (String.le_antisymm hst hle)
    exact List.lt_asymm h (hlt hts)

end Text

theorem byteOrdered_iff {texts : List String} : ByteOrdered texts ↔ texts.Pairwise (· < ·) :=
  List.Pairwise.iff fun _ _ => Text.utf8_lt_iff

/-- Two lists in byte order with the same members are the same. -/
theorem eq_of_byteOrdered {α : Type} {f : α → String} {l m : List α}
    (hl : ByteOrdered (l.map f)) (hm : ByteOrdered (m.map f)) (h : ∀ a, a ∈ l ↔ a ∈ m) :
    l = m := by
  have : Std.Irrefl fun a b : α => f a < f b := ⟨fun a => String.lt_irrefl (f a)⟩
  have : Std.Antisymm fun a b : α => f a < f b :=
    ⟨fun a b hab hba => absurd hba (String.lt_asymm hab)⟩
  exact List.Pairwise.eq_of_mem_iff (List.pairwise_map.1 (byteOrdered_iff.1 hl))
    (List.pairwise_map.1 (byteOrdered_iff.1 hm)) h

/-! ## What is wrong with a block, and what it makes -/

namespace BlockKind

/-- A node that the block may not hold, with its line and what is wrong with it. -/
inductive Offends : BlockKind → Node → Nat → Fault → Prop
  | title (i : Instruction) : Offends title (.instruction i) i.line (.nestedInTitle i.keyword)
  | body (i : Instruction) : (∀ kind, i.keyword ≠ .emphasis kind) →
      Offends body (.instruction i) i.line (.nestedInSection i.keyword)
  | emphasis (kind : EmphasisKind) (line : Nat) :
      Offends body (.instruction (.emphasis kind "" line)) line (.emptyEmphasis kind)

/-- One error for each node that offends, in order. -/
inductive ContentErrors (kind : BlockKind) : List Node → List Diagnostic → Prop
  | nil : ContentErrors kind [] []
  | clean {n : Node} {content : List Node} {errors : List Diagnostic} :
      (∀ line f, ¬ kind.Offends n line f) → ContentErrors kind content errors →
      ContentErrors kind (n :: content) errors
  | offending {n : Node} {line : Nat} {f : Fault} {content : List Node}
      {errors : List Diagnostic} :
      kind.Offends n line f → ContentErrors kind content errors →
      ContentErrors kind (n :: content) (f.diagnostic line :: errors)

end BlockKind

/-- The run that a node of a section is. -/
inductive Node.Becomes : Node → Run → Prop
  | text (s : String) : Becomes (.text s) ⟨none, s⟩
  | emphasis (kind : EmphasisKind) (s : String) (line : Nat) :
      Becomes (.instruction (.emphasis kind s line)) ⟨some kind, s⟩

/-- The item holds the content of the block. -/
inductive BlockKind.Makes : BlockKind → List Node → Item → Prop
  | title {fragments : List String} {t : Title} : t.text = String.join fragments →
      Makes title (fragments.map Node.text) (.title t)
  | body {content : List Node} {s : Section} : List.Forall₂ Node.Becomes content s.content →
      Makes body content (.body s)

/-- The errors of a block. -/
inductive BlockErrors (settings : Settings) (r : Resolution) (kind : BlockKind)
    (args : Arguments) (content : List Node) (line : Nat) : List Diagnostic → Prop
  | unknown {names : List String} : names ≠ [] → ByteOrdered names →
      (∀ name, name ∈ names ↔
        (args.get? name).isSome ∧ name ∉ (Signature.ofBlock kind).names) →
      BlockErrors settings r kind args content line (names.map fun name =>
        Fault.diagnostic line
          (.unknownArgument (.block kind) name (Signature.ofBlock kind).names))
  | mistyped {numbers : List (String × Int)} :
      (∀ name, (args.get? name).isSome → name ∈ (Signature.ofBlock kind).names) →
      numbers ≠ [] → ByteOrdered (numbers.map (·.1)) →
      (∀ e, e ∈ numbers ↔ args.get? e.1 = some (.number e.2) ∧
        (Signature.ofBlock kind).lookup e.1 = some .text) →
      BlockErrors settings r kind args content line (numbers.map fun e =>
        Fault.diagnostic line (.numberForText (.block kind) e.1 e.2))
  | content {errors : List Diagnostic} :
      (∀ name, (args.get? name).isSome → name ∈ (Signature.ofBlock kind).names) →
      (∀ name v, args.get? name = some (.number v) →
        (Signature.ofBlock kind).lookup name ≠ some .text) →
      kind.ContentErrors content errors →
      BlockErrors settings r kind args content line
        ((if r.hasStyle (args.blockStyle settings kind) then []
          else [Fault.diagnostic line
            (.unknownStyle (.block kind) (args.blockStyle settings kind))]) ++ errors)

/-! ## The errors as they are computed -/

namespace Signature

variable {signature : Signature} {args : Arguments}

theorem byteOrdered_unknownNames : ByteOrdered (signature.unknownNames args) :=
  byteOrdered_iff.2 ((List.pairwise_map.2 args.sorted).filter _)

theorem byteOrdered_numbersForText : ByteOrdered ((signature.numbersForText args).map (·.1)) := by
  rw [byteOrdered_iff, List.pairwise_map, numbersForText, List.pairwise_filterMap]
  refine args.sorted.imp fun {e d} hlt b hb c hc => ?_
  obtain ⟨name, _ | v⟩ := e
  · cases hb
  obtain ⟨name', _ | w⟩ := d
  · cases hc
  obtain ⟨-, hb⟩ := Option.ite_none_right_eq_some.1 hb
  obtain ⟨-, hc⟩ := Option.ite_none_right_eq_some.1 hc
  cases hb
  cases hc
  exact hlt

end Signature

namespace BlockKind

def nodeError? : BlockKind → Node → Option Diagnostic
  | title => Node.titleError?
  | body => Node.sectionError?

variable {kind : BlockKind} {content : List Node}

theorem nodeError?_eq_some_iff {n : Node} {d : Diagnostic} :
    kind.nodeError? n = some d ↔ ∃ line f, kind.Offends n line f ∧ d = f.diagnostic line := by
  constructor
  · intro h
    cases kind with
    | title =>
      cases n with
      | text s => cases h
      | instruction i => exact ⟨_, _, .title i, (Option.some.inj h).symm⟩
    | body =>
      rcases n with s | (_ | _ | ⟨kind, s, line⟩)
      · cases h
      · exact ⟨_, _, .body _ nofun, (Option.some.inj h).symm⟩
      · exact ⟨_, _, .body _ nofun, (Option.some.inj h).symm⟩
      · obtain ⟨hempty, hd⟩ := Option.ite_none_right_eq_some.1 h
        obtain rfl := String.isEmpty_iff.1 hempty
        exact ⟨_, _, .emphasis kind line, (Option.some.inj hd).symm⟩
  · rintro ⟨line, f, h, rfl⟩
    cases h with
    | title i => rfl
    | body i hkeyword =>
      cases i with
      | emphasis kind s line => exact absurd rfl (hkeyword kind)
      | _ => rfl
    | emphasis kind line => rfl

/-- The errors of the content are those of the nodes that have one. -/
theorem contentErrors_iff {errors : List Diagnostic} :
    kind.ContentErrors content errors ↔ errors = content.filterMap kind.nodeError? := by
  constructor
  · intro h
    induction h with
    | nil => rfl
    | clean hn _ ih =>
      have hnone := Option.eq_none_iff_forall_not_mem.2 fun d hd => by
        obtain ⟨line, f, hoffends, -⟩ := nodeError?_eq_some_iff.1 hd
        exact hn line f hoffends
      rw [List.filterMap_cons_none hnone, ih]
    | offending hn _ ih =>
      rw [List.filterMap_cons_some (nodeError?_eq_some_iff.2 ⟨_, _, hn, rfl⟩), ih]
  · rintro rfl
    induction content with
    | nil => exact .nil
    | cons n content ih =>
      cases hn : kind.nodeError? n with
      | none =>
        rw [List.filterMap_cons_none hn]
        refine .clean (fun line f h => ?_) ih
        cases hn.symm.trans (nodeError?_eq_some_iff.2 ⟨line, f, h, rfl⟩)
      | some d =>
        rw [List.filterMap_cons_some hn]
        obtain ⟨line, f, h, rfl⟩ := nodeError?_eq_some_iff.1 hn
        exact .offending h ih

/-- Content without an error is all text in a title. -/
theorem map_text_of_titleError? (h : ∀ n ∈ content, n.titleError? = none) :
    (content.filterMap Node.text?).map Node.text = content := by
  induction content with
  | nil => rfl
  | cons n content ih =>
    obtain ⟨hn, hcontent⟩ := List.forall_mem_cons.1 h
    cases n with
    | text s => exact congrArg (.text s :: ·) (ih hcontent)
    | instruction i => cases hn

/-- Content without an error is text and emphases in a section. -/
theorem forall₂_becomes_of_sectionError? (h : ∀ n ∈ content, n.sectionError? = none) :
    List.Forall₂ Node.Becomes content (content.filterMap Node.run?) := by
  induction content with
  | nil => exact .nil
  | cons n content ih =>
    obtain ⟨hn, hcontent⟩ := List.forall_mem_cons.1 h
    rcases n with s | (_ | _ | ⟨kind, s, line⟩)
    · exact .cons (.text s) (ih hcontent)
    · cases hn
    · cases hn
    · exact .cons (.emphasis kind s line) (ih hcontent)

end BlockKind

namespace Resolution

variable {settings : Settings} {r : Resolution} {kind : BlockKind} {args : Arguments}
  {content : List Node} {line : Nat}

/-- The errors that a block adds. -/
def blockErrors (settings : Settings) (r : Resolution) (kind : BlockKind) (args : Arguments)
    (content : List Node) (line : Nat) : List Diagnostic :=
  match signatureErrors (.ofBlock kind) (.block kind) args line with
  | [] =>
    r.styleErrors kind (args.blockStyle settings kind) line ++
      content.filterMap kind.nodeError?
  | errors => errors

theorem blockErrors_of_wellSigned
    (h : (Signature.ofBlock kind).faults (.block kind) args = []) :
    r.blockErrors settings kind args content line =
      r.styleErrors kind (args.blockStyle settings kind) line ++
        content.filterMap kind.nodeError? := by
  rw [blockErrors, signatureErrors_eq_nil_iff.2 h]

theorem blockErrors_of_not_wellSigned
    (h : (Signature.ofBlock kind).faults (.block kind) args ≠ []) :
    r.blockErrors settings kind args content line =
      signatureErrors (.ofBlock kind) (.block kind) args line := by
  unfold blockErrors
  split
  · next hnil => exact absurd (signatureErrors_eq_nil_iff.1 hnil) h
  · rfl

/-- A block with errors is rejected. -/
theorem judge_block_of_ne_nil (h : r.blockErrors settings kind args content line ≠ []) :
    r.judge settings (.block kind args content line) =
      .rejected (r.blockErrors settings kind args content line) := by
  by_cases hs : (Signature.ofBlock kind).faults (.block kind) args = []
  · rw [blockErrors_of_wellSigned hs] at h ⊢
    have hsigned : signatureErrors (.ofBlock kind) (.block kind) args line = [] :=
      signatureErrors_eq_nil_iff.2 hs
    cases kind <;>
      exact (congrArg (Verdict.ofErrors · _) hsigned).trans (ofErrors_of_ne_nil h)
  · rw [blockErrors_of_not_wellSigned hs] at h ⊢
    exact ofErrors_of_ne_nil h

/-- A block without errors is accepted. -/
theorem judge_block_of_nil (h : r.blockErrors settings kind args content line = []) :
    ∃ item warnings, kind.Makes content item ∧
      r.judge settings (.block kind args content line) = .accepted (.item item) warnings := by
  by_cases hs : (Signature.ofBlock kind).faults (.block kind) args = []
  · rw [blockErrors_of_wellSigned hs, List.append_eq_nil_iff, styleErrors_eq_nil_iff,
      List.filterMap_eq_nil_iff] at h
    obtain ⟨hstyle, hcontent⟩ := h
    cases kind with
    | title =>
      have hmakes : BlockKind.title.Makes content (.title ⟨args.blockStyle settings .title,
          (args.titleLevel settings).value, String.join (content.filterMap Node.text?)⟩) := by
        conv => lhs; rw [← BlockKind.map_text_of_titleError? hcontent]
        exact .title rfl
      exact ⟨_, _, hmakes, judge_eq_accepted_iff.2 ⟨_, .title hs hstyle hcontent, rfl⟩⟩
    | body =>
      exact ⟨_, _, .body (BlockKind.forall₂_becomes_of_sectionError? hcontent),
        judge_eq_accepted_iff.2 ⟨_, .body hs hstyle hcontent, rfl⟩⟩
  · rw [blockErrors_of_not_wellSigned hs] at h
    exact absurd (signatureErrors_eq_nil_iff.1 h) hs

/-! ## The rules and what is computed -/

/-- The rules give what is computed. -/
theorem blockErrors_iff {errors : List Diagnostic} :
    BlockErrors settings r kind args content line errors ↔
      errors = r.blockErrors settings kind args content line := by
  constructor
  · intro h
    cases h with
    | @unknown names hne hordered hnames =>
      obtain rfl : names = (Signature.ofBlock kind).unknownNames args :=
        eq_of_byteOrdered (f := id) (by simpa using hordered)
          (by simpa using Signature.byteOrdered_unknownNames) fun name =>
            (hnames name).trans Signature.mem_unknownNames_iff.symm
      have hfaults := Signature.faults_of_unknown (.block kind) hne
      rw [blockErrors_of_not_wellSigned (by simp [hfaults, hne]), signatureErrors, hfaults,
        List.map_map]
      rfl
    | @mistyped numbers hknown hne hordered hnumbers =>
      obtain rfl : numbers = (Signature.ofBlock kind).numbersForText args :=
        eq_of_byteOrdered hordered Signature.byteOrdered_numbersForText fun e =>
          (hnumbers e).trans Signature.mem_numbersForText_iff.symm
      have hfaults := Signature.faults_of_known (.block kind) hknown
      rw [blockErrors_of_not_wellSigned (by simp [hfaults, hne]), signatureErrors, hfaults,
        List.map_map]
      rfl
    | content hknown htyped hcontent =>
      rw [blockErrors_of_wellSigned (Signature.faults_eq_nil_iff.2 ⟨hknown, htyped⟩),
        BlockKind.contentErrors_iff.1 hcontent]
      rfl
  · rintro rfl
    by_cases hknown : ∀ name, (args.get? name).isSome → name ∈ (Signature.ofBlock kind).names
    · have hfaults := Signature.faults_of_known (.block kind) hknown
      by_cases hne : (Signature.ofBlock kind).numbersForText args = []
      · have hs : (Signature.ofBlock kind).faults (.block kind) args = [] := by simp [hfaults, hne]
        rw [blockErrors_of_wellSigned hs]
        exact .content hknown (Signature.faults_eq_nil_iff.1 hs).2
          (BlockKind.contentErrors_iff.2 rfl)
      · rw [blockErrors_of_not_wellSigned (by simp [hfaults, hne]), signatureErrors, hfaults,
          List.map_map]
        exact .mistyped hknown hne Signature.byteOrdered_numbersForText fun e =>
          Signature.mem_numbersForText_iff
    · have hne : (Signature.ofBlock kind).unknownNames args ≠ [] := fun hnil =>
        hknown (Signature.unknownNames_eq_nil_iff.1 hnil)
      have hfaults := Signature.faults_of_unknown (.block kind) hne
      rw [blockErrors_of_not_wellSigned (by simp [hfaults, hne]), signatureErrors, hfaults,
        List.map_map]
      exact .unknown hne Signature.byteOrdered_unknownNames fun name =>
        Signature.mem_unknownNames_iff

end Resolution

/-- **The errors of a block, exactly.** With any settings and in any state, there is just one list
of errors for a block. If it is not empty, the block adds these errors and nothing else. It is empty
just if the block adds an item with its content, and warnings. -/
theorem block_errors_exact (settings : Settings) (r : Resolution) (kind : BlockKind)
    (args : Arguments) (content : List Node) (line : Nat) :
    ∃ errors, (∀ es, BlockErrors settings r kind args content line es ↔ es = errors) ∧
      (errors ≠ [] → r.step settings (.block kind args content line) =
        { r with diagnostics :=
          ⟨r.diagnostics.errors ++ errors, r.diagnostics.warnings⟩ }) ∧
      (errors = [] ↔ ∃ item warnings, kind.Makes content item ∧
        r.step settings (.block kind args content line) =
          { r with
            content := r.content ++ [item]
            diagnostics := ⟨r.diagnostics.errors, r.diagnostics.warnings ++ warnings⟩ }) := by
  refine ⟨r.blockErrors settings kind args content line, fun _ => Resolution.blockErrors_iff,
    fun hne => Resolution.step_of_rejected (Resolution.judge_block_of_ne_nil hne),
    fun hnil => ?_, ?_⟩
  · obtain ⟨item, warnings, hmakes, hj⟩ := Resolution.judge_block_of_nil hnil
    exact ⟨item, warnings, hmakes, Resolution.step_of_accepted hj⟩
  · rintro ⟨item, warnings, -, hstep⟩
    by_contra hne
    rw [Resolution.step_of_rejected (Resolution.judge_block_of_ne_nil hne)] at hstep
    exact hne (List.append_right_eq_self.1 (congrArg (·.diagnostics.errors) hstep))

example :
    let content : List Node := [.text "a", .instruction (.directive .numberizeTitle .empty 2),
      .instruction (.emphasis .bold "b" 3), .instruction (.emphasis .italic "" 4)]
    ((Resolution.start .standard).blockErrors .standard .body (.ofList [("style", .text "s")])
      content 1).map (fun d => (d.code, d.line)) =
      [(.unknownStyle, 1), (.invalidNesting, 2), (.emptyEmphasis, 4)] := by decide +kernel

end Folio
