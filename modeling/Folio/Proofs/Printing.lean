import Folio.Proofs.Canonical
import Mathlib.Data.List.Forall2

/-!
# The canonical document is scanned to a derivation

A printable model has a derivation (`Model.trees`): a tree for each declared style, one for the
page numbers and one for each item, with every argument that the canonical document spells out.

**Theorem (`scans_echo`).** If no two plain runs follow each other, the canonical document is
scanned to the kinds of the leaves of these trees, and nothing in it is illegal.

Each part is printed in front of any text (`Prints`), because it ends with a bracket. Inside the
brackets something is asked of the text behind: a number ends at the comma or the parenthesis, and
free text at the keyword of an emphasis or at the closing brace.
-/

namespace Folio

/-! ## The derivation of a model -/

def Style.written (s : Style) : Written :=
  [("name", .text s.name), ("font", .text s.font), ("fontSize", .number s.fontSize.toNat),
    ("fontColor", .text s.fontColor)]

def PageNumber.written (n : PageNumber) : Written :=
  [("pageNumberPosition", .text n.position.name), ("pageNumberFont", .text n.font),
    ("pageNumberFontSize", .number n.fontSize.toNat), ("pageNumberFontColor", .text n.fontColor),
    ("pageNumberStart", .number n.start.toNat)]

def Title.written (t : Title) : Written :=
  [("style", .text t.style), ("level", .number t.level.toNat)]

def Section.written (s : Section) : Written := [("style", .text s.style)]

def Style.tree (s : Style) : Tree := .directive .style s.written 0

def PageNumber.tree (n : PageNumber) : Tree := .directive .pageNumber n.written 0

/-- The content of a title, with no text if it is empty. -/
def Title.branches (t : Title) : List Branch := if t.text = "" then [] else [.text t.text]

def Run.branch (r : Run) : Branch :=
  match r.emphasis with
  | none => .text r.text
  | some kind => .tree (.emphasis kind (some r.text) 0)

def Item.tree : Item → Tree
  | title t => .block .title t.written t.branches 0
  | body s => .block .body s.written (s.content.map Run.branch) 0

def Model.trees (m : Model) : List Tree :=
  m.declaredStyles.map Style.tree ++ m.pageNumber.tree :: m.content.map Item.tree

def Tree.kinds (t : Tree) : List Kind := t.leaves.map (·.kind)

/-! ## Argument lists -/

/-- The name is one, a text holds no quote, and a number is one that is read as itself. -/
structure PrintableArgument (w : String × Literal) : Prop where
  name : isArgumentName w.1
  text : ∀ s, w.2 = .text s → Unquoted s
  number : ∀ n, w.2 = .number n → 0 ≤ n ∧ n ≤ Text.maxInt64

def argumentText (w : String × Literal) : String := "#" ++ w.1 ++ "=" ++ w.2.display

theorem textArgument_eq (name s : String) : textArgument name s = argumentText (name, .text s) := by
  rw [← String.toList_inj]
  simp [textArgument, argumentText, Literal.display]

theorem numberArgument_eq (name : String) (v : UInt32) :
    numberArgument name v = argumentText (name, .number v.toNat) := rfl

theorem printableArgument_text {name s : String} (hname : isArgumentName name)
    (hs : Unquoted s) : PrintableArgument (name, .text s) :=
  ⟨hname, by rintro s ⟨⟩; exact hs, by rintro n ⟨⟩⟩

theorem printableArgument_number {name : String} {v : UInt32} (hname : isArgumentName name) :
    PrintableArgument (name, .number v.toNat) := by
  refine ⟨hname, by rintro s ⟨⟩, ?_⟩
  rintro n ⟨⟩
  have := v.toNat_lt
  simp only [Text.maxInt64]
  omega

variable {rest : List Char} {ks : List Kind}

theorem scans_argument {w : String × Literal} (hw : PrintableArgument w)
    (hrest : ∀ c ∈ rest.head?, c.isDigit = false) (h : Scans .arguments rest ks) :
    Scans .arguments ((argumentText w).toList ++ rest) (argumentKinds w ++ ks) := by
  obtain ⟨name, v⟩ := w
  have hvalue : Scans .arguments (v.display.toList ++ rest) (v.kind :: ks) := by
    cases v with
    | text s =>
      have hs := scans_string (hw.text s rfl) h
      simpa [Literal.display, Literal.kind] using hs
    | number n =>
      obtain ⟨hmin, hmax⟩ := hw.number n rfl
      obtain ⟨k, rfl⟩ := Int.eq_ofNat_of_zero_le hmin
      exact scans_number hmax hrest h
  have hname := scans_argumentName hw.name (by simp [isNameChar]) (scans_equals hvalue)
  simpa [argumentText, argumentKinds] using hname

/-- The arguments behind the first, each behind a comma. -/
def moreText (ws : Written) : List Char :=
  ws.flatMap fun w => ',' :: ' ' :: (argumentText w).toList

/-- No number goes on in what follows an argument. -/
theorem head?_moreText (ws : Written) (rest : List Char) :
    ∀ c ∈ (moreText ws ++ ')' :: rest).head?, c.isDigit = false := by
  cases ws <;> simp [moreText]

theorem scans_moreText {ws : Written} (hws : ∀ w ∈ ws, PrintableArgument w)
    (h : Scans .document rest ks) :
    Scans .arguments (moreText ws ++ ')' :: rest)
      ((ws.flatMap fun w => .comma :: argumentKinds w) ++ .closeParen :: ks) := by
  induction ws with
  | nil => exact scans_closeParen h
  | cons w ws ih =>
    obtain ⟨hw, hws⟩ := List.forall_mem_cons.1 hws
    have hargument := scans_comma (scans_argument hw (head?_moreText ws rest) (ih hws))
    simpa [moreText] using hargument

/-- A list in parentheses, in front of any text. -/
theorem scans_list {ws : Written} (hws : ∀ w ∈ ws, PrintableArgument w)
    (h : Scans .document rest ks) :
    Scans .document ((argumentList (ws.map argumentText)).toList ++ rest) (listKinds ws ++ ks) := by
  cases ws with
  | nil => exact scans_openParen (scans_closeParen h)
  | cons w ws =>
    obtain ⟨hw, hws⟩ := List.forall_mem_cons.1 hws
    have hlist : Scans .document _ _ :=
      scans_openParen (scans_argument hw (head?_moreText ws rest) (scans_moreText hws h))
    have htext : (argumentList ((w :: ws).map argumentText)).toList ++ rest =
        '(' :: ((argumentText w).toList ++ (moreText ws ++ ')' :: rest)) := by
      simp only [argumentList, List.map_cons, String.toList_append, toList_intercalate_cons,
        List.flatMap_map]
      simp [moreText]
    rw [htext]
    simpa [listKinds, separatedKinds] using hlist

/-! ## Instructions -/

/-- The text is scanned to the leaves of the tree, in front of any text. -/
def Prints (s : String) (t : Tree) : Prop :=
  ∀ rest ks, Scans .document rest ks → Scans .document (s.toList ++ rest) (t.kinds ++ ks)

theorem prints_directive {kind : DirectiveKind} {ws : Written}
    (hws : ∀ w ∈ ws, PrintableArgument w) :
    Prints ((Keyword.directive kind).text ++ argumentList (ws.map argumentText))
      (.directive kind ws 0) := by
  intro rest ks h
  have hprint := scans_keyword (.directive kind) (scans_list hws h)
  rw [String.toList_append, List.append_assoc]
  rw [Tree.kinds, Tree.leaves, List.map_cons, kinds_plain]
  exact hprint

/-- A block prints if its content does, in front of the closing brace. -/
theorem prints_block {kind : BlockKind} {ws : Written} {content : List Branch} {s : String}
    (hws : ∀ w ∈ ws, PrintableArgument w)
    (hcontent : ∀ rest ks, Scans .document ('\x7d' :: rest) ks →
      Scans .document (s.toList ++ '\x7d' :: rest) ((Branch.leaves content).map (·.kind) ++ ks)) :
    Prints ((Keyword.block kind).text ++ argumentList (ws.map argumentText) ++ braced s)
      (.block kind ws content 0) := by
  intro rest ks h
  have hprint := scans_keyword (.block kind)
    (scans_list hws (scans_openBrace (hcontent rest _ (scans_closeBrace h))))
  rw [Tree.kinds, kinds_block]
  simpa [braced] using hprint

theorem Style.echo_eq (s : Style) :
    s.echo = (Keyword.directive .style).text ++ argumentList (s.written.map argumentText) := by
  simp only [Style.echo, Style.written, textArgument_eq, numberArgument_eq]
  rfl

theorem PageNumber.echo_eq (n : PageNumber) :
    n.echo = (Keyword.directive .pageNumber).text ++
      argumentList (n.written.map argumentText) := by
  simp only [PageNumber.echo, PageNumber.written, textArgument_eq, numberArgument_eq]
  rfl

theorem Title.echo_eq (t : Title) :
    t.echo = (Keyword.block .title).text ++ argumentList (t.written.map argumentText) ++
      braced t.text := by
  simp only [Title.echo, Title.written, textArgument_eq, numberArgument_eq]
  rfl

theorem Section.echo_eq (s : Section) :
    s.echo = (Keyword.block .body).text ++ argumentList (s.written.map argumentText) ++
      braced (String.join (s.content.map Run.echo)) := by
  simp only [Section.echo, Section.written, textArgument_eq]
  rfl

theorem prints_style {s : Style} (h : s.Printable) : Prints s.echo s.tree := by
  rw [Style.echo_eq]
  refine prints_directive ?_
  simp only [Style.written, List.forall_mem_cons]
  exact ⟨printableArgument_text (by decide) h.1,
    printableArgument_text (by decide) h.2.1,
    printableArgument_number (by decide),
    printableArgument_text (by decide) h.2.2, List.forall_mem_nil _⟩

theorem unquoted_name (p : PagePosition) : Unquoted p.name := by
  cases p <;> decide

theorem prints_pageNumber {n : PageNumber} (h : n.Printable) : Prints n.echo n.tree := by
  rw [PageNumber.echo_eq]
  refine prints_directive ?_
  simp only [PageNumber.written, List.forall_mem_cons]
  exact ⟨printableArgument_text (by decide) (unquoted_name n.position),
    printableArgument_text (by decide) h.1,
    printableArgument_number (by decide),
    printableArgument_text (by decide) h.2,
    printableArgument_number (by decide), List.forall_mem_nil _⟩

/-! ## Items -/

theorem prints_title {t : Title} (h : (Item.title t).Printable) :
    Prints t.echo (Item.title t).tree := by
  rw [Title.echo_eq]
  refine prints_block ?_ fun rest ks hrest => ?_
  · simp only [Title.written, List.forall_mem_cons]
    exact ⟨printableArgument_text (by decide) h.1,
      printableArgument_number (by decide), List.forall_mem_nil _⟩
  · by_cases hempty : t.text = ""
    · simpa [Title.branches, hempty, Branch.leaves] using hrest
    · have hplain := h.2.resolve_left hempty
      have htext := scans_text hplain (by simp [endsText]) hrest
      simpa [Title.branches, hempty, Branch.leaves, Leaf.plain] using htext

/-- An emphasised run, in front of any text. -/
theorem scans_emphasis (kind : EmphasisKind) {s : String} (hs : IsPlain s)
    (h : Scans .document rest ks) :
    Scans .document ((Run.mk (some kind) s).echo.toList ++ rest)
      ((Tree.emphasis kind (some s) 0).kinds ++ ks) := by
  have htext := scans_text hs (by simp [endsText]) (scans_closeBrace h)
  have hprint := scans_keyword (.emphasis kind)
    (scans_openParen (scans_closeParen (scans_openBrace htext)))
  have hkinds : (Tree.emphasis kind (some s) 0).kinds = .keyword (.emphasis kind) ::
      [.openParen, .closeParen, .openBrace, .text s, .closeBrace] := by
    rw [Tree.kinds, Tree.leaves, List.map_cons, kinds_plain]
    rfl
  rw [hkinds]
  simpa [Run.echo, braced] using hprint

/-- What comes behind a plain run ends its text, if runs are apart. -/
theorem endsText_of_apart {r : Run} {runs : List Run} (hr : r.emphasis = none)
    (h : (r :: runs).IsChain Run.Apart) (rest : List Char) :
    ∀ c ∈ ((runs.flatMap fun r => r.echo.toList) ++ '\x7d' :: rest).head?, endsText c := by
  cases runs with
  | nil => simp [endsText]
  | cons s runs =>
    have hs : s.emphasis ≠ none := fun hs => (List.isChain_cons_cons.1 h).1 ⟨hr, hs⟩
    obtain ⟨kind, hkind⟩ := Option.ne_none_iff_exists'.1 hs
    simp [Run.echo, hkind, Keyword.text, endsText]

theorem scans_runs {runs : List Run} (hplain : ∀ r ∈ runs, IsPlain r.text)
    (hapart : runs.IsChain Run.Apart) (h : Scans .document ('\x7d' :: rest) ks) :
    Scans .document ((runs.flatMap fun r => r.echo.toList) ++ '\x7d' :: rest)
      ((Branch.leaves (runs.map Run.branch)).map (·.kind) ++ ks) := by
  induction runs with
  | nil => exact h
  | cons r runs ih =>
    obtain ⟨hr, hplain⟩ := List.forall_mem_cons.1 hplain
    have hruns := ih hplain hapart.tail
    obtain ⟨emphasis, s⟩ := r
    cases emphasis with
    | none =>
      have htext := scans_text hr (endsText_of_apart rfl hapart rest) hruns
      simpa [Run.echo, Run.branch, Branch.leaves, Leaf.plain] using htext
    | some kind =>
      have hemphasis := scans_emphasis kind hr hruns
      simpa [Run.branch, Branch.leaves, Tree.kinds] using hemphasis

theorem prints_section {s : Section} (h : (Item.body s).Printable)
    (hapart : s.content.IsChain Run.Apart) : Prints s.echo (Item.body s).tree := by
  rw [Section.echo_eq]
  refine prints_block ?_ fun rest ks hrest => ?_
  · simp only [Section.written, List.forall_mem_cons]
    exact ⟨printableArgument_text (by decide) h.1, List.forall_mem_nil _⟩
  · rw [String.toList_join, List.flatMap_map]
    exact scans_runs h.2 hapart hrest

theorem prints_item {i : Item} (h : i.Printable) (hapart : i.Apart) : Prints i.echo i.tree := by
  cases i with
  | title t => exact prints_title h
  | body s => exact prints_section h hapart

/-! ## The document -/

/-- Each line with the line feed behind it. -/
theorem toList_lines (l : String) (ls : List String) :
    ("\n".intercalate (l :: ls) ++ "\n").toList =
      (l :: ls).flatMap fun l => l.toList ++ ['\n'] := by
  rw [String.toList_append, toList_intercalate_cons]
  induction ls generalizing l with
  | nil => simp
  | cons l' ls ih => simpa using ih l'

theorem scans_lines {ls : List String} {ts : List Tree} (h : List.Forall₂ Prints ls ts) :
    Scans .document (ls.flatMap fun l => l.toList ++ ['\n']) (ts.flatMap Tree.kinds) := by
  induction h with
  | nil => exact .nil _
  | @cons l t ls ts hl _ ih =>
    have hfeed : Text.isBlank '\n' := by decide
    have hline := hl _ _ (.blank hfeed ih)
    simpa using hline

theorem forall₂_prints {α : Type} {f : α → String} {g : α → Tree} {as : List α}
    (h : ∀ a ∈ as, Prints (f a) (g a)) : List.Forall₂ Prints (as.map f) (as.map g) :=
  List.forall₂_map_left_iff.2 (List.forall₂_map_right_iff.2 (List.forall₂_same.2 h))

theorem prints_echoLines {m : Model} (h : m.Printable) (hapart : ∀ i ∈ m.content, i.Apart) :
    List.Forall₂ Prints m.echoLines m.trees := by
  refine List.rel_append (forall₂_prints fun s hs => prints_style (h.styles s hs)) ?_
  refine .cons (prints_pageNumber h.pageNumber) ?_
  exact forall₂_prints fun i hi => prints_item (h.content i hi) (hapart i hi)

theorem Model.toList_echo (m : Model) :
    m.echo.toList = m.echoLines.flatMap fun l => l.toList ++ ['\n'] := by
  have hne : m.echoLines ≠ [] := by simp [Model.echoLines]
  obtain ⟨l, ls, hl⟩ := List.exists_cons_of_ne_nil hne
  rw [Model.echo, hl, toList_lines]

/-- **The canonical document** is scanned to the leaves of the model's derivation. -/
theorem scans_echo {m : Model} (h : m.Printable) (hapart : ∀ i ∈ m.content, i.Apart) :
    Scans .document m.echo.toList (m.trees.flatMap Tree.kinds) := by
  rw [m.toList_echo]
  exact scans_lines (prints_echoLines h hapart)

end Folio
