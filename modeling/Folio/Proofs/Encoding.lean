import Folio.Proofs.JsonText
import Folio.Rendition
import Folio.TitleNumber

/-!
# Renditions that lose nothing

**Theorem (`json_rendition_injective`).** Instructions with the same JSON rendition are the same
instructions, and so are models.

JSON text tells its data (`Data.json_injective`), so it is left to see that data tells what it was
made of. Each `data_inj` says so of one type, from those of its fields. Where a type has several
shapes they are told apart by the tag, since the name of a keyword is neither another's nor the tag
of emphasis, and by whether a literal is a text or a number.
-/

namespace Folio

/-! ## Names -/

/-- What can be read back is told apart. -/
theorem injective_of_read {α β : Type} {f : α → β} {read : β → Option α}
    (h : ∀ a, read (f a) = some a) : Function.Injective f := by
  intro a b hab
  have hread : some a = some b := by rw [← h a, hab, h b]
  exact Option.some.inj hread

@[simp] theorem Keyword.name_inj {j k : Keyword} : j.name = k.name ↔ j = k :=
  (injective_of_read ofName?_name).eq_iff

@[simp] theorem EmphasisKind.name_inj {j k : EmphasisKind} : j.name = k.name ↔ j = k := by
  simpa [Keyword.name] using Keyword.name_inj (j := .emphasis j) (k := .emphasis k)

@[simp] theorem PagePosition.name_inj {p q : PagePosition} : p.name = q.name ↔ p = q :=
  (injective_of_read ofName?_name).eq_iff

@[simp] theorem Diagnostic.Code.name_inj {c d : Diagnostic.Code} : c.name = d.name ↔ c = d :=
  (injective_of_read ofName?_name).eq_iff

@[simp] theorem Severity.name_inj {s t : Severity} : s.name = t.name ↔ s = t := by
  cases s <;> cases t <;> decide

/-- The tag of emphasis is the name of no keyword. -/
theorem Keyword.name_ne_emphasis (k : Keyword) : k.name ≠ "emphasis" := by
  rcases k with k | k | k <;> cases k <;> decide

/-! ## Numbers and lists -/

@[simp] theorem Data.ofNat_inj {m n : Nat} : ofNat m = ofNat n ↔ m = n :=
  ⟨fun h => Int.ofNat.inj (number.inj h), congrArg _⟩

@[simp] theorem Data.ofWord_inj {m n : UInt32} : ofWord m = ofWord n ↔ m = n := by
  simp [ofWord, UInt32.toNat_inj]

/-- Lists of data are told apart if their items are. -/
theorem map_data_inj {α : Type} {data : α → Data} (h : ∀ {a b}, data a = data b ↔ a = b)
    {as bs : List α} : as.map data = bs.map data ↔ as = bs :=
  (show Function.Injective data from fun _ _ => h.1).list_map.eq_iff

/-! ## Instructions -/

@[simp] theorem Literal.data_inj {v w : Literal} : v.data = w.data ↔ v = w := by
  cases v <;> cases w <;> simp [data]

@[simp] theorem Arguments.data_inj {as bs : Arguments} : as.data = bs.data ↔ as = bs := by
  have hentry : Function.Injective fun ((name, v) : String × Literal) => (name, v.data) := by
    rintro ⟨name, v⟩ ⟨name', v'⟩ h
    simpa using h
  obtain ⟨es, _⟩ := as
  obtain ⟨fs, _⟩ := bs
  simp [data, hentry.list_map.eq_iff]

mutual

theorem Instruction.data_injective (i j : Instruction) (h : i.data = j.data) : i = j := by
  cases i with
  | directive k as m =>
    cases j with
    | directive l bs n => simpa [Instruction.data] using h
    | block => simp [Instruction.data] at h
    | emphasis => simp [Instruction.data, Keyword.name_ne_emphasis] at h
  | block k as ns m =>
    cases j with
    | directive => simp [Instruction.data] at h
    | block l bs ms n =>
      obtain ⟨rfl, rfl, hcontent, rfl⟩ : k = l ∧ as = bs ∧ nodesData ns = nodesData ms ∧ m = n := by
        simpa [Instruction.data] using h
      rw [nodesData_injective ns ms hcontent]
    | emphasis => simp [Instruction.data] at h
  | emphasis k s m =>
    cases j with
    | directive => simp [Instruction.data, (Keyword.name_ne_emphasis _).symm] at h
    | block => simp [Instruction.data] at h
    | emphasis l t n => simpa [Instruction.data] using h

theorem nodesData_injective (ms ns : List Node) (h : nodesData ms = nodesData ns) : ms = ns := by
  cases ms with
  | nil =>
    cases ns with
    | nil => rfl
    | cons => simp [nodesData] at h
  | cons m ms =>
    cases ns with
    | nil => simp [nodesData] at h
    | cons n ns =>
      obtain ⟨hfirst, hrest⟩ : m.data = n.data ∧ nodesData ms = nodesData ns := by
        simpa [nodesData] using h
      rw [Node.data_injective m n hfirst, nodesData_injective ms ns hrest]

theorem Node.data_injective (m n : Node) (h : m.data = n.data) : m = n := by
  cases m with
  | text s =>
    cases n with
    | text t => simpa [Node.data] using h
    | instruction => simp [Node.data] at h
  | instruction i =>
    cases n with
    | text => simp [Node.data] at h
    | instruction j =>
      have hdata : i.data = j.data := by simpa [Node.data] using h
      rw [Instruction.data_injective i j hdata]

end

theorem Instruction.data_inj {i j : Instruction} : i.data = j.data ↔ i = j :=
  ⟨data_injective i j, congrArg _⟩

/-! ## Models -/

@[simp] theorem Diagnostic.data_inj {c d : Diagnostic} : c.data = d.data ↔ c = d := by
  obtain ⟨_, _, _, _⟩ := c
  obtain ⟨_, _, _, _⟩ := d
  simp [data]

@[simp] theorem Diagnostics.data_inj {ds es : Diagnostics} : ds.data = es.data ↔ ds = es := by
  obtain ⟨_, _⟩ := ds
  obtain ⟨_, _⟩ := es
  simp [data, map_data_inj]

@[simp] theorem Style.data_inj {s t : Style} : s.data = t.data ↔ s = t := by
  obtain ⟨_, _, _, _, _⟩ := s
  obtain ⟨_, _, _, _, _⟩ := t
  simp [data]

@[simp] theorem PageNumber.data_inj {m n : PageNumber} : m.data = n.data ↔ m = n := by
  obtain ⟨_, _, _, _, _⟩ := m
  obtain ⟨_, _, _, _, _⟩ := n
  simp [data]

/-- The tag of plain text is the name of no emphasis. -/
@[simp] theorem EmphasisKind.name_ne_text (k : EmphasisKind) : k.name ≠ "text" := by
  cases k <;> decide

@[simp] theorem Run.data_inj {r s : Run} : r.data = s.data ↔ r = s := by
  obtain ⟨_ | _, _⟩ := r <;> obtain ⟨_ | _, _⟩ := s <;>
    simp [data, kindName, (EmphasisKind.name_ne_text _).symm]

@[simp] theorem Item.data_inj {a b : Item} : a.data = b.data ↔ a = b := by
  cases a with
  | title t =>
    cases b with
    | title u =>
      obtain ⟨_, _, _⟩ := t
      obtain ⟨_, _, _⟩ := u
      simp [data, Title.fields]
    | body => simp [data]
  | body r =>
    cases b with
    | title => simp [data]
    | body s =>
      obtain ⟨_, _⟩ := r
      obtain ⟨_, _⟩ := s
      simp [data, Section.fields, map_data_inj]

@[simp] theorem numberingData_inj {m n : Option UInt32} :
    numberingData m = numberingData n ↔ m = n := by
  cases m <;> cases n <;> simp [numberingData]

theorem Model.data_inj {m n : Model} : m.data = n.data ↔ m = n := by
  obtain ⟨_, _, _, _, _⟩ := m
  obtain ⟨_, _, _, _, _⟩ := n
  simp [data, map_data_inj]

/-! ## Renditions -/

/-- **JSON loses nothing**, neither of instructions nor of a model. -/
theorem json_rendition_injective :
    Function.Injective (Rendition.mk .instructions .json).ofInstructions ∧
      Function.Injective fun m : Model => m.rendered .json := by
  constructor
  · intro is js h
    have htext : (Data.list (is.map (·.data))).json = (Data.list (js.map (·.data))).json :=
      Except.ok.inj h
    have hlist : is.map (·.data) = js.map (·.data) := Data.list.inj (Data.json_injective htext)
    exact (map_data_inj Instruction.data_inj).1 hlist
  · intro m n h
    exact Model.data_inj.1 (Data.json_injective h)

/-- Arguments in another order, and a title numbered by hand, have the same renditions, so they
are the same. -/
theorem json_rendition_injective_same :
    let is := [Instruction.directive .style (.ofList [("name", .text "a"), ("font", .text "b")]) 1]
    let js := [Instruction.directive .style (.ofList [("font", .text "b"), ("name", .text "a")]) 1]
    let model (content : List Item) : Model :=
      ⟨[], ⟨.topLeft, "Symbol", 9, "black", 1⟩, some 1, content, .empty⟩
    let m := model (numberTitles 1 ⟨1, 6⟩ [.title ⟨"s", 1, "A"⟩])
    let n := model [.title ⟨"s", 1, "1. A"⟩]
    let r := Rendition.mk .instructions .json
    (r.ofInstructions is = r.ofInstructions js ∧ is = js) ∧
      m.rendered .json = n.rendered .json ∧ m = n := by
  intro is js model m n r
  have hinstructions : r.ofInstructions is = r.ofInstructions js := by decide +kernel
  have hcontent : numberTitles 1 ⟨1, 6⟩ [.title ⟨"s", 1, "A"⟩] = [.title ⟨"s", 1, "1. A"⟩] := by
    decide +kernel
  have hmodel : m.rendered .json = n.rendered .json :=
    congrArg (fun content => (model content).rendered .json) hcontent
  exact ⟨⟨hinstructions, json_rendition_injective.1 hinstructions⟩, hmodel,
    json_rendition_injective.2 hmodel⟩

end Folio
