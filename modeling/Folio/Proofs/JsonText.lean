import Folio.Data.Json
import Folio.Proofs.Scanning

/-!
# JSON text is unambiguous

**Theorem (`json_injective`).** Data with the same JSON text are equal.

Each piece of the text is told from what follows it: an escape is as long as its first characters
say, a text ends at the first quote that is not escaped, a list at the line break behind an item,
and a number where no digit comes. So if two values in front of something are the same text, the
values are equal and so is what follows them (`value_append_inj`), by induction over the data. Of
which shape a value is, its first character says (`Opens`).
-/

namespace Folio.Data.Json

variable {x y : List Char}

/-! ## Texts -/

/-- The value of a hexadecimal digit of lower case. -/
def hexValue (c : Char) : Nat := if c.isDigit then c.toNat - 48 else c.toNat - 87

theorem hexValue_digitChar : ∀ n < 16, hexValue (Nat.digitChar n) = n := by decide

/-- The character that a backslash in front of another stands for. -/
def unescaped (c : Char) : Char :=
  if c = 'n' then '\n'
  else if c = 'r' then '\r'
  else if c = 't' then '\t'
  else if c = 'b' then '\x08'
  else if c = 'f' then '\x0c'
  else c

/-- The character that the front of a text stands for, with what follows it; none at the quote that
ends the text. -/
def front? : List Char → Option (Char × List Char)
  | [] => none
  | '"' :: _ => none
  | '\\' :: 'u' :: '0' :: '0' :: a :: b :: cs =>
    some (Char.ofNat (16 * hexValue a + hexValue b), cs)
  | '\\' :: c :: cs => some (unescaped c, cs)
  | c :: cs => some (c, cs)

theorem front?_cons {c : Char} (hquote : c ≠ '"') (hslash : c ≠ '\\') :
    front? (c :: x) = some (c, x) := by
  unfold front?
  split <;> simp_all

/-- **An escape is read back.** -/
theorem front?_escaped (c : Char) (x : List Char) : front? (escaped c ++ x) = some (c, x) := by
  unfold escaped
  split_ifs with hquote hslash _ _ _ _ _ hcontrol
  any_goals
    subst c
    rfl
  · have h₁ := hexValue_digitChar (c.toNat / 16) (by omega)
    have h₂ := hexValue_digitChar (c.toNat % 16) (by omega)
    have hvalue : 16 * (c.toNat / 16) + c.toNat % 16 = c.toNat := Nat.div_add_mod _ _
    show some (Char.ofNat (16 * hexValue _ + hexValue _), x) = some (c, x)
    rw [h₁, h₂, hvalue, Char.ofNat_toNat]
  · exact front?_cons hquote hslash

/-- If escapes are read back one by one, and none is read at the quote that ends a text, then texts
of escapes are told from what follows them. -/
theorem flatMap_append_inj {escape : Char → List Char}
    {read? : List Char → Option (Char × List Char)}
    (hescape : ∀ c x, read? (escape c ++ x) = some (c, x)) (hquote : ∀ x, read? ('"' :: x) = none)
    {as bs : List Char} (h : as.flatMap escape ++ '"' :: x = bs.flatMap escape ++ '"' :: y) :
    as = bs ∧ x = y := by
  have hcons : ∀ (c : Char) (cs z : List Char),
      read? ((c :: cs).flatMap escape ++ z) = some (c, cs.flatMap escape ++ z) := by
    intro c cs z
    rw [List.flatMap_cons, List.append_assoc, hescape]
  have hnil : ∀ z, read? ([].flatMap escape ++ '"' :: z) = none := hquote
  induction as generalizing bs with
  | nil =>
    cases bs with
    | nil => simpa using h
    | cons b bs =>
      have hfront := congrArg read? h
      rw [hnil, hcons] at hfront
      cases hfront
  | cons a as ih =>
    have hfront := congrArg read? h
    cases bs with
    | nil =>
      rw [hnil, hcons] at hfront
      cases hfront
    | cons b bs =>
      rw [hcons, hcons] at hfront
      obtain ⟨rfl, hrest⟩ := Prod.mk.inj (Option.some.inj hfront)
      obtain ⟨rfl, rfl⟩ := ih hrest
      exact ⟨rfl, rfl⟩

/-- A text is told from what follows it. -/
theorem string_append_inj {s t : String} (h : string s ++ x = string t ++ y) : s = t ∧ x = y := by
  have hbody : s.toList.flatMap escaped ++ '"' :: x = t.toList.flatMap escaped ++ '"' :: y := by
    simpa [string] using h
  obtain ⟨hs, rfl⟩ := flatMap_append_inj front?_escaped (fun _ => rfl) hbody
  exact ⟨String.toList_inj.1 hs, rfl⟩

/-! ## Numbers -/

/-- No number goes on here. -/
def EndsNumber (cs : List Char) : Prop := ∀ c ∈ cs.head?, c.isDigit = false

theorem isDigit_of_mem_repr {n : Nat} : ∀ c ∈ (toString n).toList, c.isDigit := by
  intro c hc
  rw [show (toString n).toList = Nat.toDigits 10 n from Nat.toList_repr] at hc
  exact Nat.isDigit_of_mem_toDigits (by decide) (by decide) hc

/-- A natural number is told from what follows it. -/
theorem nat_append_inj {m n : Nat} (hx : EndsNumber x) (hy : EndsNumber y)
    (h : (toString m).toList ++ x = (toString n).toList ++ y) : m = n ∧ x = y := by
  have hdigits : (toString m).toList = (toString n).toList := by
    rw [← takeWhile_append_of_boundary isDigit_of_mem_repr hx, h,
      takeWhile_append_of_boundary isDigit_of_mem_repr hy]
  have hrepr : Nat.toDigits 10 m = Nat.toDigits 10 n := by
    rwa [← Nat.toList_repr, ← Nat.toList_repr]
  refine ⟨?_, List.append_cancel_left (hdigits ▸ h)⟩
  rw [← Nat.ofDigitChars_ten_toDigits (n := m), hrepr, Nat.ofDigitChars_ten_toDigits]

theorem exists_digit (n : Nat) : ∃ c cs, (toString n).toList = c :: cs ∧ c.isDigit := by
  obtain ⟨c, cs, hcs⟩ := List.exists_cons_of_ne_nil (Nat.toDigits_ne_nil (n := n) (b := 10))
  have hn : (toString n).toList = c :: cs := Nat.toList_repr.trans hcs
  exact ⟨c, cs, hn, isDigit_of_mem_repr c (hn ▸ List.mem_cons_self)⟩

theorem toList_negSucc (n : Nat) :
    (toString (Int.negSucc n)).toList = '-' :: (toString (n + 1)).toList := by
  rw [show toString (Int.negSucc n) = "-" ++ toString (n + 1) from rfl, String.toList_append]
  rfl

/-- A number is told from what follows it. -/
theorem number_append_inj {m n : Int} (hx : EndsNumber x) (hy : EndsNumber y)
    (h : (toString m).toList ++ x = (toString n).toList ++ y) : m = n ∧ x = y := by
  have hsign : ∀ (k l : Nat) (v w : List Char),
      (toString k).toList ++ v ≠ '-' :: (toString (l + 1)).toList ++ w := by
    intro k l v w heq
    obtain ⟨c, cs, hcs, hc⟩ := exists_digit k
    rw [hcs] at heq
    rw [(List.cons.inj heq).1] at hc
    cases hc
  cases m with
  | ofNat m =>
    cases n with
    | ofNat n =>
      obtain ⟨rfl, rfl⟩ := nat_append_inj hx hy h
      exact ⟨rfl, rfl⟩
    | negSucc n =>
      rw [toList_negSucc] at h
      exact absurd h (hsign m n x y)
  | negSucc m =>
    rw [toList_negSucc] at h
    cases n with
    | ofNat n => exact absurd h.symm (hsign n m y x)
    | negSucc n =>
      rw [toList_negSucc] at h
      obtain ⟨hmn, rfl⟩ := nat_append_inj hx hy (List.cons.inj h).2
      obtain rfl := Nat.succ.inj hmn
      exact ⟨rfl, rfl⟩

/-! ## Values -/

/-- What a value is told apart by at once: which kind of data it is, and for a truth value which. -/
inductive Shape where
  | null
  | bool (b : Bool)
  | number
  | text
  | list
  | object

def shape : Data → Shape
  | .null => .null
  | .bool b => .bool b
  | .number _ => .number
  | .text _ => .text
  | .list _ => .list
  | .object _ => .object

/-- The shape of the value that begins with a character. -/
def openedBy : Char → Shape
  | 'n' => .null
  | 't' => .bool true
  | 'f' => .bool false
  | '"' => .text
  | '[' => .list
  | '\x7b' => .object
  | _ => .number

theorem openedBy_digit {c : Char} (h : c.isDigit) : openedBy c = .number := by
  unfold openedBy
  split <;> first | rfl | cases h

/-- A value begins with a character of its shape. -/
theorem exists_opening (depth : Nat) (d : Data) :
    ∃ c cs, value depth d = c :: cs ∧ openedBy c = shape d := by
  cases d with
  | null => exact ⟨_, _, rfl, rfl⟩
  | bool b => cases b <;> exact ⟨_, _, rfl, rfl⟩
  | number n =>
    cases n with
    | ofNat n =>
      obtain ⟨c, cs, hcs, hc⟩ := exists_digit n
      exact ⟨c, cs, hcs, openedBy_digit hc⟩
    | negSucc n => exact ⟨_, _, toList_negSucc n, rfl⟩
  | text s => exact ⟨_, _, rfl, rfl⟩
  | list ds =>
    cases ds with
    | nil => exact ⟨_, _, by rw [value], rfl⟩
    | cons d ds => exact ⟨_, _, by rw [value]; rfl, rfl⟩
  | object fs =>
    cases fs with
    | nil => exact ⟨_, _, by rw [value], rfl⟩
    | cons f fs => exact ⟨_, _, by rw [value]; rfl, rfl⟩

theorem shape_eq {depth : Nat} {d e : Data} (h : value depth d ++ x = value depth e ++ y) :
    shape d = shape e := by
  obtain ⟨c, cs, hcs, hd⟩ := exists_opening depth d
  obtain ⟨c', cs', hcs', he⟩ := exists_opening depth e
  rw [hcs, hcs'] at h
  obtain rfl : c = c' := (List.cons.inj h).1
  rw [← hd, he]

theorem endsNumber_moreItems (depth : Nat) (ds : List Data) (x : List Char) :
    EndsNumber (moreItems depth ds ++ '\n' :: x) := by
  cases ds <;>
  · rintro c hc
    simp only [moreItems, List.nil_append, List.cons_append, List.head?_cons,
      Option.mem_some_iff] at hc
    subst c
    rfl

theorem endsNumber_moreFields (depth : Nat) (fs : List (String × Data)) (x : List Char) :
    EndsNumber (moreFields depth fs ++ '\n' :: x) := by
  cases fs <;>
  · rintro c hc
    simp only [moreFields, List.nil_append, List.cons_append, List.head?_cons,
      Option.mem_some_iff] at hc
    subst c
    rfl

mutual

/-- **A value is told from what follows it.** -/
theorem value_append_inj {x y : List Char} (depth : Nat) (hx : EndsNumber x) (hy : EndsNumber y)
    (d e : Data) (h : value depth d ++ x = value depth e ++ y) : d = e ∧ x = y := by
  have hshape := shape_eq h
  cases d with
  | null =>
    cases e with
    | null => simpa [value] using h
    | _ => cases hshape
  | bool a =>
    cases e with
    | bool b =>
      obtain rfl : a = b := Shape.bool.inj hshape
      exact ⟨rfl, List.append_cancel_left h⟩
    | _ => cases hshape
  | number m =>
    cases e with
    | number n =>
      obtain ⟨rfl, rfl⟩ := number_append_inj hx hy (by simpa [value] using h)
      exact ⟨rfl, rfl⟩
    | _ => cases hshape
  | text s =>
    cases e with
    | text t =>
      obtain ⟨rfl, rfl⟩ := string_append_inj (by simpa [value] using h)
      exact ⟨rfl, rfl⟩
    | _ => cases hshape
  | list ds =>
    cases e with
    | list es =>
      cases ds with
      | nil =>
        cases es with
        | nil => simpa [value] using h
        | cons e es => simp [value, newline] at h
      | cons d ds =>
        cases es with
        | nil => simp [value, newline] at h
        | cons e es =>
          have hitems : moreItems (depth + 1) (d :: ds) ++
                '\n' :: (List.replicate (2 * depth) ' ' ++ ']' :: x) =
              moreItems (depth + 1) (e :: es) ++
                '\n' :: (List.replicate (2 * depth) ' ' ++ ']' :: y) := by
            simpa [value, moreItems, newline] using h
          obtain ⟨heq, hclose⟩ := moreItems_append_inj (depth + 1) (d :: ds) (e :: es) hitems
          exact ⟨congrArg Data.list heq, (List.cons.inj (List.append_cancel_left hclose)).2⟩
    | _ => cases hshape
  | object fs =>
    cases e with
    | object gs =>
      cases fs with
      | nil =>
        cases gs with
        | nil => simpa [value] using h
        | cons g gs => simp [value, newline] at h
      | cons f fs =>
        cases gs with
        | nil => simp [value, newline] at h
        | cons g gs =>
          have hfields : moreFields (depth + 1) (f :: fs) ++
                '\n' :: (List.replicate (2 * depth) ' ' ++ '\x7d' :: x) =
              moreFields (depth + 1) (g :: gs) ++
                '\n' :: (List.replicate (2 * depth) ' ' ++ '\x7d' :: y) := by
            simpa [value, moreFields, newline] using h
          obtain ⟨heq, hclose⟩ := moreFields_append_inj (depth + 1) (f :: fs) (g :: gs) hfields
          exact ⟨congrArg Data.object heq, (List.cons.inj (List.append_cancel_left hclose)).2⟩
    | _ => cases hshape

theorem moreItems_append_inj {x y : List Char} (depth : Nat) (ds es : List Data)
    (h : moreItems depth ds ++ '\n' :: x = moreItems depth es ++ '\n' :: y) : ds = es ∧ x = y := by
  cases ds with
  | nil =>
    cases es with
    | nil => simpa [moreItems] using h
    | cons e es => simp [moreItems] at h
  | cons d ds =>
    cases es with
    | nil => simp [moreItems] at h
    | cons e es =>
      have hitem : value depth d ++ (moreItems depth ds ++ '\n' :: x) =
          value depth e ++ (moreItems depth es ++ '\n' :: y) := by
        simpa [moreItems, newline] using h
      obtain ⟨rfl, hmore⟩ := value_append_inj depth (endsNumber_moreItems _ _ _)
        (endsNumber_moreItems _ _ _) d e hitem
      obtain ⟨rfl, rfl⟩ := moreItems_append_inj depth ds es hmore
      exact ⟨rfl, rfl⟩

theorem moreFields_append_inj {x y : List Char} (depth : Nat) (fs gs : List (String × Data))
    (h : moreFields depth fs ++ '\n' :: x = moreFields depth gs ++ '\n' :: y) :
    fs = gs ∧ x = y := by
  cases fs with
  | nil =>
    cases gs with
    | nil => simpa [moreFields] using h
    | cons g gs => simp [moreFields] at h
  | cons f fs =>
    cases gs with
    | nil => simp [moreFields] at h
    | cons g gs =>
      obtain ⟨k, d⟩ := f
      obtain ⟨l, e⟩ := g
      have hkey :
          string k ++ (':' :: ' ' :: (value depth d ++ (moreFields depth fs ++ '\n' :: x))) =
            string l ++ (':' :: ' ' :: (value depth e ++ (moreFields depth gs ++ '\n' :: y))) := by
        simpa [moreFields, newline] using h
      obtain ⟨rfl, hvalue⟩ := string_append_inj hkey
      obtain ⟨rfl, hmore⟩ := value_append_inj depth (endsNumber_moreFields _ _ _)
        (endsNumber_moreFields _ _ _) d e (by simpa using hvalue)
      obtain ⟨rfl, rfl⟩ := moreFields_append_inj depth fs gs hmore
      exact ⟨rfl, rfl⟩

end

end Folio.Data.Json

namespace Folio.Data

/-- **JSON text is unambiguous.** -/
theorem json_injective : Function.Injective json := by
  intro d e h
  have hvalue : Json.value 0 d ++ [] = Json.value 0 e ++ [] := by
    rw [List.append_nil, List.append_nil]
    exact String.ofList_injective h
  have hend : Json.EndsNumber [] := by rintro c ⟨⟩
  exact (Json.value_append_inj 0 hend hend d e hvalue).1

end Folio.Data
