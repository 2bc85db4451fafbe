import Folio.Proofs.DistinctNumbers
import Mathlib.Logic.Relation

/-!
# Title counters in a table

The counters stand in a table with a place for each level down to the deepest, and numbering writes
to it in place.

**A point of a run** (`Point`). The table, the items passed and the items left. The deeper counters
are set back one by one, so there are points between them too (`Point.restart`).

**One step** (`step`). Each access to the table is checked. A counter has no bound, or it has 32
bits (`Width`). What a step can do is said once (`step_does`), and the rest follows from it.

**Theorem (`title_counters_in_table`).** No access is out of range, whatever the start level and the
bounds. At every point each counter is at least 1 and at most one more than the titles passed. So
with fewer than 2³² − 1 titles no counter of 32 bits overflows, and the items come out as
`numberTitles` leaves them.

The table keeps its size (`size_of_reaches`), and a title that is numbered is no deeper than the
deepest level (`lt_of_isNumbered`). In front of the counter to be set back next the table stands as
the counters of `numberTitles` do, which are 1 from there on (`Follows`).
-/

namespace Folio

namespace TitleNumber

/-! ## Counting -/

/-- How great a counter can get. -/
inductive Width where
  /-- A counter has no bound. -/
  | unbounded
  /-- A counter has 32 bits, and an overflow ends the run. -/
  | stops
  /-- A counter has 32 bits and goes round to 0. -/
  | wraps
  deriving DecidableEq, Repr

/-- The number behind another, if there is one. -/
def Width.next? : Width → Nat → Option Nat
  | unbounded, n => some (n + 1)
  | stops, n => if n + 1 < UInt32.size then some (n + 1) else none
  | wraps, n => some ((n + 1) % UInt32.size)

namespace Width

variable {width : Width} {m n : Nat}

/-- Numbers of 32 bits count like this. -/
theorem next?_wraps (n : UInt32) : wraps.next? n.toNat = some (n + 1).toNat := by
  rw [next?, UInt32.toNat_add]
  rfl

theorem eq_of_next? (hwidth : width ≠ .wraps ∨ n + 1 < UInt32.size) (h : width.next? n = some m) :
    m = n + 1 := by
  cases width with
  | unbounded => exact (Option.some.inj h).symm
  | stops =>
    rw [next?] at h
    split_ifs at h
    exact (Option.some.inj h).symm
  | wraps =>
    obtain hwidth | hn := hwidth
    · exact absurd rfl hwidth
    · rw [next?, Nat.mod_eq_of_lt hn] at h
      exact (Option.some.inj h).symm

theorem le_of_next?_eq_none (h : width.next? n = none) : width = .stops ∧ UInt32.size ≤ n + 1 := by
  cases width with
  | unbounded | wraps => cases h
  | stops =>
    rw [next?] at h
    split_ifs at h with hn
    exact ⟨rfl, Nat.le_of_not_lt hn⟩

end Width

/-! ## Tables -/

/-- What ends a run before its time. -/
inductive Failure where
  | outOfRange
  | overflow
  deriving DecidableEq, Repr

/-- The counters from the first level on that are in front of the other one. -/
def slice (table : Array Nat) (first stop : Nat) : Except Failure (List Nat) :=
  if first ≤ stop ∧ stop ≤ table.size then .ok ((table.toList.take stop).drop first)
  else .error .outOfRange

/-- The table with the counter of the level one up. -/
def increment (width : Width) (table : Array Nat) (level : Nat) : Except Failure (Array Nat) :=
  match table[level]? with
  | none => .error .outOfRange
  | some n =>
    match width.next? n with
    | none => .error .overflow
    | some m => .ok (table.setIfInBounds level m)

/-! ## One step -/

/-- A point of a run of numbering. -/
structure Point where
  /-- The counters of levels 0, 1, … -/
  table : Array Nat
  /-- The level of the counter to be set back next, if the table has one. -/
  restart : Nat
  /-- The items passed, as they have been left. -/
  passed : List Item
  /-- The items to come. -/
  left : List Item
  deriving DecidableEq, Repr

namespace Point

/-- All counters are 1, and none is to be set back. -/
def start (deepest : UInt32) (content : List Item) : Point where
  table := Array.replicate (deepest.toNat + 1) 1
  restart := deepest.toNat + 1
  passed := []
  left := content

/-- A counter is set back. -/
def setBack (p : Point) : Point :=
  { p with table := p.table.setIfInBounds p.restart 1, restart := p.restart + 1 }

/-- An item is left as it is. -/
def skip (p : Point) (item : Item) (items : List Item) : Point :=
  { p with passed := p.passed ++ [item], left := items }

/-- A title is numbered with the counters. -/
def number (p : Point) (t : Title) (counters : List Nat) (table : Array Nat) (items : List Item) :
    Point where
  table := table
  restart := t.level.toNat + 1
  passed := p.passed ++ [.title { t with text := dotted counters ++ ". " ++ t.text }]
  left := items

end Point

/-- The next point, or none at the end. -/
def step (width : Width) (start deepest : UInt32) (p : Point) : Except Failure (Option Point) :=
  if p.restart < p.table.size then .ok (some p.setBack)
  else
    match p.left with
    | [] => .ok none
    | .body s :: items => .ok (some (p.skip (.body s) items))
    | .title t :: items =>
      if isNumbered start deepest t then do
        let level := t.level.toNat
        let counters ← slice p.table start.toNat (level + 1)
        let table ← increment width p.table level
        -- the counters to be set back
        let _ ← slice table (level + 1) table.size
        .ok (some (p.number t counters table items))
      else .ok (some (p.skip (.title t) items))

/-- The run comes by the point. -/
def Reaches (width : Width) (start deepest : UInt32) (content : List Item) : Point → Prop :=
  Relation.ReflTransGen (fun p q => step width start deepest p = .ok (some q))
    (.start deepest content)

/-! ## What a step does -/

/-- The counters of a numbered title at a point. -/
def Point.counters (p : Point) (start : UInt32) (t : Title) : List Nat :=
  (p.table.toList.take (t.level.toNat + 1)).drop start.toNat

/-- What a step can do if the table has a place for each level. -/
inductive Does (width : Width) (start deepest : UInt32) (p : Point) :
    Except Failure (Option Point) → Prop where
  | setBack (hrestart : p.restart < p.table.size) :
      Does width start deepest p (.ok (some p.setBack))
  | ends (hrestart : p.table.size ≤ p.restart) (hleft : p.left = []) :
      Does width start deepest p (.ok none)
  | skips {item : Item} {items : List Item} (hrestart : p.table.size ≤ p.restart)
      (hleft : p.left = item :: items)
      (hitem : ∀ t, item = .title t → ¬ isNumbered start deepest t) :
      Does width start deepest p (.ok (some (p.skip item items)))
  | numbers {t : Title} {items : List Item} {n m : Nat} (hrestart : p.table.size ≤ p.restart)
      (hleft : p.left = .title t :: items) (ht : isNumbered start deepest t)
      (hn : p.table[t.level.toNat]? = some n) (hm : width.next? n = some m) :
      Does width start deepest p (.ok (some
        (p.number t (p.counters start t) (p.table.setIfInBounds t.level.toNat m) items)))
  | overflows {t : Title} {items : List Item} {n : Nat} (hleft : p.left = .title t :: items)
      (hn : p.table[t.level.toNat]? = some n) (hm : width.next? n = none) :
      Does width start deepest p (.error .overflow)

variable {width : Width} {start deepest : UInt32} {content : List Item} {p q : Point}

theorem slice_eq_ok {table : Array Nat} {first stop : Nat} (hfirst : first ≤ stop)
    (hstop : stop ≤ table.size) :
    slice table first stop = .ok ((table.toList.take stop).drop first) :=
  if_pos ⟨hfirst, hstop⟩

theorem lt_of_isNumbered {t : Title} (ht : isNumbered start deepest t) :
    t.level.toNat < deepest.toNat + 1 := by
  rw [isNumbered, Bool.and_eq_true, decide_eq_true_eq, decide_eq_true_eq] at ht
  exact Nat.lt_succ_of_le (UInt32.le_iff_toNat_le.1 ht.2)

/-- **What a step does.** No access is out of range. -/
theorem step_does (hsize : p.table.size = deepest.toNat + 1)
    {result : Except Failure (Option Point)} (hstep : step width start deepest p = result) :
    Does width start deepest p result := by
  rw [← hstep]
  unfold step
  split_ifs with hrestart
  · exact .setBack hrestart
  · have hdone := Nat.le_of_not_lt hrestart
    cases hleft : p.left with
    | nil => exact .ends hdone hleft
    | cons item items =>
      cases item with
      | body s => exact .skips hdone hleft (fun t h => by cases h)
      | title t =>
        by_cases ht : isNumbered start deepest t
        · have hlevel : t.level.toNat < p.table.size := hsize ▸ lt_of_isNumbered ht
          have hn : p.table[t.level.toNat]? = some p.table[t.level.toNat] :=
            Array.getElem?_eq_getElem hlevel
          have hcounters : slice p.table start.toNat (t.level.toNat + 1) =
              .ok (p.counters start t) :=
            slice_eq_ok (Nat.le_succ_of_le (le_of_isNumbered ht)) hlevel
          simp only [ht, if_true, hcounters, increment, hn, bind, Except.bind]
          cases hm : width.next? p.table[t.level.toNat] with
          | none => exact .overflows hleft hn hm
          | some m =>
            have hsize' : (p.table.setIfInBounds t.level.toNat m).size = p.table.size :=
              Array.size_setIfInBounds
            have hdeeper : slice (p.table.setIfInBounds t.level.toNat m) (t.level.toNat + 1)
                (p.table.setIfInBounds t.level.toNat m).size = .ok _ :=
              slice_eq_ok (hsize' ▸ hlevel) le_rfl
            simp only [hdeeper]
            exact .numbers hdone hleft ht hn hm
        · simp only [ht]
          apply Does.skips hdone hleft
          rintro _ ⟨⟩
          exact ht

/-! ## Counters in range -/

/-- How many titles there are. -/
def titles (content : List Item) : Nat :=
  content.countP fun
    | .title _ => true
    | .body _ => false

/-- Each counter is at least 1 and at most one more than the titles passed. -/
def Point.InRange (p : Point) : Prop := ∀ n ∈ p.table, 1 ≤ n ∧ n ≤ 1 + titles p.passed

@[simp] theorem titles_append (xs ys : List Item) : titles (xs ++ ys) = titles xs + titles ys :=
  List.countP_append

@[simp] theorem titles_title_cons (t : Title) (items : List Item) :
    titles (.title t :: items) = titles items + 1 :=
  List.countP_cons_of_pos rfl

theorem Point.titles_passed_number (p : Point) (t : Title) (ns : List Nat) (table : Array Nat)
    (items : List Item) : titles (p.number t ns table items).passed = titles p.passed + 1 := by
  rw [number, titles_append, titles_title_cons]
  rfl

/-- A counter set to a number in range. -/
theorem forall_mem_setIfInBounds {table : Array Nat} {l m : Nat} {P : Nat → Prop}
    (h : ∀ n ∈ table, P n) (hm : P m) : ∀ n ∈ table.setIfInBounds l m, P n := by
  intro n hn
  rcases Array.mem_or_eq_of_mem_setIfInBounds hn with hn | rfl
  · exact h n hn
  · exact hm

/-! ## The counters of a run -/

/-- The table stands as the counters do, apart from those still to be set back. -/
structure Follows (p : Point) (c : Counters) : Prop where
  table : ∀ l < p.table.size, l < p.restart → p.table[l]? = some (c.get l)
  restart : ∀ l, p.restart ≤ l → c.get l = 1

namespace Follows

variable {c : Counters}

theorem setBack (h : Follows p c) : Follows p.setBack c where
  table := by
    intro l hl hlr
    simp only [Point.setBack, Array.size_setIfInBounds] at hl hlr
    rw [Point.setBack, Array.getElem?_setIfInBounds]
    by_cases hlevel : p.restart = l
    · rw [if_pos hlevel, if_pos (hlevel ▸ hl), h.restart l hlevel.le]
    · rw [if_neg hlevel]
      exact h.table l hl (by omega)
  restart := fun l hl => h.restart l (Nat.le_of_succ_le hl)

/-- The counters of a title are read from the table. -/
theorem counters_eq (h : Follows p c) (hrestart : p.table.size ≤ p.restart) {t : Title}
    (ht : t.level.toNat < p.table.size) :
    p.counters start t = c.upTo start.toNat t.level.toNat := by
  have htable : p.table.toList = (List.range p.table.size).map c.get := by
    apply List.ext_getElem?
    intro l
    rw [Array.getElem?_toList]
    by_cases hl : l < p.table.size
    · rw [h.table l hl (by omega), List.getElem?_map, List.getElem?_range hl]
      rfl
    · rw [Array.getElem?_eq_none (by omega), List.getElem?_eq_none (by simpa using hl)]
  rw [Point.counters, htable, Counters.upTo, ← List.map_take, ← List.map_drop, List.take_range,
    Nat.min_eq_left ht]

/-- **A title counts.** -/
theorem number (h : Follows p c) (hrestart : p.table.size ≤ p.restart) (t : Title)
    (ns : List Nat) (items : List Item) :
    Follows (p.number t ns (p.table.setIfInBounds t.level.toNat (c.get t.level.toNat + 1)) items)
      (c.count t.level.toNat) where
  table := by
    intro l hl hlr
    simp only [Point.number, Array.size_setIfInBounds] at hl hlr
    rw [Point.number, Array.getElem?_setIfInBounds, Counters.get_count]
    -- Down to the level of the title; the deeper counters are still to be set back.
    rcases Nat.lt_or_eq_of_le (Nat.le_of_lt_succ hlr) with hlt | rfl
    · rw [if_neg (by omega), if_pos hlt]
      exact h.table l hl (by omega)
    · rw [if_pos rfl, if_pos hl, if_neg (Nat.lt_irrefl _), if_pos rfl]
  restart := by
    intro l hl
    simp only [Point.number] at hl
    rw [Counters.get_count, if_neg (by omega), if_neg (by omega)]

end Follows

theorem numberFrom_cons_of_not {item : Item} (hitem : ∀ t, item = .title t →
    ¬ isNumbered start deepest t) (c : Counters) (items : List Item) :
    numberFrom start deepest c (item :: items) = item :: numberFrom start deepest c items := by
  cases item with
  | body s => rfl
  | title t => rw [numberFrom, if_neg (hitem t rfl)]

/-- What holds at every point of a run. -/
structure Sound (start : UInt32) (levels : Bounds) (content : List Item) (p : Point) : Prop where
  size : p.table.size = levels.max.toNat + 1
  inRange : p.InRange
  total : titles p.passed + titles p.left = titles content
  numbering : ∃ c, Follows p c ∧
    p.passed ++ numberFrom start levels.max c p.left = numberTitles start levels content

theorem sound_start (start : UInt32) (levels : Bounds) (content : List Item) :
    Sound start levels content (.start levels.max content) where
  size := Array.size_replicate
  inRange := by
    intro n hn
    rw [Array.eq_of_mem_replicate hn]
    exact ⟨le_rfl, Nat.le_add_right 1 _⟩
  total := Nat.zero_add _
  numbering := by
    refine ⟨.start, ⟨?_, fun l _ => Counters.get_start l⟩, rfl⟩
    intro l hl _
    rw [Counters.get_start, Point.start, Array.getElem?_replicate]
    exact if_pos (by simpa [Point.start] using hl)

variable {levels : Bounds}

/-- **One step.** -/
theorem Sound.next (hwidth : width ≠ .wraps ∨ titles content < UInt32.size - 1)
    (h : Sound start levels content p)
    (hstep : step width start levels.max p = .ok (some q)) :
    Sound start levels content q := by
  obtain ⟨hsize, hrange, htotal, c, hfollows, hnumbering⟩ := h
  cases step_does hsize hstep with
  | setBack hrestart =>
    refine ⟨?_, ?_, htotal, c, hfollows.setBack, hnumbering⟩
    · rwa [Point.setBack, Array.size_setIfInBounds]
    · exact forall_mem_setIfInBounds hrange ⟨le_rfl, Nat.le_add_right 1 _⟩
  | @skips item items hrestart hleft hitem =>
    rw [hleft] at htotal hnumbering
    refine ⟨hsize, ?_, ?_, c, ⟨hfollows.table, hfollows.restart⟩, ?_⟩
    · intro n hn
      have := hrange n hn
      rw [Point.skip, titles_append]
      omega
    · rw [Point.skip, ← htotal, titles_append, Nat.add_assoc, ← titles_append]
      rfl
    · rw [← hnumbering, numberFrom_cons_of_not hitem]
      simp [Point.skip]
  | @numbers t items n m hrestart hleft ht hn hm =>
    rw [hleft] at htotal hnumbering
    rw [titles_title_cons] at htotal
    have hlevel : t.level.toNat < p.table.size := hsize ▸ lt_of_isNumbered ht
    have hcount := hrange n (Array.mem_of_getElem? hn)
    -- This title is not passed yet, so the counter is at most the titles of the content.
    obtain rfl : m = n + 1 := Width.eq_of_next? (hwidth.imp_right fun h => by omega) hm
    obtain rfl : n = c.get t.level.toNat := by
      rw [hfollows.table _ hlevel (by omega)] at hn
      exact (Option.some.inj hn).symm
    refine ⟨?_, ?_, ?_, c.count t.level.toNat, hfollows.number hrestart t _ items, ?_⟩
    · rwa [Point.number, Array.size_setIfInBounds]
    · rw [Point.InRange, Point.titles_passed_number]
      apply forall_mem_setIfInBounds
      · intro k hk
        have := hrange k hk
        omega
      · omega
    · rw [Point.titles_passed_number, ← htotal, Nat.add_assoc, Nat.add_comm 1]
      rfl
    · rw [← hnumbering, numberFrom, if_pos ht, numberTitle, Counters.number_eq_dotted,
        hfollows.counters_eq hrestart hlevel]
      simp [Point.number]

/-- **A run.** -/
theorem Sound.of_reaches (hwidth : width ≠ .wraps ∨ titles content < UInt32.size - 1)
    (h : Reaches width start levels.max content p) : Sound start levels content p := by
  induction h with
  | refl => exact sound_start start levels content
  | tail _ hstep ih => exact ih.next hwidth hstep

/-- The table keeps its size, whatever becomes of its counters. -/
theorem size_of_reaches (h : Reaches width start deepest content p) :
    p.table.size = deepest.toNat + 1 := by
  induction h with
  | refl => exact Array.size_replicate
  | tail _ hstep ih =>
    cases step_does ih hstep with
    | setBack | numbers => exact Array.size_setIfInBounds.trans ih
    | skips => exact ih

/-- No counter overflows that has no bound, and none does with few titles. -/
theorem Sound.step_ne_overflow (h : Sound start levels content p)
    (hwidth : width = .unbounded ∨ titles content < UInt32.size - 1) :
    step width start levels.max p ≠ .error .overflow := by
  intro hstep
  cases step_does h.size hstep with
  | @overflows t items n hleft hn hm =>
    obtain ⟨rfl, hgreat⟩ := Width.le_of_next?_eq_none hm
    rcases hwidth with hwidth | hfew
    · cases hwidth
    · have hcount := h.inRange n (Array.mem_of_getElem? hn)
      have htotal := h.total
      rw [hleft, titles_title_cons] at htotal
      omega

/-! ## The end of a run -/

/-- How many steps there are at most. -/
def Point.work (p : Point) : Nat := p.left.length * (p.table.size + 1) + (p.table.size - p.restart)

theorem work_lt (hsize : p.table.size = deepest.toNat + 1)
    (hstep : step width start deepest p = .ok (some q)) : q.work < p.work := by
  cases step_does hsize hstep with
  | setBack hrestart =>
    simp only [Point.work, Point.setBack, Array.size_setIfInBounds]
    omega
  | skips hrestart hleft =>
    simp only [Point.work, Point.skip, hleft, List.length_cons, Nat.succ_mul]
    omega
  | numbers hrestart hleft =>
    simp only [Point.work, Point.number, hleft, List.length_cons, Nat.succ_mul,
      Array.size_setIfInBounds]
    omega

/-- A run that nothing ends before its time comes to its end. -/
theorem exists_end (h : Reaches width start deepest content p)
    (hsafe : ∀ q, Reaches width start deepest content q → ∀ f,
      step width start deepest q ≠ .error f) :
    ∃ q, Reaches width start deepest content q ∧ step width start deepest q = .ok none := by
  -- Each step leaves less work to do.
  induction hwork : p.work using Nat.strongRecOn generalizing p with
  | ind work ih =>
    subst work
    cases hstep : step width start deepest p with
    | error f => exact absurd hstep (hsafe p h f)
    | ok next? =>
      cases next? with
      | none => exact ⟨p, h, hstep⟩
      | some q => exact ih q.work (work_lt (size_of_reaches h) hstep) (h.tail hstep) rfl

/-- At the end the titles are numbered. -/
theorem Sound.passed_eq (h : Sound start levels content p)
    (hend : step width start levels.max p = .ok none) :
    p.passed = numberTitles start levels content := by
  obtain ⟨c, -, hnumbering⟩ := h.numbering
  cases step_does h.size hend with
  | ends hrestart hleft =>
    rw [hleft, numberFrom, List.append_nil] at hnumbering
    exact hnumbering

end TitleNumber

open TitleNumber

/-- **The counters of titles stay in their table and in range.** No access is out of the range of
the table. Unless counters go round, at every point each is at least 1 and at most one more than the
titles passed. With fewer than 2³² − 1 titles, or with counters without bound, this holds all the
same, none overflows, and the run ends with the titles numbered. -/
theorem title_counters_in_table (start : UInt32) (levels : Bounds) (content : List Item) :
    (∀ width p, Reaches width start levels.max content p →
        step width start levels.max p ≠ .error .outOfRange) ∧
      (∀ width p, width ≠ .wraps → Reaches width start levels.max content p → p.InRange) ∧
      (∀ width, width = .unbounded ∨ titles content < UInt32.size - 1 →
        (∀ p, Reaches width start levels.max content p →
          p.InRange ∧ step width start levels.max p ≠ .error .overflow) ∧
        ∃ p, Reaches width start levels.max content p ∧
          step width start levels.max p = .ok none ∧
          p.passed = numberTitles start levels content) := by
  have hrange : ∀ width p, Reaches width start levels.max content p →
      step width start levels.max p ≠ .error .outOfRange := by
    intro width p hp hstep
    cases step_does (size_of_reaches hp) hstep
  refine ⟨hrange, ?_, ?_⟩
  · intro width p hwidth hp
    exact (Sound.of_reaches (.inl hwidth) hp).inRange
  · intro width hwidth
    have hwraps : width ≠ .wraps ∨ titles content < UInt32.size - 1 :=
      hwidth.imp_left fun h => by rw [h]; decide
    have hsound : ∀ p, Reaches width start levels.max content p → Sound start levels content p :=
      fun p hp => .of_reaches hwraps hp
    have hsafe : ∀ p, Reaches width start levels.max content p → ∀ f,
        step width start levels.max p ≠ .error f := by
      intro p hp f
      cases f with
      | outOfRange => exact hrange width p hp
      | overflow => exact (hsound p hp).step_ne_overflow hwidth
    refine ⟨fun p hp => ⟨(hsound p hp).inRange, hsafe p hp .overflow⟩, ?_⟩
    obtain ⟨p, hp, hend⟩ := exists_end .refl hsafe
    exact ⟨p, hp, hend, (hsound p hp).passed_eq hend⟩

/-- A start level of 0, and a title deeper than the deepest level. -/
theorem title_counters_in_table_from_zero :
    let content : List Item := [.title ⟨"s", 2, "A"⟩, .title ⟨"s", 7, "B"⟩, .title ⟨"s", 0, "C"⟩]
    Width.stops ≠ .wraps ∧ titles content < UInt32.size - 1 ∧
      ∃ p, Reaches .stops 0 6 content p ∧ p.InRange ∧ step .stops 0 6 p = .ok none ∧
        p.passed =
          [.title ⟨"s", 2, "1.1.1. A"⟩, .title ⟨"s", 7, "B"⟩, .title ⟨"s", 0, "1. C"⟩] := by
  intro content
  have hwidth : Width.stops ≠ .wraps := by decide
  have hfew : titles content < UInt32.size - 1 := by decide
  obtain ⟨-, hinRange, hfinal⟩ := title_counters_in_table 0 ⟨1, 6⟩ content
  obtain ⟨p, hp, hend, hpassed⟩ := (hfinal .stops (.inr hfew)).2
  exact ⟨hwidth, hfew, p, hp, hinRange .stops p hwidth hp, hend, hpassed.trans (by decide)⟩

end Folio
