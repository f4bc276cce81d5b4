import Mathlib.Algebra.Ring.Int.Defs
import Mathlib.Logic.Relation
import OpSuccinct.IntervalLists

/-! # Tilings and maximal intervals of integers

A non-empty half-open interval of integers is cut by steps of one length into
intervals that touch end to end, the last of which may be shorter (`Tiled`).  Every
point of the interval lies in one of them, and the last one has the full length
exactly when the step divides the length of the interval.

The points of a set fall into maximal intervals (`MaximalIn`); two of them that
share a point are equal.  Intervals of a set that touch end to end make a chain
(`Chained`).
-/
namespace OpSuccinct.Intervals

/-- The point lies in the interval. -/
def Holds (x : Int × Int) (b : Int) : Prop := x.1 ≤ b ∧ b < x.2

theorem Holds.not_of_apart {x y : Int × Int} {b : Int} (hx : Holds x b) (h : Apart x y) :
    ¬ Holds y b := by
  intro hy
  obtain ⟨hx₁, hx₂⟩ := hx
  obtain ⟨hy₁, hy₂⟩ := hy
  rcases h with h | h <;> omega

/-! ## Tilings -/

/-- The list cuts the interval from `lo` to `hi` into steps, the last one possibly
shorter. -/
inductive Tiled (step : Int) : Int → Int → List (Int × Int) → Prop
  | last {lo hi : Int} : lo < hi → hi ≤ lo + step → Tiled step lo hi [(lo, hi)]
  | cons {lo hi : Int} {pieces : List (Int × Int)} : lo + step < hi →
      Tiled step (lo + step) hi pieces → Tiled step lo hi ((lo, lo + step) :: pieces)

variable {step lo hi : Int} {pieces : List (Int × Int)}

theorem Tiled.exists_holds (h : Tiled step lo hi pieces) {b : Int} (hlo : lo ≤ b) (hhi : b < hi) :
    ∃ p ∈ pieces, Holds p b := by
  induction h with
  | last hlt hle => exact ⟨_, List.mem_singleton_self _, hlo, hhi⟩
  | @cons lo hi pieces hlt hrest ih =>
    by_cases hfirst : b < lo + step
    · exact ⟨_, List.mem_cons_self, hlo, hfirst⟩
    · obtain ⟨p, hp, hholds⟩ := ih (by omega) hhi
      exact ⟨p, List.mem_cons_of_mem _ hp, hholds⟩

theorem Tiled.ne_nil (h : Tiled step lo hi pieces) : pieces ≠ [] := by
  cases h <;> exact List.cons_ne_nil _ _

/-- **The last piece** ends where the interval ends, and is shorter than the step exactly
when the step does not divide the length. -/
theorem Tiled.getLast (h : Tiled step lo hi pieces) (hstep : 0 < step) :
    ∃ p, pieces.getLast? = some p ∧ lo ≤ p.1 ∧ p.1 < hi ∧ p.2 = hi ∧
      (hi - p.1 < step ↔ ¬ step ∣ hi - lo) := by
  induction h with
  | @last lo hi hlt hle =>
    refine ⟨(lo, hi), rfl, Int.le_refl _, hlt, rfl, ?_⟩
    constructor
    · intro hshort hdvd
      exact Int.not_lt.mpr (Int.le_of_dvd (by omega) hdvd) hshort
    · intro hndvd
      by_contra hfull
      have hfull : step ≤ hi - lo := Int.not_lt.mp hfull
      exact hndvd ⟨1, by omega⟩
  | @cons lo hi pieces hlt hrest ih =>
    obtain ⟨p, hlast, hlo, hhi, hend, hshort⟩ := ih
    obtain ⟨q, rest, rfl⟩ := List.exists_cons_of_ne_nil hrest.ne_nil
    refine ⟨p, hlast, by omega, hhi, hend, hshort.trans (not_congr ?_)⟩
    have hlength : hi - lo = step + (hi - (lo + step)) := by omega
    rw [hlength]
    exact (Int.dvd_add_right (Int.dvd_refl step)).symm

/-- The last step through an interval, cut off at its end. -/
def lastPiece (step : Int) (x : Int × Int) : Int × Int :=
  (x.1 + step * ((x.2 - x.1 - 1) / step), x.2)

theorem Tiled.getLast_eq (h : Tiled step lo hi pieces) (hstep : 0 < step) :
    pieces.getLast? = some (lastPiece step (lo, hi)) := by
  induction h with
  | @last lo hi hlt hle =>
    have hsteps : (hi - lo - 1) / step = 0 := Int.ediv_eq_zero_of_lt (by omega) (by omega)
    simp [lastPiece, hsteps]
  | @cons lo hi pieces hlt hrest ih =>
    rw [List.getLast?_cons_of_ne_nil hrest.ne_nil, ih]
    have hlength : hi - lo - 1 = hi - (lo + step) - 1 + step := by omega
    have hsteps : (hi - lo - 1) / step = (hi - (lo + step) - 1) / step + 1 := by
      rw [hlength, Int.add_ediv_of_dvd_right (Int.dvd_refl step),
        Int.ediv_self (Int.ne_of_gt hstep)]
    have hstart : lo + step + step * ((hi - (lo + step) - 1) / step) =
        lo + step * ((hi - lo - 1) / step) := by
      rw [hsteps, Int.mul_add, Int.mul_one]
      omega
    simp only [lastPiece, hstart]

/-- **A piece** has the full length, unless it ends where the interval ends. -/
theorem Tiled.mem (h : Tiled step lo hi pieces) (hstep : 0 < step) {p : Int × Int}
    (hp : p ∈ pieces) : p.1 < p.2 ∧ Within p (lo, hi) ∧
      (p.2 - p.1 = step ∨ p.2 - p.1 < step ∧ p.2 = hi) := by
  induction h with
  | @last lo hi hlt hle =>
    obtain rfl := List.mem_singleton.mp hp
    refine ⟨hlt, ⟨Int.le_refl _, Int.le_refl _⟩, ?_⟩
    by_cases hfull : hi - lo = step
    · exact .inl hfull
    · exact .inr ⟨by show hi - lo < step; omega, rfl⟩
  | @cons lo hi pieces hlt hrest ih =>
    rcases List.mem_cons.mp hp with rfl | hp
    · exact ⟨by show lo < lo + step; omega, ⟨Int.le_refl _, Int.le_of_lt hlt⟩,
        .inl (by show lo + step - lo = step; omega)⟩
    · obtain ⟨hne, ⟨hfrom, hto⟩, hlength⟩ := ih hp
      have hfrom : lo + step ≤ p.1 := hfrom
      exact ⟨hne, ⟨by show lo ≤ p.1; omega, hto⟩, hlength⟩

/-- The pieces come in order. -/
theorem Tiled.ordered (h : Tiled step lo hi pieces) (hstep : 0 < step) :
    pieces.Pairwise fun x y => x.2 ≤ y.1 := by
  induction h with
  | last => exact List.pairwise_singleton _ _
  | cons _ hrest ih => exact List.pairwise_cons.mpr ⟨fun p hp => (hrest.mem hstep hp).2.1.1, ih⟩

/-- There is one tiling of an interval. -/
theorem Tiled.unique {pieces' : List (Int × Int)} (h : Tiled step lo hi pieces)
    (h' : Tiled step lo hi pieces') : pieces = pieces' := by
  induction h generalizing pieces' with
  | last hlt hle =>
    cases h' with
    | last => rfl
    | cons hless => exact absurd hle (Int.not_le.mpr hless)
  | cons hless hrest ih =>
    cases h' with
    | last hlt hle => exact absurd hle (Int.not_le.mpr hless)
    | cons _ hrest' => rw [ih hrest']

/-- Tilings of the intervals of a list hold all their points. -/
theorem exists_holds_flatten {xs : List (Int × Int)} {cuts : List (List (Int × Int))}
    (h : List.Forall₂ (fun x cut => Tiled step x.1 x.2 cut) xs cuts) {x : Int × Int} (hx : x ∈ xs)
    {b : Int} (hb : Holds x b) : ∃ p ∈ cuts.flatten, Holds p b := by
  induction h with
  | nil => cases hx
  | cons htiled _ ih =>
    rw [List.flatten_cons]
    rcases List.mem_cons.mp hx with rfl | hx
    · obtain ⟨p, hp, hholds⟩ := htiled.exists_holds hb.1 hb.2
      exact ⟨p, List.mem_append_left _ hp, hholds⟩
    · obtain ⟨p, hp, hholds⟩ := ih hx
      exact ⟨p, List.mem_append_right _ hp, hholds⟩

/-- The last piece of all is the last one of the last interval. -/
theorem getLast_flatten {xs : List (Int × Int)} {cuts : List (List (Int × Int))}
    (h : List.Forall₂ (fun x cut => Tiled step x.1 x.2 cut) xs cuts) {x : Int × Int}
    (hx : xs.getLast? = some x) :
    ∃ cut, Tiled step x.1 x.2 cut ∧ cuts.flatten.getLast? = cut.getLast? := by
  induction h with
  | nil => cases hx
  | @cons y cut xs cuts htiled hrest ih =>
    rw [List.flatten_cons, List.getLast?_append]
    by_cases hlast : xs = []
    · subst hlast
      cases hrest
      obtain rfl := Option.some.inj hx
      exact ⟨cut, htiled, rfl⟩
    · rw [List.getLast?_cons_of_ne_nil hlast] at hx
      obtain ⟨cut', htiled', heq⟩ := ih hx
      refine ⟨cut', htiled', ?_⟩
      rw [heq, List.getLast?_eq_some_getLast htiled'.ne_nil]
      rfl

/-! ## Maximal intervals -/

/-- A non-empty interval inside a set that cannot be extended at either end. -/
structure MaximalIn (P : Int → Prop) (x : Int × Int) : Prop where
  lt : x.1 < x.2
  inside : ∀ b, Holds x b → P b
  before : ¬ P (x.1 - 1)
  after : ¬ P x.2

/-- Maximal intervals that share a point are equal. -/
theorem MaximalIn.eq_of_holds {P : Int → Prop} {x y : Int × Int} (hx : MaximalIn P x)
    (hy : MaximalIn P y) {b : Int} (hbx : Holds x b) (hby : Holds y b) : x = y := by
  obtain ⟨hbx₁, hbx₂⟩ := hbx
  obtain ⟨hby₁, hby₂⟩ := hby
  -- an end of one that lay inside the other would be a point of the set
  have hstart {u v : Int × Int} (hu : MaximalIn P u) (hv : MaximalIn P v) (hub : u.1 ≤ b)
      (hvb : b < v.2) : v.1 ≤ u.1 → v.1 = u.1 := by
    intro hle
    by_contra hne
    exact hu.before (hv.inside _ ⟨by omega, by omega⟩)
  have hend {u v : Int × Int} (hu : MaximalIn P u) (hv : MaximalIn P v) (hub : b < u.2)
      (hvb : v.1 ≤ b) : u.2 ≤ v.2 → u.2 = v.2 := by
    intro hle
    by_contra hne
    exact hu.after (hv.inside _ ⟨by omega, by omega⟩)
  have h₁ : x.1 = y.1 := by
    rcases Int.le_total x.1 y.1 with hle | hle
    · exact hstart hy hx hby₁ hbx₂ hle
    · exact (hstart hx hy hbx₁ hby₂ hle).symm
  have h₂ : x.2 = y.2 := by
    rcases Int.le_total x.2 y.2 with hle | hle
    · exact hend hx hy hbx₂ hby₁ hle
    · exact (hend hy hx hby₂ hbx₁ hle).symm
  exact Prod.ext h₁ h₂

/-! ## Chains -/

/-- Intervals of the set, each starting where the one before ends, lead from `lo` to
`hi`. -/
def Chained (P : Int × Int → Prop) : Int → Int → Prop := Relation.TransGen fun x y => P (x, y)

variable {P : Int × Int → Prop}

theorem Chained.lt (hne : ∀ x, P x → x.1 < x.2) (h : Chained P lo hi) : lo < hi := by
  induction h with
  | single hlink => exact hne _ hlink
  | tail _ hlink ih => exact Int.lt_trans ih (hne _ hlink)

/-- A chain starts with an interval. -/
theorem Chained.exists_first (h : Chained P lo hi) : ∃ y, P (lo, y) := by
  obtain ⟨y, hlink, -⟩ := Relation.TransGen.head'_iff.mp h
  exact ⟨y, hlink⟩

/-- A chain leaves no point out. -/
theorem Chained.exists_holds (hne : ∀ x, P x → x.1 < x.2) (h : Chained P lo hi) {b : Int}
    (hlo : lo ≤ b) (hhi : b < hi) : ∃ x, P x ∧ lo ≤ x.1 ∧ x.2 ≤ hi ∧ Holds x b := by
  induction h with
  | @single hi hlink => exact ⟨(lo, hi), hlink, Int.le_refl _, Int.le_refl _, hlo, hhi⟩
  | @tail mid hi hbefore hlink ih =>
    have hmid := Chained.lt hne hbefore
    have hlast : mid < hi := hne _ hlink
    by_cases hb : b < mid
    · obtain ⟨x, hx, hfrom, hto, hholds⟩ := ih hb
      exact ⟨x, hx, hfrom, by omega, hholds⟩
    · exact ⟨(mid, hi), hlink, by show lo ≤ mid; omega, Int.le_refl _, Int.not_lt.mp hb, hhi⟩

/-- **Where a chain cannot go on is its greatest end**, if the intervals share no point. -/
theorem Chained.le_of_final (hne : ∀ x, P x → x.1 < x.2)
    (hapart : ∀ x y, P x → P y → x ≠ y → Apart x y) {a b : Int} (h : Chained P lo a)
    (hfinal : ∀ y, ¬ P (a, y)) (h' : Chained P lo b) : b ≤ a := by
  have hunique : Relator.RightUnique fun x y => P (x, y) := by
    intro x y z hy hz
    by_contra hyz
    have hlt : x < y := hne _ hy
    have hlt' : x < z := hne _ hz
    rcases hapart _ _ hy hz (fun heq => hyz (Prod.mk.inj heq).2) with hle | hle
    · exact absurd hlt (Int.not_lt.mpr hle)
    · exact absurd hlt' (Int.not_lt.mpr hle)
  rcases h.to_reflTransGen.total_of_right_unique hunique h'.to_reflTransGen with hab | hba
  · rcases Relation.ReflTransGen.cases_head hab with rfl | ⟨y, hlink, -⟩
    · exact Int.le_refl _
    · exact absurd hlink (hfinal y)
  · rcases Relation.reflTransGen_iff_eq_or_transGen.mp hba with rfl | hba
    · exact Int.le_refl _
    · exact Int.le_of_lt (Chained.lt hne hba)

theorem Chained.imp {Q : Int × Int → Prop} (h : Chained P lo hi) (hPQ : ∀ x, P x → Q x) :
    Chained Q lo hi :=
  Relation.TransGen.mono (fun x y => hPQ (x, y)) _ _ h

/-- Intervals that touch end to end are a chain. -/
theorem chained_of_isChain {xs : List (Int × Int)} {first last : Int × Int}
    (htouch : xs.IsChain fun x y => x.2 = y.1) (hfirst : xs.head? = some first)
    (hlast : xs.getLast? = some last) : Chained (· ∈ xs) first.1 last.2 := by
  induction xs generalizing first with
  | nil => cases hfirst
  | cons x xs ih =>
    obtain rfl := Option.some.inj hfirst
    cases xs with
    | nil =>
      obtain rfl := Option.some.inj hlast
      exact .single List.mem_cons_self
    | cons y xs =>
      obtain ⟨hxy, htouch⟩ := List.isChain_cons_cons.mp htouch
      rw [List.getLast?_cons_cons] at hlast
      have hrest := (ih htouch rfl hlast).imp fun _ hmem => List.mem_cons_of_mem x hmem
      exact .head List.mem_cons_self (hxy ▸ hrest)

/-- Non-empty intervals that touch end to end come in order. -/
theorem ordered_of_isChain {xs : List (Int × Int)} (htouch : xs.IsChain fun x y => x.2 = y.1)
    (hne : ∀ x ∈ xs, x.1 < x.2) : xs.Pairwise fun x y => x.2 ≤ y.1 := by
  induction xs with
  | nil => exact .nil
  | cons x xs ih =>
    have hne' : ∀ y ∈ xs, y.1 < y.2 := fun y hy => hne y (List.mem_cons_of_mem x hy)
    have hordered := ih htouch.of_cons hne'
    refine List.pairwise_cons.mpr ⟨fun y hy => ?_, hordered⟩
    cases xs with
    | nil => cases hy
    | cons z xs =>
      have hxz : x.2 = z.1 := (List.isChain_cons_cons.mp htouch).1
      rcases List.mem_cons.mp hy with rfl | hy
      · exact Int.le_of_eq hxz
      · have hz := hne' z List.mem_cons_self
        have hzy := (List.pairwise_cons.mp hordered).1 y hy
        omega

/-- Intervals in order that share no point and cover an interval touch end to end. -/
theorem isChain_of_covers {xs : List (Int × Int)} (hlt : lo < hi)
    (hordered : xs.Pairwise fun x y => x.2 ≤ y.1)
    (hinside : ∀ x ∈ xs, x.1 < x.2 ∧ Within x (lo, hi))
    (hcovers : ∀ b, lo ≤ b → b < hi → ∃ x ∈ xs, Holds x b) :
    xs.IsChain (fun x y => x.2 = y.1) ∧ (∃ first, xs.head? = some first ∧ first.1 = lo) ∧
      ∃ last, xs.getLast? = some last ∧ last.2 = hi := by
  induction xs generalizing lo with
  | nil =>
    obtain ⟨x, hx, -⟩ := hcovers lo (Int.le_refl _) hlt
    cases hx
  | cons x xs ih =>
    obtain ⟨hafter, hordered⟩ := List.pairwise_cons.mp hordered
    obtain ⟨hne, hstart, hend⟩ := hinside x List.mem_cons_self
    have hstart : lo ≤ x.1 := hstart
    have hend : x.2 ≤ hi := hend
    -- The first point is covered by the first interval, for the others start later.
    have hfirst : x.1 = lo := by
      obtain ⟨y, hy, hholds⟩ := hcovers lo (Int.le_refl _) hlt
      have hle : y.1 ≤ lo := hholds.1
      rcases List.mem_cons.mp hy with rfl | hy
      · exact Int.le_antisymm hle hstart
      · have hlater := hafter y hy
        omega
    by_cases hlast : x.2 < hi
    · obtain ⟨hchain, ⟨next, hnext, htouch⟩, last, hgetLast, hstop⟩ := ih hlast hordered
        (fun y hy => ⟨(hinside y (List.mem_cons_of_mem _ hy)).1, hafter y hy,
          (hinside y (List.mem_cons_of_mem _ hy)).2.2⟩) fun b hb hb' => by
          obtain ⟨y, hy, hholds⟩ := hcovers b (by omega) hb'
          rcases List.mem_cons.mp hy with rfl | hy
          · exact absurd hholds.2 (Int.not_lt.mpr hb)
          · exact ⟨y, hy, hholds⟩
      obtain ⟨rest, rfl⟩ : ∃ rest, xs = next :: rest := by
        cases xs with
        | nil => cases hnext
        | cons y rest => exact ⟨rest, by rw [Option.some.inj hnext]⟩
      refine ⟨List.isChain_cons_cons.mpr ⟨htouch.symm, hchain⟩, ⟨x, rfl, hfirst⟩, last, ?_, hstop⟩
      rw [List.getLast?_cons_cons]
      exact hgetLast
    · have hnil : xs = [] := by
        rw [List.eq_nil_iff_forall_not_mem]
        intro y hy
        obtain ⟨hney, -, hendy⟩ := hinside y (List.mem_cons_of_mem _ hy)
        have hendy : y.2 ≤ hi := hendy
        have hlater := hafter y hy
        omega
      subst hnil
      exact ⟨.singleton x, ⟨x, rfl, hfirst⟩, x, rfl, by omega⟩

end OpSuccinct.Intervals
