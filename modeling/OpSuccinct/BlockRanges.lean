import Mathlib.Algebra.Ring.Int.Defs
import Mathlib.Data.List.Sort
import OpSuccinct.IntervalLists

/-! # Gaps and ranges to prove

The block ranges of `validity/src/utils.rs`: the gaps the active range requests
leave between the latest proposed and the finalized block, and their division
into ranges of the proof interval.  Blocks are integers; sums are checked to fit
an `i64`, as a sum that does not is no block number (a release build would wrap).
-/
namespace OpSuccinct.Validity

open Intervals

abbrev BlockRange := Int × Int

/-! ## Gaps -/

/-- The gaps from `currentStart` on. -/
def findGapsFrom (currentStart overallEnd : Int) : List BlockRange → List BlockRange
  | [] => if currentStart < overallEnd then [(currentStart, overallEnd)] else []
  | (start, stop) :: ranges =>
    (if currentStart < start then [(currentStart, start)] else []) ++
      findGapsFrom (max stop currentStart) overallEnd ranges

/-- `find_gaps`. -/
def findGaps (overallStart overallEnd : Int) (ranges : List BlockRange) : List BlockRange :=
  findGapsFrom overallStart overallEnd ranges

example : findGaps 1 10 [(2, 5), (7, 9)] = [(1, 2), (5, 7), (9, 10)] := by decide

theorem le_of_mem_findGapsFrom {currentStart overallEnd : Int} {ranges : List BlockRange}
    {gap : BlockRange} (h : gap ∈ findGapsFrom currentStart overallEnd ranges) :
    currentStart ≤ gap.1 := by
  induction ranges generalizing currentStart with
  | nil =>
    unfold findGapsFrom at h
    split at h
    · rw [List.mem_singleton.mp h]
    · cases h
  | cons range ranges ih =>
    obtain ⟨start, stop⟩ := range
    rcases List.mem_append.mp h with h | h
    · split at h
      · rw [List.mem_singleton.mp h]
      · cases h
    · have hle := ih h
      omega

/-- Every gap is non-empty. -/
theorem lt_of_mem_findGapsFrom {currentStart overallEnd : Int} {ranges : List BlockRange}
    {gap : BlockRange} (h : gap ∈ findGapsFrom currentStart overallEnd ranges) : gap.1 < gap.2 := by
  induction ranges generalizing currentStart with
  | nil =>
    unfold findGapsFrom at h
    split at h
    · rw [List.mem_singleton.mp h]
      assumption
    · cases h
  | cons range ranges ih =>
    obtain ⟨start, stop⟩ := range
    rcases List.mem_append.mp h with h | h
    · split at h
      · rw [List.mem_singleton.mp h]
        assumption
      · cases h
    · exact ih h

/-- Gaps come in order. -/
theorem findGapsFrom_ordered (currentStart overallEnd : Int) {ranges : List BlockRange}
    (hranges : ∀ range ∈ ranges, range.1 ≤ range.2) :
    (findGapsFrom currentStart overallEnd ranges).Pairwise fun x y => x.2 ≤ y.1 := by
  induction ranges generalizing currentStart with
  | nil =>
    unfold findGapsFrom
    split <;> simp
  | cons range ranges ih =>
    obtain ⟨start, stop⟩ := range
    have hle : start ≤ stop := hranges _ List.mem_cons_self
    rw [findGapsFrom, List.pairwise_append]
    refine ⟨?_, ih _ fun r hr => hranges r (List.mem_cons_of_mem _ hr), fun x hx y hy => ?_⟩
    · split <;> simp
    · have hy := le_of_mem_findGapsFrom hy
      split at hx
      · rw [List.mem_singleton.mp hx]
        show start ≤ y.1
        omega
      · cases hx

/-- **Gaps and ranges have no block in common**, when the ranges are sorted by start. -/
theorem findGapsFrom_apart {currentStart overallEnd : Int} {ranges : List BlockRange}
    (hsorted : ranges.Pairwise fun x y => x.1 ≤ y.1) {gap range : BlockRange}
    (hgap : gap ∈ findGapsFrom currentStart overallEnd ranges) (hrange : range ∈ ranges) :
    Apart gap range := by
  induction ranges generalizing currentStart with
  | nil => cases hrange
  | cons first ranges ih =>
    obtain ⟨start, stop⟩ := first
    obtain ⟨hfirst, hsorted⟩ := List.pairwise_cons.mp hsorted
    rcases List.mem_append.mp hgap with hgap | hgap
    · -- The gap before the first range ends where that range starts.
      split at hgap
      · rw [List.mem_singleton.mp hgap]
        left
        rcases List.mem_cons.mp hrange with rfl | hrange
        · exact Int.le_refl _
        · exact hfirst range hrange
      · cases hgap
    · rcases List.mem_cons.mp hrange with rfl | hrange
      · have hle := le_of_mem_findGapsFrom hgap
        right
        show stop ≤ gap.1
        omega
      · exact ih hsorted hgap hrange

/-! ## Ranges to prove -/

/-- Addition of `i64`s, which fails on overflow. -/
def addI64 (a b : Int) : Option Int :=
  if -2 ^ 63 ≤ a + b ∧ a + b < 2 ^ 63 then some (a + b) else none

/-- The loop over one range, within `fuel` turns. -/
def chunksFrom (rangeProofInterval stop : Int) : Nat → Int → Option (List BlockRange)
  | 0, currentStart => if currentStart < stop then none else some []
  | fuel + 1, currentStart =>
    if currentStart < stop then do
      let currentEnd := min (← addI64 currentStart rangeProofInterval) stop
      let ranges ← chunksFrom rangeProofInterval stop fuel currentEnd
      return (currentStart, currentEnd) :: ranges
    else some []

/-- The pieces of one range.  A positive interval moves the start, so as many turns as
the range has blocks are enough; no other interval ever reaches the end. -/
def chunks (rangeProofInterval : Int) (range : BlockRange) : Option (List BlockRange) :=
  chunksFrom rangeProofInterval range.2 (range.2 - range.1).toNat range.1

/-- The last range is removed if it is shorter than the interval. -/
def dropShortLast (rangeProofInterval : Int) (ranges : List BlockRange) : List BlockRange :=
  match ranges.getLast? with
  | some (start, stop) => if stop - start < rangeProofInterval then ranges.dropLast else ranges
  | none => ranges

/-- `get_ranges_to_prove`; there is no result if it does not return. -/
def getRangesToProve (disjointRanges : List BlockRange) (rangeProofInterval : Int) :
    Option (List BlockRange) := do
  let pieces ← disjointRanges.mapM (chunks rangeProofInterval)
  return dropShortLast rangeProofInterval pieces.flatten

example : getRangesToProve [(0, 50), (100, 200), (200, 210)] 25 =
    some [(0, 25), (25, 50), (100, 125), (125, 150), (150, 175), (175, 200)] := by decide

theorem addI64_eq_some_iff {a b c : Int} :
    addI64 a b = some c ↔ (-2 ^ 63 ≤ a + b ∧ a + b < 2 ^ 63) ∧ a + b = c := by
  unfold addI64
  split <;> simp <;> omega

theorem chunksFrom_eq_nil {rangeProofInterval stop currentStart : Int} (fuel : Nat)
    (h : ¬ currentStart < stop) :
    chunksFrom rangeProofInterval stop fuel currentStart = some [] := by
  cases fuel <;> simp [chunksFrom, h]

theorem chunksFrom_succ_eq_some_iff {rangeProofInterval stop currentStart : Int} {fuel : Nat}
    {ranges : List BlockRange} (h : currentStart < stop) :
    chunksFrom rangeProofInterval stop (fuel + 1) currentStart = some ranges ↔
      ∃ next rest, addI64 currentStart rangeProofInterval = some next ∧
        chunksFrom rangeProofInterval stop fuel (min next stop) = some rest ∧
        (currentStart, min next stop) :: rest = ranges := by
  simp [chunksFrom, h, Option.bind_eq_some_iff]

/-- An interval that is not positive never gets to the end of a non-empty range. -/
theorem chunksFrom_ne_some {rangeProofInterval stop currentStart : Int} (fuel : Nat)
    {ranges : List BlockRange} (hinterval : rangeProofInterval ≤ 0) (h : currentStart < stop) :
    chunksFrom rangeProofInterval stop fuel currentStart ≠ some ranges := by
  induction fuel generalizing currentStart ranges with
  | zero => simp [chunksFrom, h]
  | succ fuel ih =>
    intro hsome
    obtain ⟨next, rest, hnext, hrest, -⟩ := (chunksFrom_succ_eq_some_iff h).mp hsome
    have hsum := (addI64_eq_some_iff.mp hnext).2
    exact ih (by omega) hrest

/-- **The pieces of a range** are non-empty, lie inside it and are in order. -/
theorem chunksFrom_spec {rangeProofInterval stop currentStart : Int} {fuel : Nat}
    {ranges : List BlockRange}
    (h : chunksFrom rangeProofInterval stop fuel currentStart = some ranges) :
    (ranges.Pairwise fun x y => x.2 ≤ y.1) ∧
      ∀ range ∈ ranges, range.1 < range.2 ∧ Within range (currentStart, stop) := by
  induction fuel generalizing currentStart ranges with
  | zero =>
    by_cases hlt : currentStart < stop
    · simp [chunksFrom, hlt] at h
    · rw [chunksFrom_eq_nil 0 hlt] at h
      cases h
      simp
  | succ fuel ih =>
    by_cases hlt : currentStart < stop
    · have hpositive : 0 < rangeProofInterval := by
        by_contra hinterval
        exact chunksFrom_ne_some _ (by omega) hlt h
      obtain ⟨next, rest, hnext, hrest, rfl⟩ := (chunksFrom_succ_eq_some_iff hlt).mp h
      have hsum := (addI64_eq_some_iff.mp hnext).2
      obtain ⟨hordered, hinside⟩ := ih hrest
      constructor
      · refine List.pairwise_cons.mpr ⟨fun range hrange => ?_, hordered⟩
        exact (hinside range hrange).2.1
      · intro range hrange
        rcases List.mem_cons.mp hrange with rfl | hrange
        · exact ⟨by show currentStart < min next stop; omega, Int.le_refl _, Int.min_le_right _ _⟩
        · obtain ⟨hrange, hstart, hstop⟩ := hinside range hrange
          refine ⟨hrange, ?_, hstop⟩
          show currentStart ≤ range.1
          have hstart : min next stop ≤ range.1 := hstart
          omega
    · rw [chunksFrom_eq_nil _ hlt] at h
      cases h
      simp

theorem dropShortLast_sublist (rangeProofInterval : Int) (ranges : List BlockRange) :
    (dropShortLast rangeProofInterval ranges).Sublist ranges := by
  unfold dropShortLast
  split
  · split
    · exact List.dropLast_sublist ranges
    · exact List.Sublist.refl ranges
  · exact List.Sublist.refl ranges

/-- The pieces of ranges that share no block are non-empty, share no block, and lie inside
the ranges. -/
theorem pieces_spec {disjointRanges : List BlockRange} {pieces : List (List BlockRange)}
    {rangeProofInterval : Int} (hdisjoint : disjointRanges.Pairwise Apart)
    (h : disjointRanges.mapM (chunks rangeProofInterval) = some pieces) :
    pieces.flatten.Pairwise Apart ∧
      ∀ piece ∈ pieces.flatten, piece.1 < piece.2 ∧
        ∃ outer ∈ disjointRanges, Within piece outer := by
  have hchunks := forall₂_of_mapM h
  have hcuts : List.Forall₂ Cuts disjointRanges pieces := hchunks.imp fun outer cut hcut =>
    ⟨pairwise_apart_of_ordered (chunksFrom_spec hcut).1,
      fun p hp => ((chunksFrom_spec hcut).2 p hp).2⟩
  refine ⟨pairwise_apart_flatten hdisjoint hcuts, fun piece hpiece => ?_⟩
  obtain ⟨cut, hcut, hin⟩ := List.mem_flatten.mp hpiece
  obtain ⟨outer, -, houter⟩ := exists_of_forall₂ hchunks hcut
  exact ⟨((chunksFrom_spec houter).2 piece hin).1, exists_within_of_mem_flatten hcuts hpiece⟩

theorem getRangesToProve_eq_some_iff {disjointRanges ranges : List BlockRange}
    {rangeProofInterval : Int} :
    getRangesToProve disjointRanges rangeProofInterval = some ranges ↔
      ∃ pieces, disjointRanges.mapM (chunks rangeProofInterval) = some pieces ∧
        dropShortLast rangeProofInterval pieces.flatten = ranges := by
  simp only [getRangesToProve, Option.bind_eq_bind, Option.bind_eq_some_iff, Option.pure_def,
    Option.some.injEq]

/-- **Ranges to prove** are non-empty, pairwise apart, and lie inside the given ones. -/
theorem getRangesToProve_spec {disjointRanges ranges : List BlockRange} {rangeProofInterval : Int}
    (hdisjoint : disjointRanges.Pairwise Apart)
    (h : getRangesToProve disjointRanges rangeProofInterval = some ranges) :
    ranges.Pairwise Apart ∧
      ∀ range ∈ ranges, range.1 < range.2 ∧ ∃ outer ∈ disjointRanges, Within range outer := by
  obtain ⟨pieces, hpieces, rfl⟩ := getRangesToProve_eq_some_iff.mp h
  obtain ⟨hapart, hinside⟩ := pieces_spec hdisjoint hpieces
  have hsub := dropShortLast_sublist rangeProofInterval pieces.flatten
  exact ⟨hapart.sublist hsub, fun range hrange => hinside range (hsub.subset hrange)⟩

/-- Ranges to prove are non-empty, whatever the given ones are. -/
theorem getRangesToProve_nonempty {disjointRanges ranges : List BlockRange}
    {rangeProofInterval : Int}
    (h : getRangesToProve disjointRanges rangeProofInterval = some ranges) :
    ∀ range ∈ ranges, range.1 < range.2 := by
  obtain ⟨pieces, hpieces, rfl⟩ := getRangesToProve_eq_some_iff.mp h
  intro range hrange
  have hpiece := (dropShortLast_sublist rangeProofInterval pieces.flatten).subset hrange
  obtain ⟨cut, hcut, hin⟩ := List.mem_flatten.mp hpiece
  obtain ⟨outer, -, houter⟩ := exists_of_forall₂ (forall₂_of_mapM hpieces) hcut
  exact ((chunksFrom_spec houter).2 range hin).1

end OpSuccinct.Validity
