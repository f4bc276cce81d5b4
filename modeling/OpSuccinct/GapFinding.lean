import OpSuccinct.RangeCoverage

/-! # Gaps beyond the end

`find_gaps` looks at the end of the overall range only after its last sub-range, and
`add_new_ranges` passes it every active request from the latest proposed block on, also
those beyond the finalized block.  A sub-range that starts beyond the end closes a gap
there.  So the gaps are the maximal uncovered intervals of the overall range exactly when
no block from its end to the start of a sub-range is uncovered (`finds_gaps_iff`).
-/
namespace OpSuccinct.Validity

open Intervals

/-- **The gaps are found**: they come in order, and are exactly the maximal intervals of
blocks of the overall range that no sub-range covers. -/
structure FindsGaps (overallStart overallEnd : Int) (ranges : List BlockRange) : Prop where
  ordered : (findGaps overallStart overallEnd ranges).Pairwise fun x y => x.2 ≤ y.1
  maximal : ∀ gap, gap ∈ findGaps overallStart overallEnd ranges ↔
    MaximalIn (Uncovered overallStart overallEnd ranges) gap

/-- **The condition**: from the end of the overall range to the start of a sub-range
beyond it, every block is covered. -/
def CoveredBeyond (overallEnd : Int) (ranges : List BlockRange) : Prop :=
  ∀ range ∈ ranges, ∀ b, overallEnd ≤ b → b < range.1 → ∃ r ∈ ranges, Holds r b

variable {overallStart overallEnd : Int} {ranges : List BlockRange} {gap : BlockRange}

/-- No gap goes past the end, for its last block would be an uncovered one there. -/
theorem CoveredBeyond.gap_le (h : CoveredBeyond overallEnd ranges)
    (hsorted : ranges.Pairwise fun x y => x.1 ≤ y.1)
    (hgap : gap ∈ findGaps overallStart overallEnd ranges) : gap.2 ≤ overallEnd := by
  by_contra hlt
  have hne := lt_of_mem_findGapsFrom hgap
  obtain ⟨range, hrange, heq⟩ := (gap_ends hgap).2.resolve_left (by omega)
  obtain ⟨r, hr, hholds⟩ := h range hrange (gap.2 - 1) (by omega) (by omega)
  have hlast : Holds gap (gap.2 - 1) := ⟨by omega, by omega⟩
  exact hlast.not_of_apart (findGapsFrom_apart hsorted hgap hr) hholds

/-- **When `find_gaps` finds the gaps.** -/
theorem finds_gaps_iff (hle : overallStart ≤ overallEnd)
    (hsorted : ranges.Pairwise fun x y => x.1 ≤ y.1)
    (hranges : ∀ range ∈ ranges, range.1 < range.2 ∧ overallStart ≤ range.1) :
    FindsGaps overallStart overallEnd ranges ↔ CoveredBeyond overallEnd ranges := by
  constructor
  · intro h range hrange b hb hlt
    by_contra hfree
    have hfree : ∀ r ∈ ranges, ¬ Holds r b := fun r hr hholds => hfree ⟨r, hr, hholds⟩
    obtain ⟨gap, hgap, hholds⟩ :=
      exists_gap (Int.le_trans hle hb) (.inr ⟨range, hrange, hlt⟩) hfree
    -- a gap that holds a block beyond the end is no interval of the overall range
    have hinside := (((h.maximal gap).mp hgap).inside b hholds).2.1
    omega
  · intro h
    refine ⟨findGapsFrom_ordered _ _ fun r hr => Int.le_of_lt (hranges r hr).1, fun gap => ?_⟩
    exact mem_findGaps_iff_of_le hsorted (fun r hr => (hranges r hr).1)
      fun g hg => h.gap_le hsorted hg

/-- Nested and repeated ranges, one that starts before the end and ends beyond it, and one
that starts there. -/
theorem finds_gaps_iff_example :
    FindsGaps 0 10 [(2, 8), (3, 5), (3, 5), (9, 12), (12, 15)] := by
  have hstarts : ∀ range ∈ [(2, 8), (3, 5), (3, 5), (9, 12), ((12, 15) : BlockRange)],
      range.1 ≤ 12 := by decide
  refine (finds_gaps_iff (by decide) (by decide) (by decide)).mpr fun range hrange b hb hlt => ?_
  have hstart := hstarts range hrange
  refine ⟨(9, 12), by decide, ?_, ?_⟩
  · show (9 : Int) ≤ b
    omega
  · show b < 12
    omega

/-- **The failing input.**  A range that starts beyond the end: the gap before it goes past
the end. -/
theorem gap_beyond_end :
    findGaps 1 10 [(12, 15)] = [(1, 12)] ∧ ¬ FindsGaps 1 10 [(12, 15)] := by
  have hgaps : findGaps 1 10 [(12, 15)] = [(1, 12)] := by decide
  refine ⟨hgaps, fun h => ?_⟩
  have hmem : ((1, 12) : BlockRange) ∈ findGaps 1 10 [(12, 15)] := by decide
  have hinside := (((h.maximal _).mp hmem).inside 10 ⟨by decide, by decide⟩).2.1
  exact absurd hinside (by decide)

end OpSuccinct.Validity
