import Mathlib.Data.List.Chain
import Mathlib.Data.List.Dedup
import Mathlib.Data.List.Sort
import OpSuccinct.DataFetcher
import OpSuccinct.IntervalLists

/-! # Span batch ranges

The two splitters of `block_range.rs`.  `split_range_basic` cuts a range of L2 blocks by
steps of the maximum size.  `split_range_based_on_safe_heads` cuts it at the safe heads
first, and each piece by the size: what it does between two cuts is what the basic splitter
does there (`spanRanges_eq_basic`), so the pieces touch end to end
(`split_by_safe_heads`), and without a cut the two splitters agree.  A sum that overflows is
an error, as in a build with overflow checks.
-/
namespace OpSuccinct.Fetcher

open Intervals

/-! ## The splitters -/

/-- `SpanBatchRange`; `stop` is its `end`. -/
structure SpanBatchRange where
  start : Nat
  stop : Nat
  deriving DecidableEq, Repr

inductive SplitError
  | fetch (e : FetchError)
  /-- "Failed to fetch safe head", the panic of an `expect`. -/
  | failedToFetchSafeHead
  | overflow
  /-- A maximum size of 0: the loop pushes ranges and never ends. -/
  | endless
  deriving DecidableEq

/-- `split_range_basic`, whose loop is at the block `start`. -/
def splitRangeBasic (start stop maxRangeSize : Nat) : Except SplitError (List SpanBatchRange) :=
  if start < stop then
    if 2 ^ 64 ≤ start + maxRangeSize then .error .overflow
    else if maxRangeSize = 0 then .error .endless
    else
      let currentEnd := min (start + maxRangeSize) stop
      (⟨start, currentEnd⟩ :: ·) <$> splitRangeBasic currentEnd stop maxRangeSize
  else .ok []
termination_by stop - start

/-- The inner loop of `split_range_based_on_safe_heads`, with the range pushed after it. -/
def spanRanges (maxRangeSize stop rangeStart : Nat) : Except SplitError (List SpanBatchRange) :=
  if 2 ^ 64 ≤ rangeStart + maxRangeSize then .error .overflow
  else if rangeStart + maxRangeSize < stop then
    if maxRangeSize = 0 then .error .endless
    else
      (⟨rangeStart, rangeStart + maxRangeSize⟩ :: ·) <$>
        spanRanges maxRangeSize stop (rangeStart + maxRangeSize)
  else .ok [⟨rangeStart, stop⟩]
termination_by stop - rangeStart

/-- The loop over the sorted safe heads. -/
def rangesBySafeHeads (l2End maxRangeSize : Nat) :
    Nat → List Nat → Except SplitError (List SpanBatchRange)
  | _, [] => .ok []
  | currentL2Start, safeHead :: safeHeads =>
    if currentL2Start < safeHead ∧ currentL2Start < l2End then do
      let ranges ← spanRanges maxRangeSize (min l2End safeHead) currentL2Start
      let rest ← rangesBySafeHeads l2End maxRangeSize safeHead safeHeads
      pure (ranges ++ rest)
    else rangesBySafeHeads l2End maxRangeSize currentL2Start safeHeads

/-- The safe heads that `split_range_based_on_safe_heads` fetches, from the L1 origin of the
first block to the L1 head from which the last one can be derived. -/
def fetchSafeHeads (fetcher : DataFetcher) (l2Start l2End : Nat) :
    Except SplitError (List Nat) := do
  let l1Start ← (fetcher.l1OriginAtBlock l2Start).mapError .fetch
  let (_, l1HeadNumber) ← (getSafeL1BlockForL2Block fetcher l2End).mapError .fetch
  (List.range' l1Start (l1HeadNumber + 1 - l1Start)).mapM fun block =>
    match fetcher.safeHeadAtL1Block block with
    | .ok result => .ok result.safeHead
    | .error _ => .error .failedToFetchSafeHead

/-- The safe heads as a set, sorted. -/
def sortedHeads (safeHeads : List Nat) : List Nat := safeHeads.dedup.insertionSort (· ≤ ·)

/-- `split_range_based_on_safe_heads`. -/
def splitRangeBasedOnSafeHeads (fetcher : DataFetcher) (l2Start l2End maxRangeSize : Nat) :
    Except SplitError (List SpanBatchRange) := do
  let safeHeads ← fetchSafeHeads fetcher l2Start l2End
  rangesBySafeHeads l2End maxRangeSize l2Start (sortedHeads safeHeads)

/-! ## The sorted heads -/

theorem mem_sortedHeads {safeHeads : List Nat} {head : Nat} :
    head ∈ sortedHeads safeHeads ↔ head ∈ safeHeads := by
  rw [sortedHeads, List.mem_insertionSort, List.mem_dedup]

theorem sortedHeads_pairwise (safeHeads : List Nat) :
    (sortedHeads safeHeads).Pairwise (· ≤ ·) :=
  List.pairwise_insertionSort _ _

/-- The order in which a set gives its members does not matter. -/
theorem sortedHeads_perm {safeHeads safeHeads' : List Nat} (h : safeHeads.Perm safeHeads') :
    sortedHeads safeHeads = sortedHeads safeHeads' := by
  have hsame : (sortedHeads safeHeads).Perm (sortedHeads safeHeads') :=
    (List.perm_insertionSort _ _).trans (h.dedup.trans (List.perm_insertionSort _ _).symm)
  exact hsame.eq_of_pairwise' (sortedHeads_pairwise _) (sortedHeads_pairwise _)

/-! ## One piece -/

def SpanBatchRange.span (r : SpanBatchRange) : Nat × Nat := (r.start, r.stop)

variable {fetcher : DataFetcher} {maxRangeSize l2Start l2End start stop head : Nat}
  {heads : List Nat} {ranges : List SpanBatchRange}

theorem splitRangeBasic_of_le (h : stop ≤ start) :
    splitRangeBasic start stop maxRangeSize = .ok [] := by
  rw [splitRangeBasic, if_neg (Nat.not_lt.mpr h)]

/-- **Between two cuts the splitters do the same.** -/
theorem spanRanges_eq_basic (hlt : start < stop) :
    spanRanges maxRangeSize stop start = splitRangeBasic start stop maxRangeSize := by
  induction hleft : stop - start using Nat.strongRecOn generalizing start with
  | ind left ih =>
    rw [spanRanges, splitRangeBasic, if_pos hlt]
    by_cases hover : 2 ^ 64 ≤ start + maxRangeSize
    · rw [if_pos hover, if_pos hover]
    · rw [if_neg hover, if_neg hover]
      by_cases hmore : start + maxRangeSize < stop
      · rw [if_pos hmore]
        by_cases hzero : maxRangeSize = 0
        · rw [if_pos hzero, if_pos hzero]
        · rw [if_neg hzero, if_neg hzero, ih _ (by omega) hmore rfl]
          simp only [Nat.min_eq_left (Nat.le_of_lt hmore)]
      · rw [if_neg hmore, if_neg (by omega)]
        simp only [Nat.min_eq_right (Nat.not_lt.mp hmore), splitRangeBasic_of_le (Nat.le_refl stop)]
        rfl

/-- **Ranges from one block to another**, end to end, of the maximum size at most, with an end
at every head between the blocks. -/
structure Pieces (maxRangeSize start stop : Nat) (heads : List Nat)
    (ranges : List SpanBatchRange) : Prop where
  joined : Joined start stop (ranges.map SpanBatchRange.span)
  size : ∀ r ∈ ranges, r.stop ≤ r.start + maxRangeSize
  cut : ∀ head ∈ heads, start < head → head < stop → ∃ r ∈ ranges, r.stop = head

/-- **The basic splitter** gives ranges without a cut, if no sum overflows. -/
theorem splitRangeBasic_spec (hmax : 1 ≤ maxRangeSize) (hle : start ≤ stop)
    (hfits : splitRangeBasic start stop maxRangeSize ≠ .error .overflow) :
    ∃ ranges, splitRangeBasic start stop maxRangeSize = .ok ranges ∧
      Pieces maxRangeSize start stop [] ranges := by
  induction hleft : stop - start using Nat.strongRecOn generalizing start with
  | ind left ih =>
    by_cases hlt : start < stop
    · have hfits' : start + maxRangeSize < 2 ^ 64 := by
        by_contra hover
        exact hfits (by rw [splitRangeBasic, if_pos hlt, if_pos (Nat.not_lt.mp hover)])
      have hstep : splitRangeBasic start stop maxRangeSize =
          (⟨start, min (start + maxRangeSize) stop⟩ :: ·) <$>
            splitRangeBasic (min (start + maxRangeSize) stop) stop maxRangeSize := by
        rw [splitRangeBasic, if_pos hlt, if_neg (Nat.not_le.mpr hfits'), if_neg (by omega)]
      rw [hstep] at hfits ⊢
      have hnext : start < min (start + maxRangeSize) stop := by omega
      obtain ⟨ranges, hranges, hpieces⟩ := ih _ (by omega) (Nat.min_le_right _ _)
        (fun h => hfits (map_error_iff.mpr h)) rfl
      refine ⟨_, map_ok_iff.mpr ⟨ranges, hranges, rfl⟩,
        ⟨.cons hnext hpieces.joined, fun r hr => ?_, fun _ h => nomatch h⟩⟩
      rcases List.mem_cons.mp hr with rfl | hr
      · exact Nat.min_le_left _ _
      · exact hpieces.size r hr
    · obtain rfl : start = stop := by omega
      exact ⟨[], splitRangeBasic_of_le (Nat.le_refl _),
        ⟨.nil _, fun _ hr => (nomatch hr), fun _ h => (nomatch h)⟩⟩

/-! ### Pieces and heads -/

/-- Heads from the end on ask for no cut. -/
theorem Pieces.beyond (h : Pieces maxRangeSize start stop [] ranges)
    (hbeyond : ∀ head ∈ heads, stop ≤ head) : Pieces maxRangeSize start stop heads ranges :=
  ⟨h.joined, h.size, fun head hmem _ hbefore =>
    absurd hbefore (Nat.not_lt.mpr (hbeyond head hmem))⟩

/-- Nor does a head up to the start. -/
theorem Pieces.skip (h : Pieces maxRangeSize start stop heads ranges) (hhead : head ≤ start) :
    Pieces maxRangeSize start stop (head :: heads) ranges := by
  refine ⟨h.joined, h.size, fun other hmem hafter hbefore => ?_⟩
  rcases List.mem_cons.mp hmem with rfl | hmem
  · exact absurd hafter (Nat.not_lt.mpr hhead)
  · exact h.cut other hmem hafter hbefore

/-- **A cut at the first head.** -/
theorem Pieces.append {first rest : List SpanBatchRange}
    (h : Pieces maxRangeSize start head [] first) (h' : Pieces maxRangeSize head stop heads rest)
    (hcut : start < head) (hleast : ∀ other ∈ heads, head ≤ other) :
    Pieces maxRangeSize start stop (head :: heads) (first ++ rest) where
  joined := by
    rw [List.map_append]
    exact h.joined.append h'.joined
  size r hr := by
    rcases List.mem_append.mp hr with hr | hr
    · exact h.size r hr
    · exact h'.size r hr
  cut other hmem hafter hbefore := by
    by_cases hsame : other = head
    · obtain ⟨_, hlast, hend⟩ := h.joined.getLast hcut
      obtain ⟨r, hr, rfl⟩ := List.mem_map.mp (List.mem_of_getLast? hlast)
      exact ⟨r, List.mem_append_left _ hr, hsame ▸ hend⟩
    · have hmem : other ∈ heads := (List.mem_cons.mp hmem).resolve_left hsame
      have hle := hleast other hmem
      obtain ⟨r, hr, hstop⟩ := h'.cut other hmem (by omega) hbefore
      exact ⟨r, List.mem_append_right _ hr, hstop⟩

/-! ## Piece by piece -/

/-- Past the end nothing is left to split. -/
theorem rangesBySafeHeads_of_ge (h : l2End ≤ start) :
    rangesBySafeHeads l2End maxRangeSize start heads = .ok [] := by
  induction heads with
  | nil => rfl
  | cons head heads ih => rw [rangesBySafeHeads, if_neg (by omega), ih]

theorem rangesBySafeHeads_skip (h : head ≤ start) :
    rangesBySafeHeads l2End maxRangeSize start (head :: heads) =
      rangesBySafeHeads l2End maxRangeSize start heads := by
  rw [rangesBySafeHeads, if_neg (by omega)]

/-- A head at the end or beyond it is the last cut. -/
theorem rangesBySafeHeads_last (hlt : start < l2End) (hhead : l2End ≤ head) :
    rangesBySafeHeads l2End maxRangeSize start (head :: heads) =
      splitRangeBasic start l2End maxRangeSize := by
  rw [rangesBySafeHeads, if_pos ⟨by omega, hlt⟩, Nat.min_eq_left hhead, spanRanges_eq_basic hlt,
    rangesBySafeHeads_of_ge hhead]
  cases splitRangeBasic start l2End maxRangeSize with
  | error e => rfl
  | ok ranges => exact congrArg Except.ok (List.append_nil ranges)

/-- Any other head above the start is a cut. -/
theorem rangesBySafeHeads_cut (hlt : start < head) (hhead : head < l2End) :
    rangesBySafeHeads l2End maxRangeSize start (head :: heads) = (do
      let ranges ← splitRangeBasic start head maxRangeSize
      let rest ← rangesBySafeHeads l2End maxRangeSize head heads
      pure (ranges ++ rest)) := by
  rw [rangesBySafeHeads, if_pos ⟨hlt, by omega⟩, Nat.min_eq_right (Nat.le_of_lt hhead),
    spanRanges_eq_basic hlt]

/-- A head that is not the one to reach the end leaves one that is. -/
theorem exists_reach_tail (hhead : head < l2End) (hreach : ∃ last ∈ head :: heads, l2End ≤ last) :
    ∃ last ∈ heads, l2End ≤ last := by
  obtain ⟨last, hmem, hle⟩ := hreach
  rcases List.mem_cons.mp hmem with rfl | hmem
  · exact absurd hle (Nat.not_le.mpr hhead)
  · exact ⟨last, hmem, hle⟩

/-- **Without a cut the splitters agree.** -/
theorem rangesBySafeHeads_eq_basic (hlt : start < l2End) (hreach : ∃ head ∈ heads, l2End ≤ head)
    (hnone : ∀ head ∈ heads, ¬ (start < head ∧ head < l2End)) :
    rangesBySafeHeads l2End maxRangeSize start heads =
      splitRangeBasic start l2End maxRangeSize := by
  induction heads with
  | nil =>
    obtain ⟨head, hmem, -⟩ := hreach
    cases hmem
  | cons head heads ih =>
    by_cases hhead : l2End ≤ head
    · exact rangesBySafeHeads_last hlt hhead
    · have hskip : head ≤ start := by
        by_contra hcut
        exact hnone head List.mem_cons_self ⟨Nat.not_le.mp hcut, Nat.not_le.mp hhead⟩
      rw [rangesBySafeHeads_skip hskip]
      exact ih (exists_reach_tail (Nat.not_le.mp hhead) hreach)
        fun h hmem => hnone h (List.mem_cons_of_mem _ hmem)

/-- **The loop over sorted heads** gives ranges with a cut at every head between the start
and the end. -/
theorem rangesBySafeHeads_spec (hmax : 1 ≤ maxRangeSize) (hlt : start < l2End)
    (hsorted : heads.Pairwise (· ≤ ·)) (hreach : ∃ head ∈ heads, l2End ≤ head)
    (hfits : rangesBySafeHeads l2End maxRangeSize start heads ≠ .error .overflow) :
    ∃ ranges, rangesBySafeHeads l2End maxRangeSize start heads = .ok ranges ∧
      Pieces maxRangeSize start l2End heads ranges := by
  induction heads generalizing start with
  | nil =>
    obtain ⟨head, hmem, -⟩ := hreach
    cases hmem
  | cons head heads ih =>
    obtain ⟨hleast, hsorted⟩ := List.pairwise_cons.mp hsorted
    by_cases hlast : l2End ≤ head
    · rw [rangesBySafeHeads_last hlt hlast] at hfits ⊢
      obtain ⟨ranges, hranges, hpieces⟩ := splitRangeBasic_spec hmax (Nat.le_of_lt hlt) hfits
      refine ⟨ranges, hranges, hpieces.beyond fun other hmem => ?_⟩
      rcases List.mem_cons.mp hmem with rfl | hmem
      · exact hlast
      · exact Nat.le_trans hlast (hleast other hmem)
    · have hhead : head < l2End := Nat.not_le.mp hlast
      have hreach := exists_reach_tail hhead hreach
      by_cases hskip : head ≤ start
      · rw [rangesBySafeHeads_skip hskip] at hfits ⊢
        obtain ⟨ranges, hranges, hpieces⟩ := ih hlt hsorted hreach hfits
        exact ⟨ranges, hranges, hpieces.skip hskip⟩
      · have hcut : start < head := Nat.not_le.mp hskip
        rw [rangesBySafeHeads_cut hcut hhead] at hfits ⊢
        obtain ⟨first, hfirst, hpieces⟩ := splitRangeBasic_spec hmax (Nat.le_of_lt hcut)
          fun h => hfits (bind_error_iff.mpr (.inl h))
        obtain ⟨rest, hrest, hpieces'⟩ := ih hhead hsorted hreach fun h =>
          hfits (bind_error_iff.mpr (.inr ⟨first, hfirst, bind_error_iff.mpr (.inl h)⟩))
        exact ⟨first ++ rest,
          bind_ok_iff.mpr ⟨first, hfirst, bind_ok_iff.mpr ⟨rest, hrest, rfl⟩⟩,
          hpieces.append hpieces' hcut hleast⟩

/-! ## Sums that fit -/

theorem splitRangeBasic_fits (hfits : stop + maxRangeSize ≤ 2 ^ 64) :
    splitRangeBasic start stop maxRangeSize ≠ .error .overflow := by
  induction hleft : stop - start using Nat.strongRecOn generalizing start with
  | ind left ih =>
    intro hover
    rw [splitRangeBasic] at hover
    split at hover
    · split at hover
      · omega
      · split at hover
        · cases hover
        · exact ih _ (by omega) rfl (map_error_iff.mp hover)
    · cases hover

/-- No sum overflows if the size still fits after the last block. -/
theorem rangesBySafeHeads_fits (hfits : l2End + maxRangeSize ≤ 2 ^ 64) :
    rangesBySafeHeads l2End maxRangeSize start heads ≠ .error .overflow := by
  induction heads generalizing start with
  | nil => exact fun h => nomatch h
  | cons head heads ih =>
    intro hover
    by_cases hskip : head ≤ start
    · rw [rangesBySafeHeads_skip hskip] at hover
      exact ih hover
    · rcases Nat.lt_or_ge start l2End with hlt | hge
      · rcases Nat.lt_or_ge head l2End with hhead | hhead
        · rw [rangesBySafeHeads_cut (Nat.not_le.mp hskip) hhead] at hover
          rcases bind_error_iff.mp hover with h | ⟨_, -, h⟩
          · exact splitRangeBasic_fits (by omega) h
          · rcases bind_error_iff.mp h with h | ⟨_, -, h⟩
            · exact ih h
            · cases h
        · rw [rangesBySafeHeads_last hlt hhead] at hover
          exact splitRangeBasic_fits hfits hover
      · rw [rangesBySafeHeads_of_ge hge] at hover
        cases hover

theorem splitRangeBasedOnSafeHeads_of_fetch {safeHeads : List Nat}
    (hfetch : fetchSafeHeads fetcher l2Start l2End = .ok safeHeads) :
    splitRangeBasedOnSafeHeads fetcher l2Start l2End maxRangeSize =
      rangesBySafeHeads l2End maxRangeSize l2Start (sortedHeads safeHeads) := by
  rw [splitRangeBasedOnSafeHeads, hfetch]
  rfl

/-! ## The split -/

/-- **The ranges split the blocks at the safe heads**: none is empty or longer than the
maximum, they touch end to end from the first block to the last, so they cover these blocks
and no others, and each safe head between these is an end of one. -/
structure SplitsAt (l2Start l2End maxRangeSize : Nat) (safeHeads : List Nat)
    (ranges : List SpanBatchRange) : Prop where
  nonempty : ∀ r ∈ ranges, r.start < r.stop
  contiguous : ranges.IsChain fun r r' => r.stop = r'.start
  first : ∃ r, ranges.head? = some r ∧ r.start = l2Start
  last : ∃ r, ranges.getLast? = some r ∧ r.stop = l2End
  covers : ∀ b, (∃ r ∈ ranges, r.start ≤ b ∧ b < r.stop) ↔ l2Start ≤ b ∧ b < l2End
  size : ∀ r ∈ ranges, r.stop ≤ r.start + maxRangeSize
  cut : ∀ head ∈ safeHeads, l2Start < head → head < l2End →
    ∃ r ∈ ranges, r.start = head ∨ r.stop = head

theorem Pieces.splitsAt (h : Pieces maxRangeSize l2Start l2End heads ranges) (hlt : l2Start < l2End)
    {safeHeads : List Nat} (hheads : ∀ head, head ∈ safeHeads → head ∈ heads) :
    SplitsAt l2Start l2End maxRangeSize safeHeads ranges where
  nonempty r hr := h.joined.lt_of_mem (List.mem_map_of_mem hr)
  contiguous := (List.isChain_map SpanBatchRange.span).mp h.joined.isChain
  first := by
    obtain ⟨p, hp, hstart⟩ := h.joined.head hlt
    rw [List.head?_map] at hp
    obtain ⟨r, hr, rfl⟩ := Option.map_eq_some_iff.mp hp
    exact ⟨r, hr, hstart⟩
  last := by
    obtain ⟨p, hp, hstop⟩ := h.joined.getLast hlt
    rw [List.getLast?_map] at hp
    obtain ⟨r, hr, rfl⟩ := Option.map_eq_some_iff.mp hp
    exact ⟨r, hr, hstop⟩
  covers b := by
    rw [← h.joined.exists_holds_iff]
    simp only [List.mem_map, exists_exists_and_eq_and]
    rfl
  size := h.size
  cut head hmem hafter hbefore := by
    obtain ⟨r, hr, hstop⟩ := h.cut head (hheads head hmem) hafter hbefore
    exact ⟨r, hr, .inr hstop⟩

/-- **Splitting by safe heads**, for any safe heads, in any order and below and above the
blocks to split, that reach the last of these. -/
theorem split_by_safe_heads {safeHeads : List Nat}
    (hfetch : fetchSafeHeads fetcher l2Start l2End = .ok safeHeads) (hlt : l2Start < l2End)
    (hmax : 1 ≤ maxRangeSize) (hreach : ∃ head ∈ safeHeads, l2End ≤ head)
    (hfits : splitRangeBasedOnSafeHeads fetcher l2Start l2End maxRangeSize ≠ .error .overflow) :
    ∃ ranges, splitRangeBasedOnSafeHeads fetcher l2Start l2End maxRangeSize = .ok ranges ∧
      SplitsAt l2Start l2End maxRangeSize safeHeads ranges ∧
      ((∀ head ∈ safeHeads, ¬ (l2Start < head ∧ head < l2End)) →
        splitRangeBasic l2Start l2End maxRangeSize = .ok ranges) := by
  rw [splitRangeBasedOnSafeHeads_of_fetch hfetch] at hfits ⊢
  have hreach' : ∃ head ∈ sortedHeads safeHeads, l2End ≤ head := by
    obtain ⟨head, hmem, hle⟩ := hreach
    exact ⟨head, mem_sortedHeads.mpr hmem, hle⟩
  obtain ⟨ranges, hranges, hpieces⟩ :=
    rangesBySafeHeads_spec hmax hlt (sortedHeads_pairwise safeHeads) hreach' hfits
  refine ⟨ranges, hranges, hpieces.splitsAt hlt fun head => mem_sortedHeads.mpr, fun hnone => ?_⟩
  rw [← hranges]
  exact (rangesBySafeHeads_eq_basic hlt hreach' fun head hmem =>
    hnone head (mem_sortedHeads.mp hmem)).symm

/-! Safe heads 27, 49 and 90, with the batches of the last one in the finalized L1 block. -/

def exampleNode : DataFetcher where
  l1Provider _ := .ok (some ⟨5, 5, 60⟩)
  l2Provider _ := .ok none
  l1OriginAtBlock n := .ok (if n = 0 then 1 else 5)
  safeHeadAtL1Block n := .ok ⟨(5, 5), if n < 3 then 27 else if n < 5 then 49 else 90⟩
  rollupConfigLoaded := true

theorem exampleNode_fetch : fetchSafeHeads exampleNode 0 90 = .ok [27, 27, 49, 49, 90] := by
  have hrun : (safeHeadSearch exampleNode 90).run 5 5 none = .ok (.crossed 5 (some (5, 5))) := by
    have hprobe : (safeHeadSearch exampleNode 90).probe (Bisection.middle 5 5) none =
        .ok (.lower (some (5, 5))) := rfl
    rw [Bisection.Search.run_of_lower (Nat.le_refl 5) rfl hprobe, if_neg (by decide),
      Bisection.Search.run_of_lt (by decide)]
  have hhead : getSafeL1BlockForL2Block exampleNode 90 = .ok (5, 5) := by
    show ((safeHeadSearch exampleNode 90).run 5 5 none >>= _) = _
    rw [hrun]
    rfl
  rw [fetchSafeHeads, hhead]
  rfl

theorem split_by_safe_heads_example :
    ∃ ranges, splitRangeBasedOnSafeHeads exampleNode 0 90 30 = .ok ranges ∧
      SplitsAt 0 90 30 [27, 27, 49, 49, 90] ranges ∧
      ((∀ head ∈ [27, 27, 49, 49, 90], ¬ (0 < head ∧ head < 90)) →
        splitRangeBasic 0 90 30 = .ok ranges) :=
  split_by_safe_heads exampleNode_fetch (by decide) (by decide) ⟨90, by decide, by decide⟩ (by
    rw [splitRangeBasedOnSafeHeads_of_fetch exampleNode_fetch]
    exact rangesBySafeHeads_fits (by decide))

end OpSuccinct.Fetcher
