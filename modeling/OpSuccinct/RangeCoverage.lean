import OpSuccinct.IntervalTilings
import OpSuccinct.ProposerRanges

/-! # The blocks `add_new_ranges` leaves without a request

Between the latest proposed and the finalized block the active requests leave gaps, the
maximal intervals of uncovered blocks, and each gap is cut into pieces of the proof
interval.  `get_ranges_to_prove` then drops the last piece of all if it is short.  That
is meant for the tip of the chain, but the last gap need not end there: below a request
that ends at the finalized block the dropped piece is a hole (`interior_gap_left_open`).
So no block is left without a request, up to a short piece at the tip, exactly when the
last gap ends at the finalized block or its length is a multiple of the interval, and no
sum overflows (`no_block_left_iff`).
-/
namespace OpSuccinct.Validity

open Intervals Transition

/-! ## Gaps -/

/-- The block lies between the ends, and in no range. -/
def Uncovered (overallStart overallEnd : Int) (ranges : List BlockRange) (b : Int) : Prop :=
  overallStart ≤ b ∧ b < overallEnd ∧ ∀ range ∈ ranges, ¬ Holds range b

variable {overallStart overallEnd currentStart : Int} {ranges : List BlockRange} {gap : BlockRange}

/-- An uncovered block before the end, or before the start of some range, is in a gap. -/
theorem exists_gap {b : Int} (hstart : currentStart ≤ b)
    (hend : b < overallEnd ∨ ∃ range ∈ ranges, b < range.1)
    (hfree : ∀ range ∈ ranges, ¬ Holds range b) :
    ∃ gap ∈ findGapsFrom currentStart overallEnd ranges, Holds gap b := by
  induction ranges generalizing currentStart with
  | nil =>
    have hend : b < overallEnd := by simpa using hend
    refine ⟨(currentStart, overallEnd), ?_, hstart, hend⟩
    rw [findGapsFrom, if_pos (by omega)]
    exact List.mem_singleton_self _
  | cons range ranges ih =>
    obtain ⟨start, stop⟩ := range
    by_cases hbefore : b < start
    · refine ⟨(currentStart, start), ?_, hstart, hbefore⟩
      rw [findGapsFrom, if_pos (by omega)]
      exact List.mem_append_left _ (List.mem_singleton_self _)
    · have hnot : ¬ Holds (start, stop) b := hfree _ List.mem_cons_self
      have hafter : stop ≤ b := by
        by_contra hlt
        exact hnot ⟨Int.not_lt.mp hbefore, Int.not_le.mp hlt⟩
      have hend : b < overallEnd ∨ ∃ range ∈ ranges, b < range.1 := by
        refine hend.imp_right ?_
        rintro ⟨range, hrange, hlt⟩
        rcases List.mem_cons.mp hrange with rfl | hrange
        · exact absurd hlt hbefore
        · exact ⟨range, hrange, hlt⟩
      obtain ⟨gap, hgap, hholds⟩ := ih (by omega : max stop currentStart ≤ b) hend
        fun r hr => hfree r (List.mem_cons_of_mem _ hr)
      exact ⟨gap, List.mem_append_right _ hgap, hholds⟩

/-- A gap starts where a range ends, or at the start, and ends where a range starts, or at
the end. -/
theorem gap_ends (h : gap ∈ findGapsFrom currentStart overallEnd ranges) :
    (gap.1 = currentStart ∨ ∃ range ∈ ranges, range.2 = gap.1) ∧
      (gap.2 = overallEnd ∨ ∃ range ∈ ranges, range.1 = gap.2) := by
  induction ranges generalizing currentStart with
  | nil =>
    unfold findGapsFrom at h
    split at h
    · rw [List.mem_singleton.mp h]
      exact ⟨.inl rfl, .inl rfl⟩
    · cases h
  | cons range ranges ih =>
    obtain ⟨start, stop⟩ := range
    rcases List.mem_append.mp h with h | h
    · split at h
      · rw [List.mem_singleton.mp h]
        exact ⟨.inl rfl, .inr ⟨_, List.mem_cons_self, rfl⟩⟩
      · cases h
    · obtain ⟨hfirst, hlast⟩ := ih h
      constructor
      · rcases hfirst with hfirst | ⟨r, hr, heq⟩
        · rcases Int.le_total stop currentStart with hle | hle
          · exact .inl (by omega)
          · exact .inr ⟨(start, stop), List.mem_cons_self, by show stop = gap.1; omega⟩
        · exact .inr ⟨r, List.mem_cons_of_mem _ hr, heq⟩
      · rcases hlast with hlast | ⟨r, hr, heq⟩
        · exact .inl hlast
        · exact .inr ⟨r, List.mem_cons_of_mem _ hr, heq⟩

/-- **The gaps are the maximal intervals of uncovered blocks**, if none of them goes past
the end. -/
theorem mem_findGaps_iff_of_le (hsorted : ranges.Pairwise fun x y => x.1 ≤ y.1)
    (hne : ∀ range ∈ ranges, range.1 < range.2)
    (hle : ∀ gap ∈ findGaps overallStart overallEnd ranges, gap.2 ≤ overallEnd) :
    gap ∈ findGaps overallStart overallEnd ranges ↔
      MaximalIn (Uncovered overallStart overallEnd ranges) gap := by
  have hmax {g : BlockRange} (hg : g ∈ findGaps overallStart overallEnd ranges) :
      MaximalIn (Uncovered overallStart overallEnd ranges) g := by
    obtain ⟨hfirst, hlast⟩ := gap_ends hg
    have hstart := le_of_mem_findGapsFrom hg
    refine ⟨lt_of_mem_findGapsFrom hg, fun b hb => ?_, fun hbefore => ?_, fun hafter => ?_⟩
    · refine ⟨Int.le_trans hstart hb.1, Int.lt_of_lt_of_le hb.2 (hle g hg), fun r hr => ?_⟩
      exact hb.not_of_apart (findGapsFrom_apart hsorted hg hr)
    · obtain ⟨hge, -, hfree⟩ := hbefore
      rcases hfirst with hfirst | ⟨r, hr, heq⟩
      · omega
      · have hlt := hne r hr
        exact hfree r hr ⟨by omega, by omega⟩
    · obtain ⟨-, hlt, hfree⟩ := hafter
      rcases hlast with hlast | ⟨r, hr, heq⟩
      · omega
      · have hlt := hne r hr
        exact hfree r hr ⟨by omega, by omega⟩
  constructor
  · exact hmax
  · intro h
    have hfirst : Holds gap gap.1 := ⟨Int.le_refl _, h.lt⟩
    obtain ⟨hge, hlt, hfree⟩ := h.inside _ hfirst
    obtain ⟨g, hg, hholds⟩ := exists_gap hge (.inl hlt) hfree
    rw [h.eq_of_holds (hmax hg) hfirst hholds]
    exact hg

/-- Ranges inside the overall range leave no gap past its end. -/
theorem mem_findGaps_iff (hsorted : ranges.Pairwise fun x y => x.1 ≤ y.1)
    (hinside : ∀ range ∈ ranges, range.1 < range.2 ∧ Within range (overallStart, overallEnd)) :
    gap ∈ findGaps overallStart overallEnd ranges ↔
      MaximalIn (Uncovered overallStart overallEnd ranges) gap := by
  refine mem_findGaps_iff_of_le hsorted (fun r hr => (hinside r hr).1) fun g hg => ?_
  obtain ⟨-, hlast⟩ := gap_ends hg
  rcases hlast with hlast | ⟨r, hr, heq⟩
  · exact Int.le_of_eq hlast
  · obtain ⟨hne, -, hstop⟩ := hinside r hr
    have hstop : r.2 ≤ overallEnd := hstop
    omega

/-! ## Pieces -/

/-- Where the last step through a gap would end, were it not cut off at the gap's end. -/
def lastStop (interval start stop : Int) : Int :=
  start + interval * ((stop - start - 1) / interval + 1)

variable {interval stop : Int} {fuel : Nat} {pieces : List BlockRange}

theorem chunksFrom_tiled (hlt : currentStart < stop)
    (h : chunksFrom interval stop fuel currentStart = some pieces) :
    Tiled interval currentStart stop pieces := by
  induction fuel generalizing currentStart pieces with
  | zero => simp [chunksFrom, hlt] at h
  | succ fuel ih =>
    obtain ⟨next, rest, hnext, hrest, rfl⟩ := (chunksFrom_succ_eq_some_iff hlt).mp h
    obtain rfl := (addI64_eq_some_iff.mp hnext).2
    by_cases hshort : stop ≤ currentStart + interval
    · rw [Int.min_eq_right hshort] at hrest ⊢
      rw [chunksFrom_eq_nil fuel (Int.lt_irrefl stop)] at hrest
      cases hrest
      exact .last hlt hshort
    · have hless : currentStart + interval < stop := Int.not_le.mp hshort
      rw [Int.min_eq_left (Int.le_of_lt hless)] at hrest ⊢
      exact .cons hless (ih hless hrest)

theorem lastStop_of_short (hlt : currentStart < stop) (hshort : stop ≤ currentStart + interval) :
    lastStop interval currentStart stop = currentStart + interval := by
  rw [lastStop, Int.ediv_eq_zero_of_lt (by omega) (by omega), Int.zero_add, Int.mul_one]

theorem lastStop_step (hinterval : 0 < interval) :
    lastStop interval (currentStart + interval) stop = lastStop interval currentStart stop := by
  have hlength : stop - currentStart - 1 = stop - (currentStart + interval) - 1 + interval := by
    omega
  rw [lastStop, lastStop, hlength, Int.add_ediv_of_dvd_right (Int.dvd_refl interval),
    Int.ediv_self (Int.ne_of_gt hinterval), Int.mul_add interval (_ + 1) 1, Int.mul_one]
  omega

theorem add_le_lastStop (hinterval : 0 < interval) (hlt : currentStart < stop) :
    currentStart + interval ≤ lastStop interval currentStart stop := by
  have hturns : 0 ≤ (stop - currentStart - 1) / interval :=
    Int.ediv_nonneg (by omega) (Int.le_of_lt hinterval)
  have hnonneg : 0 ≤ interval * ((stop - currentStart - 1) / interval) :=
    Int.mul_nonneg (Int.le_of_lt hinterval) hturns
  rw [lastStop, Int.mul_add, Int.mul_one]
  omega

/-- The steps through a gap return exactly when the last sum fits. -/
theorem chunksFrom_isSome_iff (hinterval : 0 < interval) (hstart : -2 ^ 63 ≤ currentStart)
    (hlt : currentStart < stop) (hfuel : (stop - currentStart).toNat ≤ fuel) :
    (∃ pieces, chunksFrom interval stop fuel currentStart = some pieces) ↔
      lastStop interval currentStart stop < 2 ^ 63 := by
  induction fuel generalizing currentStart with
  | zero => omega
  | succ fuel ih =>
    have hsum {next : Int} : addI64 currentStart interval = some next ↔
        currentStart + interval < 2 ^ 63 ∧ currentStart + interval = next := by
      rw [addI64_eq_some_iff]
      omega
    simp only [chunksFrom_succ_eq_some_iff hlt, hsum]
    by_cases hshort : stop ≤ currentStart + interval
    · rw [lastStop_of_short hlt hshort]
      constructor
      · rintro ⟨_, next, rest, ⟨hfits, -⟩, -, -⟩
        exact hfits
      · intro hfits
        refine ⟨_, _, [], ⟨hfits, rfl⟩, ?_, rfl⟩
        rw [Int.min_eq_right hshort]
        exact chunksFrom_eq_nil fuel (Int.lt_irrefl stop)
    · have hless : currentStart + interval < stop := Int.not_le.mp hshort
      have hrest := ih (by omega) hless (by omega)
      have hle := add_le_lastStop hinterval hless
      rw [← lastStop_step hinterval, ← hrest]
      constructor
      · rintro ⟨_, next, rest, ⟨-, rfl⟩, h, -⟩
        rw [Int.min_eq_left (Int.le_of_lt hless)] at h
        exact ⟨rest, h⟩
      · intro h
        have hfits : currentStart + interval < 2 ^ 63 := by
          have hlast := hrest.mp h
          omega
        obtain ⟨rest, h⟩ := h
        rw [← Int.min_eq_left (Int.le_of_lt hless)] at h
        exact ⟨_, _, rest, ⟨hfits, rfl⟩, h, rfl⟩

/-! ## What is dropped -/

variable {gaps : List BlockRange} {cuts : List (List BlockRange)}

theorem tiled_of_mapM (hgaps : ∀ g ∈ gaps, g.1 < g.2)
    (h : gaps.mapM (chunks interval) = some cuts) :
    List.Forall₂ (fun g cut => Tiled interval g.1 g.2 cut) gaps cuts := by
  refine List.forall₂_iff_zip.mpr ⟨(forall₂_of_mapM h).length_eq, fun hmem => ?_⟩
  have hcut := (List.forall₂_iff_zip.mp (forall₂_of_mapM h)).2 hmem
  exact chunksFrom_tiled (hgaps _ (List.of_mem_zip hmem).1) hcut

/-- The chunks of a range are there when its loop gets to the end and no sum overflows. -/
theorem chunks_isSome_iff (hstart : -2 ^ 63 ≤ gap.1) (hlt : gap.1 < gap.2) :
    (∃ cut, chunks interval gap = some cut) ↔
      0 < interval ∧ lastStop interval gap.1 gap.2 < 2 ^ 63 := by
  constructor
  · rintro ⟨cut, hcut⟩
    have hinterval : 0 < interval := by
      by_contra hinterval
      exact chunksFrom_ne_some _ (by omega) hlt hcut
    exact ⟨hinterval, (chunksFrom_isSome_iff hinterval hstart hlt (Nat.le_refl _)).mp ⟨cut, hcut⟩⟩
  · rintro ⟨hinterval, hfits⟩
    exact (chunksFrom_isSome_iff hinterval hstart hlt (Nat.le_refl _)).mpr hfits

/-- There is a result when all ranges have chunks. -/
theorem getRangesToProve_isSome_iff_chunks :
    (∃ ranges, getRangesToProve gaps interval = some ranges) ↔
      ∀ g ∈ gaps, ∃ cut, chunks interval g = some cut := by
  rw [← mapM_isSome_iff]
  constructor
  · rintro ⟨ranges, hranges⟩
    obtain ⟨cuts, hcuts, -⟩ := getRangesToProve_eq_some_iff.mp hranges
    exact ⟨cuts, hcuts⟩
  · rintro ⟨cuts, hcuts⟩
    exact ⟨_, getRangesToProve_eq_some_iff.mpr ⟨cuts, hcuts, rfl⟩⟩

theorem getRangesToProve_isSome_iff (hinterval : 0 < interval)
    (hgaps : ∀ g ∈ gaps, -2 ^ 63 ≤ g.1 ∧ g.1 < g.2) :
    (∃ ranges, getRangesToProve gaps interval = some ranges) ↔
      ∀ g ∈ gaps, lastStop interval g.1 g.2 < 2 ^ 63 := by
  rw [getRangesToProve_isSome_iff_chunks]
  refine forall₂_congr fun g hg => ?_
  rw [chunks_isSome_iff (hgaps g hg).1 (hgaps g hg).2]
  exact and_iff_right hinterval

/-- An interval that is not positive cuts no gap. -/
theorem getRangesToProve_isSome_iff_nil (hinterval : interval ≤ 0) (hgaps : ∀ g ∈ gaps, g.1 < g.2) :
    (∃ ranges, getRangesToProve gaps interval = some ranges) ↔ gaps = [] := by
  rw [getRangesToProve_isSome_iff_chunks, List.eq_nil_iff_forall_not_mem]
  refine forall₂_congr fun g hg => iff_of_false ?_ not_false
  rintro ⟨cut, hcut⟩
  exact chunksFrom_ne_some _ hinterval (hgaps g hg) hcut

/-- **What is left of the gaps.**  Every block of a gap lies in a range, up to the start
of the last piece of the last gap; that piece is dropped if it is short, and then no range
holds a block of it. -/
theorem getRangesToProve_last (hinterval : 0 < interval) (hgaps : ∀ g ∈ gaps, g.1 < g.2)
    (hdisjoint : gaps.Pairwise Apart) (h : getRangesToProve gaps interval = some ranges)
    {last : BlockRange} (hlast : gaps.getLast? = some last) :
    ∃ tip, last.1 ≤ tip ∧ tip < last.2 ∧ (last.2 - tip < interval ↔ ¬ interval ∣ last.2 - last.1) ∧
      (∀ g ∈ gaps, ∀ b, Holds g b → b < tip ∨ interval ∣ last.2 - last.1 →
        ∃ range ∈ ranges, Holds range b) ∧
      (¬ interval ∣ last.2 - last.1 → ∀ range ∈ ranges, ∀ b, Holds (tip, last.2) b →
        ¬ Holds range b) := by
  obtain ⟨cuts, hcuts, rfl⟩ := getRangesToProve_eq_some_iff.mp h
  have htiled := tiled_of_mapM hgaps hcuts
  obtain ⟨cut, hcut, hsame⟩ := getLast_flatten htiled hlast
  obtain ⟨p, hp, hstart, hlt, hend, hshort⟩ := hcut.getLast hinterval
  obtain ⟨init, hinit⟩ := List.getLast?_eq_some_iff.mp (hsame.trans hp)
  have hpieces := (pieces_spec hdisjoint hcuts).1
  have hranges : dropShortLast interval cuts.flatten =
      if interval ∣ last.2 - last.1 then init ++ [p] else init := by
    obtain ⟨pstart, pend⟩ := p
    obtain rfl : pend = last.2 := hend
    rw [dropShortLast, hsame, hp, hinit]
    show (if last.2 - pstart < interval then _ else _) = _
    rw [List.dropLast_concat]
    by_cases hdvd : interval ∣ last.2 - last.1
    · rw [if_pos hdvd, if_neg fun hless => hshort.mp hless hdvd]
    · rw [if_neg hdvd, if_pos (hshort.mpr hdvd)]
  rw [hinit] at hpieces
  refine ⟨p.1, hstart, hlt, hshort, fun g hg b hb hor => ?_, fun hndvd range hrange b hb => ?_⟩
  · obtain ⟨q, hq, hholds⟩ := exists_holds_flatten htiled hg hb
    rw [hinit] at hq
    rw [hranges]
    by_cases hdvd : interval ∣ last.2 - last.1
    · rw [if_pos hdvd]
      exact ⟨q, hq, hholds⟩
    · rw [if_neg hdvd]
      rcases List.mem_append.mp hq with hq | hq
      · exact ⟨q, hq, hholds⟩
      · -- The block lies below the last piece.
        obtain rfl := List.mem_singleton.mp hq
        exact absurd hholds.1 (Int.not_le.mpr (hor.resolve_right hdvd))
  · rw [hranges, if_neg hndvd] at hrange
    have hapart := (List.pairwise_append.mp hpieces).2.2 range hrange p (List.mem_singleton_self p)
    have hb : Holds p b := ⟨hb.1, by rw [hend]; exact hb.2⟩
    exact hb.not_of_apart hapart.symm

/-! ## Requests for the blocks -/

/-- The active range request `id`, among those from `start` on, covers the block. -/
def Serves (cfg : Config) (db : Db) (start b : Int) (id : Nat) : Prop :=
  ∃ range, ActiveRange cfg db id range ∧ start ≤ range.1 ∧ Holds range b

/-- The block lies between the ends, and no active request covers it. -/
def Free (cfg : Config) (db : Db) (start stop b : Int) : Prop :=
  start ≤ b ∧ b < stop ∧ ∀ id, ¬ Serves cfg db start b id

/-- Every block has exactly one request, except for those of a piece shorter than the
interval before the end, which have none. -/
def Filled (cfg : Config) (db : Db) (start stop interval : Int) : Prop :=
  ∃ tip, start ≤ tip ∧ tip ≤ stop ∧ stop - tip < interval ∧
    (∀ b, start ≤ b → b < tip → ∃! id, Serves cfg db start b id) ∧
    ∀ b, tip ≤ b → b < stop → ∀ id, ¬ Serves cfg db start b id

/-- **What the requests must leave** for the blocks between them to be filled: no sum
overflows, and the last gap reaches the end or is a multiple of the interval. -/
structure Fillable (cfg : Config) (db : Db) (start stop interval : Int) : Prop where
  fits : ∀ gap, MaximalIn (Free cfg db start stop) gap → lastStop interval gap.1 gap.2 < 2 ^ 63
  last : ∀ gap, MaximalIn (Free cfg db start stop) gap →
    (∀ gap', MaximalIn (Free cfg db start stop) gap' → gap'.1 ≤ gap.1) →
      gap.2 = stop ∨ interval ∣ gap.2 - gap.1

/-- The rest of `add_new_ranges` once the finalized block is known: the query for the
requests, and the insertion if there is anything to insert. -/
def AddsNewRanges (cfg : Config) (s : Sys) (requests : List BlockRange) (t : Sys) : Prop :=
  t.main = .idle ∧ (runAll (step cfg) s [.call (.ranges requests)] = some t ∨
    runAll (step cfg) s [.call (.ranges requests), .call .ok] = some t)

variable {cfg : Config} {s : Sys} {db : Db} {start b : Int} {mode : RequestMode}

def newRequests (cfg : Config) (mode : RequestMode) (ranges : List BlockRange) : List Request :=
  ranges.map fun range => newRangeRequest cfg.scope mode range.1 range.2

theorem Serves.unique (hapart : RangesApart cfg db start) {id id' : Nat}
    (h : Serves cfg db start b id) (h' : Serves cfg db start b id') : id = id' := by
  obtain ⟨range, hactive, hstart, hholds⟩ := h
  obtain ⟨range', hactive', hstart', hholds'⟩ := h'
  by_contra hne
  exact hholds.not_of_apart (hapart.apart _ _ _ _ hactive hactive' hne hstart hstart') hholds'

theorem Serves.insertAll {id : Nat} (rs : List Request) (h : Serves cfg db start b id) :
    Serves cfg (db.insertAll rs) start b id := by
  obtain ⟨range, ⟨r, hr, hrow⟩, hrange⟩ := h
  exact ⟨range, ⟨r, Db.rows_insertAll_of_some hr, hrow⟩, hrange⟩

/-- An inserted range has a request. -/
theorem exists_serves_inserted {range : BlockRange} (hrange : range ∈ ranges)
    (hstart : start ≤ range.1) (hb : Holds range b) :
    ∃ id, Serves cfg (db.insertAll (newRequests cfg mode ranges)) start b id := by
  obtain ⟨i, hi, rfl⟩ := List.getElem_of_mem hrange
  have hrow : (db.insertAll (newRequests cfg mode ranges)).rows (db.nextId + i) =
      some { newRangeRequest cfg.scope mode ranges[i].1 ranges[i].2 with id := db.nextId + i } := by
    rw [Db.rows_insertAll, if_neg (by omega), Nat.add_sub_cancel_left, newRequests,
      List.getElem?_map, List.getElem?_eq_getElem hi]
    rfl
  exact ⟨_, ranges[i], ⟨_, hrow, ⟨rfl, rfl, rfl, rfl⟩, rfl, rfl, rfl⟩, hstart, hb⟩

/-- A block with a request after the insertion had one before, or lies in an inserted
range. -/
theorem Serves.of_insertAll {id : Nat}
    (h : Serves cfg (db.insertAll (newRequests cfg mode ranges)) start b id) :
    (∃ id', Serves cfg db start b id') ∨ ∃ range ∈ ranges, Holds range b := by
  obtain ⟨range, hactive, hstart, hholds⟩ := h
  rcases activeRange_insertAll hactive with hold | ⟨r, hr, -, -, rfl⟩
  · exact .inl ⟨id, range, hold, hstart, hholds⟩
  · obtain ⟨range, hrange, rfl⟩ := List.mem_map.mp (List.mem_of_getElem? hr)
    exact .inr ⟨range, hrange, hholds⟩

/-- Blocks that all have one request are filled. -/
theorem filled_of_existsUnique (hle : start ≤ stop) (hinterval : 0 < interval)
    (h : ∀ b, start ≤ b → b < stop → ∃! id, Serves cfg db start b id) :
    Filled cfg db start stop interval :=
  ⟨stop, hle, Int.le_refl _, by omega, h, fun _ hb hb' => absurd hb' (Int.not_lt.mpr hb)⟩

/-- The blocks of a gap no inserted range holds are left without a request. -/
theorem not_serves_inserted {last : BlockRange} {tip : Int}
    (hmax : MaximalIn (Free cfg db start stop) last) (htip : last.1 ≤ tip)
    (hdropped : ∀ range ∈ ranges, ∀ b, Holds (tip, last.2) b → ¬ Holds range b)
    (hb : Holds (tip, last.2) b) (id : Nat) :
    ¬ Serves cfg (db.insertAll (newRequests cfg mode ranges)) start b id := by
  intro hserves
  have hfree := (hmax.inside b ⟨Int.le_trans htip hb.1, hb.2⟩).2.2
  rcases hserves.of_insertAll with ⟨id', hold⟩ | ⟨range, hrange, hholds⟩
  · exact hfree id' hold
  · exact hdropped range hrange b hb hholds

section Filled
variable {found : List BlockRange}

/-- The gaps of the sorted answer are the maximal intervals of free blocks. -/
theorem mem_gaps_iff (hperm : found.Perm (db.fetchRangesAfterBlock cfg.scope start))
    (hapart : RangesApart cfg db start)
    (hinside : ∀ id range, ActiveRange cfg db id range → start ≤ range.1 → range.2 ≤ stop) :
    gap ∈ findGaps start stop (found.insertionSort fun a b => a.1 ≤ b.1) ↔
      MaximalIn (Free cfg db start stop) gap := by
  have hfree : Uncovered start stop (found.insertionSort fun a b => a.1 ≤ b.1) =
      Free cfg db start stop := by
    funext b
    refine propext (and_congr_right fun _ => and_congr_right fun _ => ?_)
    constructor
    · rintro h id ⟨range, hactive, hstart, hholds⟩
      exact h range ((mem_sorted_iff hperm).mpr ⟨hstart, id, hactive⟩) hholds
    · intro h range hrange hholds
      obtain ⟨hstart, id, hactive⟩ := (mem_sorted_iff hperm).mp hrange
      exact h id ⟨range, hactive, hstart, hholds⟩
  rw [← hfree]
  refine mem_findGaps_iff (pairwise_sorted found) fun range hrange => ?_
  obtain ⟨hstart, id, hactive⟩ := (mem_sorted_iff hperm).mp hrange
  exact ⟨hapart.nonempty id range hactive hstart, hstart, hinside id range hactive hstart⟩

/-- The last gap is the one that starts last. -/
theorem getLast_gaps_iff (hperm : found.Perm (db.fetchRangesAfterBlock cfg.scope start))
    (hapart : RangesApart cfg db start)
    (hinside : ∀ id range, ActiveRange cfg db id range → start ≤ range.1 → range.2 ≤ stop) :
    (findGaps start stop (found.insertionSort fun a b => a.1 ≤ b.1)).getLast? = some gap ↔
      MaximalIn (Free cfg db start stop) gap ∧
        ∀ gap', MaximalIn (Free cfg db start stop) gap' → gap'.1 ≤ gap.1 := by
  have hmem {g : BlockRange} : g ∈ findGaps start stop (found.insertionSort fun a b => a.1 ≤ b.1) ↔
      MaximalIn (Free cfg db start stop) g := mem_gaps_iff hperm hapart hinside
  have hordered := gaps_ordered stop hapart hperm
  constructor
  · intro hlast
    obtain ⟨init, hinit⟩ := List.getLast?_eq_some_iff.mp hlast
    refine ⟨hmem.mp (List.mem_of_getLast? hlast), fun gap' hgap' => ?_⟩
    have hgap' := hmem.mpr hgap'
    rw [hinit] at hordered hgap'
    rcases List.mem_append.mp hgap' with hgap' | hgap'
    · have hle :=
        (List.pairwise_append.mp hordered).2.2 gap' hgap' gap (List.mem_singleton_self gap)
      have hne := lt_of_mem_findGapsFrom (hinit ▸ List.mem_append_left [gap] hgap')
      omega
    · rw [List.mem_singleton.mp hgap']
  · rintro ⟨hgap, hmax⟩
    have hlast := List.getLast?_eq_some_getLast (List.ne_nil_of_mem (hmem.mpr hgap))
    generalize List.getLast _ _ = last at hlast
    obtain ⟨init, hinit⟩ := List.getLast?_eq_some_iff.mp hlast
    have hle := hmax last (hmem.mp (List.mem_of_getLast? hlast))
    have hgap := hmem.mpr hgap
    rw [hinit] at hordered hgap
    rcases List.mem_append.mp hgap with hgap | hgap
    · -- An earlier gap ends before the last one starts.
      have hend :=
        (List.pairwise_append.mp hordered).2.2 gap hgap last (List.mem_singleton_self last)
      have hne := lt_of_mem_findGapsFrom (hinit ▸ List.mem_append_left [last] hgap)
      omega
    · rw [hlast, List.mem_singleton.mp hgap]

variable (mode) in
/-- A block has one request after the insertion if it had one before, or every gap it lies
in has an inserted range for it. -/
theorem existsUnique_serves (hperm : found.Perm (db.fetchRangesAfterBlock cfg.scope start))
    (hapart : RangesApart cfg db start)
    (h : getRangesToProve (findGaps start stop (found.insertionSort fun a b => a.1 ≤ b.1))
      interval = some ranges) (hb : start ≤ b) (hb' : b < stop)
    (hgap : ∀ g ∈ findGaps start stop (found.insertionSort fun a b => a.1 ≤ b.1), Holds g b →
      ∃ range ∈ ranges, Holds range b) :
    ∃! id, Serves cfg (db.insertAll (newRequests cfg mode ranges)) start b id := by
  have hafter : RangesApart cfg (db.insertAll (newRequests cfg mode ranges)) start :=
    hapart.of_back (Int.le_refl start) (fits_gaps mode hapart hperm h) fun _ _ =>
      activeRange_insertAll
  have hdisjoint := pairwise_apart_of_ordered (gaps_ordered stop hapart hperm)
  suffices hsome : ∃ id, Serves cfg (db.insertAll (newRequests cfg mode ranges)) start b id by
    obtain ⟨id, hid⟩ := hsome
    exact ⟨id, hid, fun _ hid' => hid'.unique hafter hid⟩
  by_cases hserved : ∃ id, Serves cfg db start b id
  · obtain ⟨id, hid⟩ := hserved
    exact ⟨id, hid.insertAll _⟩
  · have hfree : ∀ range ∈ found.insertionSort (fun a b => a.1 ≤ b.1), ¬ Holds range b := by
      intro range hrange hholds
      obtain ⟨hfrom, id, hactive⟩ := (mem_sorted_iff hperm).mp hrange
      exact hserved ⟨id, range, hactive, hfrom, hholds⟩
    obtain ⟨g, hg, hholds⟩ := exists_gap hb (.inl hb') hfree
    obtain ⟨range, hrange, hholds⟩ := hgap g hg hholds
    obtain ⟨-, outer, houter, hwithin⟩ := (getRangesToProve_spec hdisjoint h).2 range hrange
    exact exists_serves_inserted hrange
      (Int.le_trans (le_of_mem_findGapsFrom houter) hwithin.1) hholds

variable (mode) in
/-- **The blocks after the insertion** are filled exactly when the last gap reaches the
end, or is a multiple of the interval. -/
theorem filled_iff (hperm : found.Perm (db.fetchRangesAfterBlock cfg.scope start))
    (hapart : RangesApart cfg db start)
    (hinside : ∀ id range, ActiveRange cfg db id range → start ≤ range.1 → range.2 ≤ stop)
    (hle : start ≤ stop) (hinterval : 0 < interval)
    (h : getRangesToProve (findGaps start stop (found.insertionSort fun a b => a.1 ≤ b.1))
      interval = some ranges) :
    Filled cfg (db.insertAll (newRequests cfg mode ranges)) start stop interval ↔
      ∀ gap, MaximalIn (Free cfg db start stop) gap →
        (∀ gap', MaximalIn (Free cfg db start stop) gap' → gap'.1 ≤ gap.1) →
          gap.2 = stop ∨ interval ∣ gap.2 - gap.1 := by
  have honce {b : Int} (hb : start ≤ b) (hb' : b < stop) :=
    existsUnique_serves mode hperm hapart h hb hb'
  have hdisjoint := pairwise_apart_of_ordered (gaps_ordered stop hapart hperm)
  cases hlast : (findGaps start stop (found.insertionSort fun a b => a.1 ≤ b.1)).getLast? with
  | none =>
    have hnil := List.getLast?_eq_none_iff.mp hlast
    have hnone : ∀ gap, ¬ MaximalIn (Free cfg db start stop) gap := by
      intro gap hgap
      have hmem := (mem_gaps_iff hperm hapart hinside).mpr hgap
      rw [hnil] at hmem
      cases hmem
    refine ⟨fun _ gap hgap => absurd hgap (hnone gap), fun _ => ?_⟩
    refine filled_of_existsUnique hle hinterval fun b hb hb' => honce hb hb' ?_
    rw [hnil]
    intro g hg
    cases hg
  | some last =>
    obtain ⟨tip, htip, htip', hshort, hcovered, hdropped⟩ :=
      getRangesToProve_last hinterval (fun g hg => lt_of_mem_findGapsFrom hg) hdisjoint h hlast
    obtain ⟨hmax, hgreatest⟩ := (getLast_gaps_iff hperm hapart hinside).mp hlast
    have hstart : start ≤ last.1 := (hmax.inside _ ⟨Int.le_refl _, hmax.lt⟩).1
    have hunserved (hndvd : ¬ interval ∣ last.2 - last.1) {b : Int} (hb : Holds (tip, last.2) b) :
        ∀ id, ¬ Serves cfg (db.insertAll (newRequests cfg mode ranges)) start b id :=
      not_serves_inserted hmax htip (hdropped hndvd) hb
    have hend : last.2 ≤ stop := by
      have hlt := (hmax.inside (last.2 - 1) ⟨by have := hmax.lt; omega, by omega⟩).2.1
      omega
    constructor
    · rintro ⟨split, -, hsplit, hpiece, hserved, hfree⟩ gap hgap hgap'
      obtain rfl := Option.some.inj
        (hlast.symm.trans ((getLast_gaps_iff hperm hapart hinside).mpr ⟨hgap, hgap'⟩))
      by_contra hnot
      obtain ⟨hne, hndvd⟩ := not_or.mp hnot
      -- The dropped piece has no request, so it lies in the piece before the end, and the
      -- request after the gap lies there too.
      have htail : split ≤ tip := by
        by_contra hlt
        obtain ⟨id, hid, -⟩ := hserved tip (by omega) (by omega)
        exact hunserved hndvd ⟨Int.le_refl _, htip'⟩ id hid
      have hnext : ∃ id, Serves cfg db start last.2 id := by
        by_contra hnone
        exact hmax.after ⟨by omega, by omega, fun id hid => hnone ⟨id, hid⟩⟩
      obtain ⟨id, hid⟩ := hnext
      exact hfree last.2 (by omega) (by omega) id (hid.insertAll _)
    · intro hcond
      by_cases hdvd : interval ∣ last.2 - last.1
      · refine filled_of_existsUnique hle hinterval fun b hb hb' => ?_
        exact honce hb hb' fun g hg hholds => hcovered g hg b hholds (.inr hdvd)
      · have htop : last.2 = stop := (hcond last hmax hgreatest).resolve_right hdvd
        refine ⟨tip, by omega, by omega, htop ▸ hshort.mpr hdvd, fun b hb hb' => ?_,
          fun b hb hb' => hunserved hdvd ⟨hb, htop ▸ hb'⟩⟩
        exact honce hb (by omega) fun g hg hholds => hcovered g hg b hholds (.inl hb')

end Filled

/-! ## The function -/

/-- `add_new_ranges` ends with the ranges to prove inserted, if they are computed. -/
theorem exists_addsNewRanges_iff {latestProposed finalizedBlock : Nat}
    {requests : List BlockRange} {P : Db → Prop}
    (hmain : s.main = .add (.fetch latestProposed finalizedBlock))
    (hperm : requests.Perm (s.db.fetchRangesAfterBlock cfg.scope latestProposed)) :
    (∃ t, AddsNewRanges cfg s requests t ∧ P t.db) ↔
      ∃ ranges, getRangesToProve (findGaps latestProposed finalizedBlock
          (requests.insertionSort fun a b => a.1 ≤ b.1)) (asI64 cfg.rangeProofInterval) =
        some ranges ∧
        P (s.db.insertAll (newRequests cfg cfg.mode ranges)) := by
  simp only [AddsNewRanges, runAll]
  cases hranges : getRangesToProve (findGaps latestProposed finalizedBlock
      (requests.insertionSort fun a b => a.1 ≤ b.1)) (asI64 cfg.rangeProofInterval) with
  | none =>
    have hstep : step cfg s (.call (.ranges requests)) = none := by
      simp only [step, mainStep, hmain, addStep, if_pos hperm, hranges]
    simp [hstep]
  | some ranges =>
    cases ranges with
    | nil =>
      have hstep : step cfg s (.call (.ranges requests)) = some (s.goto .idle) := by
        simp only [step, mainStep, hmain, addStep, if_pos hperm, hranges]
      rw [hstep]
      constructor
      · rintro ⟨t, ⟨-, h | h⟩, hP⟩
        · cases h
          exact ⟨[], rfl, hP⟩
        · cases h
      · rintro ⟨_, h, hP⟩
        cases h
        exact ⟨s.goto .idle, ⟨rfl, .inl rfl⟩, hP⟩
    | cons range rest =>
      have hstep : step cfg s (.call (.ranges requests)) =
          some (s.goto (.add (.insert latestProposed (range :: rest)))) := by
        simp only [step, mainStep, hmain, addStep, if_pos hperm, hranges]
      rw [hstep]
      constructor
      · rintro ⟨t, ⟨hidle, h | h⟩, hP⟩
        · cases h
          cases hidle
        · cases h
          exact ⟨_, rfl, hP⟩
      · rintro ⟨_, h, hP⟩
        cases h
        exact ⟨_, ⟨rfl, .inr rfl⟩, hP⟩

/-- **No block is left without a request.**  For every latest proposed and finalized
block, every interval and every set of disjoint active requests between them:
`add_new_ranges` leaves each block with exactly one request, but for a short piece at the
tip, if and only if the last gap reaches the finalized block or is a multiple of the
interval, and no sum overflows. -/
theorem no_block_left_iff {latestProposed finalizedBlock : Nat} {requests : List BlockRange}
    (hmain : s.main = .add (.fetch latestProposed finalizedBlock))
    (hperm : requests.Perm (s.db.fetchRangesAfterBlock cfg.scope latestProposed))
    (hle : latestProposed ≤ finalizedBlock)
    (hinterval : 1 ≤ cfg.rangeProofInterval ∧ cfg.rangeProofInterval < 2 ^ 64)
    (hapart : RangesApart cfg s.db latestProposed)
    (hinside : ∀ id range, ActiveRange cfg s.db id range → latestProposed ≤ range.1 →
      range.2 ≤ finalizedBlock) :
    (∃ t, AddsNewRanges cfg s requests t ∧
        Filled cfg t.db latestProposed finalizedBlock cfg.rangeProofInterval) ↔
      Fillable cfg s.db latestProposed finalizedBlock cfg.rangeProofInterval := by
  have hle : (latestProposed : Int) ≤ finalizedBlock := Int.ofNat_le.mpr hle
  have hmem {g : BlockRange} : g ∈ findGaps latestProposed finalizedBlock
      (requests.insertionSort fun a b => a.1 ≤ b.1) ↔
        MaximalIn (Free cfg s.db latestProposed finalizedBlock) g :=
    mem_gaps_iff hperm hapart hinside
  have hgaps : ∀ g ∈ findGaps latestProposed finalizedBlock
      (requests.insertionSort fun a b => a.1 ≤ b.1), 0 ≤ g.1 ∧ g.1 < g.2 := by
    intro g hg
    have hstart := le_of_mem_findGapsFrom hg
    exact ⟨by omega, lt_of_mem_findGapsFrom hg⟩
  have hpos : (0 : Int) < cfg.rangeProofInterval := by omega
  refine (exists_addsNewRanges_iff (P := fun db => Filled cfg db latestProposed finalizedBlock
    cfg.rangeProofInterval) hmain hperm).trans ?_
  by_cases hfits : cfg.rangeProofInterval < 2 ^ 63
  · have hcast : asI64 cfg.rangeProofInterval = cfg.rangeProofInterval := if_pos hfits
    rw [hcast]
    have hsome := getRangesToProve_isSome_iff hpos fun g hg =>
      ⟨Int.le_trans (by decide) (hgaps g hg).1, (hgaps g hg).2⟩
    constructor
    · rintro ⟨ranges, hranges, hfilled⟩
      exact ⟨fun gap hgap => hsome.mp ⟨ranges, hranges⟩ gap (hmem.mpr hgap),
        (filled_iff cfg.mode hperm hapart hinside hle hpos hranges).mp hfilled⟩
    · intro h
      obtain ⟨ranges, hranges⟩ := hsome.mpr fun gap hgap => h.fits gap (hmem.mp hgap)
      exact ⟨ranges, hranges,
        (filled_iff cfg.mode hperm hapart hinside hle hpos hranges).mpr h.last⟩
  · -- The interval is cast to a negative number, with which no gap is ever cut.
    have hcast : asI64 cfg.rangeProofInterval ≤ 0 := by
      rw [asI64, if_neg hfits]
      omega
    have hsome := getRangesToProve_isSome_iff_nil hcast fun g hg => (hgaps g hg).2
    constructor
    · rintro ⟨ranges, hranges, -⟩
      have hnone : ∀ gap, ¬ MaximalIn (Free cfg s.db latestProposed finalizedBlock) gap := by
        intro gap hgap
        have hgap := hmem.mpr hgap
        rw [hsome.mp ⟨ranges, hranges⟩] at hgap
        cases hgap
      exact ⟨fun gap hgap => absurd hgap (hnone gap), fun gap hgap => absurd hgap (hnone gap)⟩
    · intro h
      have hnil : findGaps latestProposed finalizedBlock
          (requests.insertionSort fun a b => a.1 ≤ b.1) = [] := by
        refine List.eq_nil_iff_forall_not_mem.mpr fun gap hgap => ?_
        have hbelow := h.fits gap (hmem.mp hgap)
        obtain ⟨hstart, hlt⟩ := hgaps gap hgap
        have hstep := add_le_lastStop hpos hlt
        omega
      have hranges (interval : Int) : getRangesToProve (findGaps latestProposed finalizedBlock
          (requests.insertionSort fun a b => a.1 ≤ b.1)) interval = some [] := by
        rw [hnil]
        rfl
      exact ⟨[], hranges _,
        (filled_iff cfg.mode hperm hapart hinside hle hpos (hranges _)).mpr h.last⟩

/-! ### A hole below the tip

The only active request is for the blocks 60 to 100, and the proof interval is 100.  If
block 200 is finalized, both gaps are filled; if block 100 is, the gap below the request
is left open. -/

def exampleRanges : Db := Db.empty.insertAll [newRangeRequest exampleConfig.scope .real 60 100]

/-- `add_new_ranges` has read the two block numbers. -/
def exampleFetch (finalizedBlock : Nat) : Sys :=
  { Sys.start exampleRanges 0 with main := .add (.fetch 0 finalizedBlock) }

theorem exampleRanges_active {id : Nat} {range : BlockRange}
    (h : ActiveRange exampleConfig exampleRanges id range) : id = 1 ∧ range = (60, 100) := by
  rcases activeRange_insertAll h with ⟨r, hr, -⟩ | ⟨r, hr, hid, -, rfl⟩
  · cases hr
  · obtain ⟨hlt, rfl⟩ := List.getElem?_eq_some_iff.mp hr
    have hnext : Db.empty.nextId = 1 := rfl
    have hlength : id - Db.empty.nextId < 1 := hlt
    obtain rfl : id = 1 := by omega
    exact ⟨rfl, rfl⟩

theorem exampleRanges_apart : RangesApart exampleConfig exampleRanges 0 where
  nonempty := by
    intro id range hactive _
    rw [(exampleRanges_active hactive).2]
    decide
  apart := by
    intro id id' range range' hactive hactive' hne _ _
    exact absurd ((exampleRanges_active hactive).1.trans (exampleRanges_active hactive').1.symm) hne

theorem exampleRanges_inside {finalizedBlock : Nat} (hfinalized : 100 ≤ finalizedBlock) (id : Nat)
    (range : BlockRange) (hactive : ActiveRange exampleConfig exampleRanges id range)
    (_ : (0 : Nat) ≤ range.1) : range.2 ≤ finalizedBlock := by
  rw [(exampleRanges_active hactive).2]
  exact Int.ofNat_le.mpr hfinalized

theorem exampleRanges_fetched :
    [(60, 100)].Perm (exampleRanges.fetchRangesAfterBlock exampleConfig.scope (0 : Nat)) := by
  decide +kernel

theorem exampleRanges_gap {finalizedBlock : Nat} (hfinalized : 100 ≤ finalizedBlock)
    {gap : BlockRange} :
    gap ∈ findGaps (0 : Nat) finalizedBlock [(60, 100)] ↔
      MaximalIn (Free exampleConfig exampleRanges (0 : Nat) finalizedBlock) gap :=
  mem_gaps_iff exampleRanges_fetched exampleRanges_apart (exampleRanges_inside hfinalized)

theorem no_block_left_iff_example :
    ∃ t, AddsNewRanges exampleConfig (exampleFetch 200) [(60, 100)] t ∧
      Filled exampleConfig t.db (0 : Nat) (200 : Nat) (100 : Nat) := by
  have hgaps : ∀ gap ∈ findGaps (0 : Nat) (200 : Nat) [(60, 100)],
      lastStop (100 : Nat) gap.1 gap.2 < 2 ^ 63 ∧
        (gap.1 ≤ 60 → gap.2 = 60) ∧ (gap.2 ≠ 60 → gap.2 = (200 : Nat)) := by decide
  have htop : (100, 200) ∈ findGaps (0 : Nat) (200 : Nat) [(60, 100)] := by decide
  refine (no_block_left_iff (s := exampleFetch 200) rfl exampleRanges_fetched (by decide)
    (by decide) exampleRanges_apart (exampleRanges_inside (by decide))).mpr ⟨fun gap hgap => ?_, ?_⟩
  · exact (hgaps gap ((exampleRanges_gap (by decide)).mpr hgap)).1
  · intro gap hgap hlast
    have hlate := hlast _ ((exampleRanges_gap (by decide)).mp htop)
    obtain ⟨-, -, hend⟩ := hgaps gap ((exampleRanges_gap (by decide)).mpr hgap)
    have hlt := hgap.lt
    exact .inl (hend (by omega))

/-- **The failing input.**  The blocks 0 to 60 are left without a request. -/
theorem interior_gap_left_open :
    RangesApart exampleConfig exampleRanges 0 ∧
      (∀ id range, ActiveRange exampleConfig exampleRanges id range → range.2 ≤ 100) ∧
      ¬ ∃ t, AddsNewRanges exampleConfig (exampleFetch 100) [(60, 100)] t ∧
        Filled exampleConfig t.db (0 : Nat) (100 : Nat) (100 : Nat) := by
  refine ⟨exampleRanges_apart, fun id range hactive => ?_, fun hfilled => ?_⟩
  · rw [(exampleRanges_active hactive).2]
  · obtain ⟨ranges, hranges, tip, -, -, hshort, hserved, -⟩ :=
      (exists_addsNewRanges_iff (s := exampleFetch 100) (P := fun db => Filled exampleConfig db
        (0 : Nat) (100 : Nat) (100 : Nat)) rfl exampleRanges_fetched).mp hfilled
    have hnone : getRangesToProve (findGaps (0 : Nat) (100 : Nat) [(60, 100)]) 100 = some [] := by
      decide
    cases hnone.symm.trans hranges
    obtain ⟨id, ⟨range, hactive, -, hholds⟩, -⟩ := hserved 0 (by decide) (by omega)
    have hactive : ActiveRange exampleConfig exampleRanges id range := hactive
    rw [(exampleRanges_active hactive).2] at hholds
    exact absurd hholds.1 (by decide)

end OpSuccinct.Validity
