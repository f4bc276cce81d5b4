import OpSuccinct.CheckedArith
import OpSuccinct.LoopRuns
import OpSuccinct.RangeCoverage

/-! # Chunking

`get_ranges_to_prove` divides ranges into chunks of the proof interval.  With a positive
interval, and no sum that overflows, the chunks are what its documentation says: they lie
in order, each inside one range and of the full length unless it ends where the range
ends, and they hold every block but for the last piece of the last range, which is dropped
if it is short (`ranges_chunked`).

The interval is a setting, read as a `u64`, checked nowhere and cast to `i64`.  So the
loops are also taken turn by turn (`chunkTurn`): they end without overflow, moving the
start in each turn, exactly for an interval that is positive after the cast and whose last
sum in each range fits (`chunking_terminates_iff`).  An `i64` that overflows ends them, as in a
build with overflow checks; in a release build it wraps.
-/
namespace OpSuccinct.Validity

open Intervals Transition

variable {interval stop : Int} {ranges : List BlockRange}

/-! ## Chunks -/

/-- **The chunks of some ranges.** -/
structure Chunked (interval : Int) (ranges chunks : List BlockRange) : Prop where
  ordered : chunks.Pairwise fun x y => x.2 ≤ y.1
  nonempty : ∀ c ∈ chunks, c.1 < c.2
  /-- Only the last piece of a range may be shorter than the interval. -/
  inside : ∀ c ∈ chunks, ∃ r ∈ ranges, Within c r ∧
    (c.2 - c.1 = interval ∨ c.2 - c.1 < interval ∧ c.2 = r.2)
  /-- Only the last piece of the last range may be missing. -/
  union : ∀ b, (∃ c ∈ chunks, Holds c b) ↔ (∃ r ∈ ranges, Holds r b) ∧
    ∀ last, ranges.getLast? = some last → lastPiece interval last ∉ chunks →
      ¬ Holds (lastPiece interval last) b
  missing : ∀ last, ranges.getLast? = some last →
    (lastPiece interval last ∉ chunks ↔
      (lastPiece interval last).2 - (lastPiece interval last).1 < interval)

/-- Ranges in order, cut into pieces that are in order, give pieces in order. -/
theorem ordered_flatten {cuts : List (List BlockRange)}
    (hranges : ranges.Pairwise fun x y => x.2 ≤ y.1)
    (hcuts : List.Forall₂ (fun r cut => (cut.Pairwise fun x y => x.2 ≤ y.1) ∧
      ∀ p ∈ cut, Within p r) ranges cuts) :
    cuts.flatten.Pairwise fun x y => x.2 ≤ y.1 := by
  induction hcuts with
  | nil => exact .nil
  | @cons r cut ranges cuts hcut hrest ih =>
    obtain ⟨hfirst, hranges⟩ := List.pairwise_cons.mp hranges
    rw [List.flatten_cons, List.pairwise_append]
    refine ⟨hcut.1, ih hranges, fun p hp q hq => ?_⟩
    obtain ⟨later, hlater, hq⟩ := List.mem_flatten.mp hq
    obtain ⟨outer, houter, -, hwithin⟩ := exists_of_forall₂ hrest hlater
    have hp : p.2 ≤ r.2 := (hcut.2 p hp).2
    have hq : outer.1 ≤ q.1 := (hwithin q hq).1
    have hbetween := hfirst outer houter
    omega

/-- The pieces of some ranges, before the last one is dropped. -/
theorem tiled_flatten {cuts : List (List BlockRange)} (hinterval : 0 < interval)
    (hranges : ranges.Pairwise fun x y => x.2 ≤ y.1)
    (htiled : List.Forall₂ (fun r cut => Tiled interval r.1 r.2 cut) ranges cuts) :
    (cuts.flatten.Pairwise fun x y => x.2 ≤ y.1) ∧
      (∀ c ∈ cuts.flatten, c.1 < c.2 ∧ ∃ r ∈ ranges, Within c r ∧
        (c.2 - c.1 = interval ∨ c.2 - c.1 < interval ∧ c.2 = r.2)) ∧
      ∀ b, (∃ c ∈ cuts.flatten, Holds c b) ↔ ∃ r ∈ ranges, Holds r b := by
  have hinside : ∀ c ∈ cuts.flatten, c.1 < c.2 ∧ ∃ r ∈ ranges, Within c r ∧
      (c.2 - c.1 = interval ∨ c.2 - c.1 < interval ∧ c.2 = r.2) := by
    intro c hc
    obtain ⟨cut, hcut, hc⟩ := List.mem_flatten.mp hc
    obtain ⟨r, hr, hcut⟩ := exists_of_forall₂ htiled hcut
    obtain ⟨hlt, hwithin, hlength⟩ := hcut.mem hinterval hc
    exact ⟨hlt, r, hr, hwithin, hlength⟩
  refine ⟨ordered_flatten hranges (htiled.imp fun r cut hcut =>
    ⟨hcut.ordered hinterval, fun p hp => (hcut.mem hinterval hp).2.1⟩), hinside, fun b => ?_⟩
  constructor
  · rintro ⟨c, hc, hholds⟩
    obtain ⟨-, r, hr, hwithin, -⟩ := hinside c hc
    exact ⟨r, hr, Int.le_trans hwithin.1 hholds.1, Int.lt_of_lt_of_le hholds.2 hwithin.2⟩
  · rintro ⟨r, hr, hholds⟩
    exact exists_holds_flatten htiled hr hholds

/-- **The last of all pieces** is missing exactly if it is short, and with it the blocks it
holds. -/
theorem dropShortLast_spec (interval : Int) {init : List BlockRange} {p : BlockRange}
    (hne : p.1 < p.2) (hordered : (init ++ [p]).Pairwise fun x y => x.2 ≤ y.1) :
    (p ∉ dropShortLast interval (init ++ [p]) ↔ p.2 - p.1 < interval) ∧
      ∀ b, (∃ c ∈ dropShortLast interval (init ++ [p]), Holds c b) ↔
        (∃ c ∈ init ++ [p], Holds c b) ∧
          (p ∉ dropShortLast interval (init ++ [p]) → ¬ Holds p b) := by
  have hbefore : ∀ c ∈ init, c.2 ≤ p.1 := fun c hc =>
    (List.pairwise_append.mp hordered).2.2 c hc p (List.mem_singleton_self p)
  have hdropped : dropShortLast interval (init ++ [p]) =
      if p.2 - p.1 < interval then init else init ++ [p] := by
    simp [dropShortLast]
  rw [hdropped]
  by_cases hshort : p.2 - p.1 < interval
  · rw [if_pos hshort]
    have hnot : p ∉ init := fun hp => absurd (hbefore p hp) (Int.not_le.mpr hne)
    refine ⟨iff_of_true hnot hshort, fun b => ⟨?_, ?_⟩⟩
    · rintro ⟨c, hc, hholds⟩
      exact ⟨⟨c, List.mem_append_left _ hc, hholds⟩,
        fun _ => hholds.not_of_apart (.inl (hbefore c hc))⟩
    · rintro ⟨⟨c, hc, hholds⟩, hfree⟩
      rcases List.mem_append.mp hc with hc | hc
      · exact ⟨c, hc, hholds⟩
      · obtain rfl := List.mem_singleton.mp hc
        exact absurd hholds (hfree hnot)
  · rw [if_neg hshort]
    have hmem : p ∈ init ++ [p] := List.mem_append_right _ (List.mem_singleton_self p)
    refine ⟨iff_of_false (not_not_intro hmem) hshort, fun b => ⟨fun h => ⟨h, ?_⟩, And.left⟩⟩
    exact fun hnot => absurd hmem hnot

/-- The last of all pieces is the last piece of the last range. -/
theorem flatten_eq_append {cuts : List (List BlockRange)} (hinterval : 0 < interval)
    (htiled : List.Forall₂ (fun r cut => Tiled interval r.1 r.2 cut) ranges cuts)
    {last : BlockRange} (hlast : ranges.getLast? = some last) :
    ∃ init, cuts.flatten = init ++ [lastPiece interval last] := by
  obtain ⟨cut, hcut, hsame⟩ := getLast_flatten htiled hlast
  exact List.getLast?_eq_some_iff.mp (hsame.trans (hcut.getLast_eq hinterval))

/-- A positive interval that overflows with no end of a range overflows nowhere. -/
theorem exists_getRangesToProve (hinterval : 0 < interval)
    (hranges : ∀ r ∈ ranges, -2 ^ 63 ≤ r.1 ∧ r.1 < r.2 ∧ r.2 + interval < 2 ^ 63) :
    ∃ chunks, getRangesToProve ranges interval = some chunks := by
  refine (getRangesToProve_isSome_iff hinterval fun r hr =>
    ⟨(hranges r hr).1, (hranges r hr).2.1⟩).mpr fun r hr => ?_
  -- The last sum starts below the end of the range.
  obtain ⟨-, hlt, hfits⟩ := hranges r hr
  have hturns := Int.mul_ediv_self_le (x := r.2 - r.1 - 1) (Int.ne_of_gt hinterval)
  rw [lastStop, Int.mul_add, Int.mul_one]
  omega

/-- **Chunking.**  For every list of disjoint non-empty ranges in increasing order and
every positive interval that overflows with no end of a range, there is a result, and it
is the ranges in chunks. -/
theorem ranges_chunked (hinterval : 1 ≤ interval)
    (hranges : ∀ r ∈ ranges, -2 ^ 63 ≤ r.1 ∧ r.1 < r.2 ∧ r.2 + interval < 2 ^ 63)
    (hordered : ranges.Pairwise fun x y => x.2 ≤ y.1) :
    ∃ chunks, getRangesToProve ranges interval = some chunks ∧ Chunked interval ranges chunks := by
  have hpos : 0 < interval := by omega
  obtain ⟨chunks, hchunks⟩ := exists_getRangesToProve hpos hranges
  refine ⟨chunks, hchunks, ?_⟩
  obtain ⟨cuts, hcuts, rfl⟩ := getRangesToProve_eq_some_iff.mp hchunks
  have htiled := tiled_of_mapM (fun r hr => (hranges r hr).2.1) hcuts
  obtain ⟨hsorted, hinside, hunion⟩ := tiled_flatten hpos hordered htiled
  have hsub := dropShortLast_sublist interval cuts.flatten
  have hlast {last : BlockRange} (hlast : ranges.getLast? = some last) :=
    flatten_eq_append hpos htiled hlast
  have hpiece {init : List BlockRange} {p : BlockRange} (hinit : cuts.flatten = init ++ [p]) :=
    have hp : p ∈ cuts.flatten := hinit ▸ List.mem_append_right _ (List.mem_singleton_self p)
    dropShortLast_spec interval (hinside p hp).1 (hinit ▸ hsorted)
  refine ⟨hsorted.sublist hsub, fun c hc => (hinside c (hsub.subset hc)).1,
    fun c hc => (hinside c (hsub.subset hc)).2, fun b => ?_, fun last h => ?_⟩
  · cases hend : ranges.getLast? with
    | none =>
      obtain rfl := List.getLast?_eq_none_iff.mp hend
      cases htiled
      simp [dropShortLast]
    | some last =>
      obtain ⟨init, hinit⟩ := hlast hend
      have hunion := hunion b
      rw [hinit] at hunion ⊢
      rw [(hpiece hinit).2 b, hunion]
      simp
  · obtain ⟨init, hinit⟩ := hlast h
    rw [hinit]
    exact (hpiece hinit).1

theorem ranges_chunked_example :
    ∃ chunks, getRangesToProve [(0, 50), (100, 200), (200, 210)] 25 = some chunks ∧
      Chunked 25 [(0, 50), (100, 200), (200, 210)] chunks :=
  ranges_chunked (by decide) (by decide) (by decide)

/-! ## The setting -/

/-- Why `str::parse` refuses an unsigned integer. -/
inductive IntErrorKind
  | empty
  | invalidDigit
  | posOverflow
  deriving DecidableEq, Repr

/-- The digits of a `u64`, after those that gave `n`. -/
def parseDigits (n : Nat) : List Char → Except IntErrorKind Nat
  | [] => .ok n
  | c :: cs =>
    if c.isDigit = true then
      if n * 10 + (c.toNat - 48) < 2 ^ 64 then parseDigits (n * 10 + (c.toNat - 48)) cs
      else .error .posOverflow
    else .error .invalidDigit

/-- `str::parse::<u64>`: decimal digits, which a plus sign may precede. -/
def parseU64 (value : String) : Except IntErrorKind Nat :=
  match value.toList with
  | [] => .error .empty
  | ['+'] => .error .invalidDigit
  | '+' :: digits => parseDigits 0 digits
  | digits => parseDigits 0 digits

/-- The errors of `get_env_var`: "Failed to parse {key}: {e:?}" and "{key} is not set". -/
inductive EnvError
  | failedToParse (key : String) (e : IntErrorKind)
  | notSet (key : String)
  deriving DecidableEq, Repr

/-- `get_env_var`, given the value of the variable, if it has one that is Unicode. -/
def getEnvVar {T : Type} (parse : String → Except IntErrorKind T) (key : String)
    (value : Option String) (default : Option T) : Except EnvError T :=
  match value with
  | some value => (parse value).mapError (.failedToParse key)
  | none =>
    match default with
    | some defaultVal => .ok defaultVal
    | none => .error (.notSet key)

/-- The `range_proof_interval` that `read_proposer_env` reads. -/
def readRangeProofInterval (value : Option String) : Except EnvError Nat :=
  getEnvVar parseU64 "RANGE_PROOF_INTERVAL" value (some 1800)

theorem parseDigits_lt {n m : Nat} {cs : List Char} (hn : n < 2 ^ 64)
    (h : parseDigits n cs = .ok m) : m < 2 ^ 64 := by
  induction cs generalizing n with
  | nil =>
    obtain rfl := Except.ok.inj h
    exact hn
  | cons c cs ih =>
    rw [parseDigits] at h
    split at h
    · split at h
      · exact ih ‹_› h
      · cases h
    · cases h

/-- Only a `u64` is accepted. -/
theorem readRangeProofInterval_lt {value : Option String} {n : Nat}
    (h : readRangeProofInterval value = .ok n) : n < 2 ^ 64 := by
  cases value with
  | none =>
    obtain rfl := Except.ok.inj h
    decide
  | some value =>
    have h : parseU64 value = .ok n := mapError_ok_iff.mp h
    unfold parseU64 at h
    split at h
    · cases h
    · cases h
    · exact parseDigits_lt (by decide) h
    · exact parseDigits_lt (by decide) h

/-! ## The loops, turn by turn -/

/-- How the loop over one range is left. -/
inductive LoopExit
  | returned
  | overflow

/-- One turn of the loop over a range that ends at `stop`, labelled with the piece it
pushes: the next turn starts where the piece ends. -/
def chunkTurn (rangeProofInterval stop currentStart : Int) : Turn Int BlockRange LoopExit :=
  if currentStart < stop then
    match addI64 currentStart rangeProofInterval with
    | some next => .next (currentStart, min next stop) (min next stop)
    | none => .done .overflow
  else .done .returned

/-- **The loop over a range ends** without overflow, and each of its turns moves the start
forward. -/
def LoopEnds (rangeProofInterval : Int) (range : BlockRange) : Prop :=
  ∃ pieces last, Run (Turns (chunkTurn rangeProofInterval range.2)) range.1 pieces last ∧
    chunkTurn rangeProofInterval range.2 last = .done .returned ∧
    ∀ piece ∈ pieces, piece.1 < piece.2

variable {currentStart : Int} {pieces : List BlockRange}

/-- The pieces of a loop that returns are the turns it takes. -/
theorem exists_chunksFrom_iff :
    (∃ fuel, chunksFrom interval stop fuel currentStart = some pieces) ↔
      ∃ last, Run (Turns (chunkTurn interval stop)) currentStart pieces last ∧
        chunkTurn interval stop last = .done .returned := by
  have hreturned {currentStart : Int} (hge : ¬ currentStart < stop) :
      chunkTurn interval stop currentStart = .done .returned := by rw [chunkTurn, if_neg hge]
  constructor
  · rintro ⟨fuel, h⟩
    induction fuel generalizing currentStart pieces with
    | zero =>
      by_cases hlt : currentStart < stop
      · simp [chunksFrom, hlt] at h
      · rw [chunksFrom_eq_nil 0 hlt] at h
        obtain rfl := Option.some.inj h
        exact ⟨currentStart, .nil, hreturned hlt⟩
    | succ fuel ih =>
      by_cases hlt : currentStart < stop
      · obtain ⟨next, rest, hnext, hrest, rfl⟩ := (chunksFrom_succ_eq_some_iff hlt).mp h
        obtain ⟨last, hrun, hdone⟩ := ih hrest
        have hturn : Turns (chunkTurn interval stop) currentStart (currentStart, min next stop)
            (min next stop) := by
          simp only [Turns, chunkTurn, if_pos hlt, hnext]
        exact ⟨last, .cons hturn hrun, hdone⟩
      · rw [chunksFrom_eq_nil _ hlt] at h
        obtain rfl := Option.some.inj h
        exact ⟨currentStart, .nil, hreturned hlt⟩
  · rintro ⟨last, hrun, hdone⟩
    induction pieces generalizing currentStart with
    | nil =>
      obtain ⟨-, rfl⟩ | ⟨_, _, _, heq, -⟩ := hrun.cases_head
      · by_cases hlt : currentStart < stop
        · simp only [chunkTurn, if_pos hlt] at hdone
          split at hdone <;> cases hdone
        · exact ⟨0, chunksFrom_eq_nil 0 hlt⟩
      · cases heq
    | cons piece pieces ih =>
      obtain ⟨heq, -⟩ | ⟨piece', rest, next, heq, hturn, hrest⟩ := hrun.cases_head
      · cases heq
      · cases heq
        obtain ⟨fuel, hfuel⟩ := ih hrest
        by_cases hlt : currentStart < stop
        · simp only [Turns, chunkTurn, if_pos hlt] at hturn
          split at hturn
          · cases hturn
            exact ⟨fuel + 1, (chunksFrom_succ_eq_some_iff hlt).mpr ⟨_, _, ‹_›, hfuel, rfl⟩⟩
          · cases hturn
        · simp only [Turns, chunkTurn, if_neg hlt] at hturn
          cases hturn

/-- More fuel changes nothing. -/
theorem chunksFrom_mono {fuel fuel' : Nat} (hle : fuel ≤ fuel')
    (h : chunksFrom interval stop fuel currentStart = some pieces) :
    chunksFrom interval stop fuel' currentStart = some pieces := by
  induction fuel generalizing fuel' currentStart pieces with
  | zero =>
    by_cases hlt : currentStart < stop
    · simp [chunksFrom, hlt] at h
    · rw [chunksFrom_eq_nil _ hlt] at h ⊢
      exact h
  | succ fuel ih =>
    obtain ⟨fuel', rfl⟩ := Nat.exists_eq_add_of_lt (Nat.lt_of_lt_of_le (Nat.succ_pos fuel) hle)
    by_cases hlt : currentStart < stop
    · rw [Nat.zero_add]
      obtain ⟨next, rest, hnext, hrest, rfl⟩ := (chunksFrom_succ_eq_some_iff hlt).mp h
      exact (chunksFrom_succ_eq_some_iff hlt).mpr
        ⟨next, rest, hnext, ih (by omega) hrest, rfl⟩
    · rw [chunksFrom_eq_nil _ hlt] at h ⊢
      exact h

/-- **The loop over a range ends** exactly when the range has chunks. -/
theorem loopEnds_iff_chunks {range : BlockRange} (hstart : -2 ^ 63 ≤ range.1)
    (hlt : range.1 < range.2) :
    LoopEnds interval range ↔ ∃ cut, chunks interval range = some cut := by
  constructor
  · rintro ⟨pieces, last, hrun, hdone, -⟩
    obtain ⟨fuel, hfuel⟩ := exists_chunksFrom_iff.mpr ⟨last, hrun, hdone⟩
    have hpos : 0 < interval := by
      by_contra hinterval
      exact chunksFrom_ne_some fuel (by omega) hlt hfuel
    have hmore := chunksFrom_mono (Nat.le_max_left fuel (range.2 - range.1).toNat) hfuel
    have hfits := (chunksFrom_isSome_iff hpos hstart hlt (Nat.le_max_right _ _)).mp ⟨_, hmore⟩
    exact (chunks_isSome_iff hstart hlt).mpr ⟨hpos, hfits⟩
  · rintro ⟨cut, hcut⟩
    obtain ⟨last, hrun, hdone⟩ := exists_chunksFrom_iff.mp ⟨_, hcut⟩
    exact ⟨cut, last, hrun, hdone, fun piece hpiece => ((chunksFrom_spec hcut).2 piece hpiece).1⟩

/-- `get_ranges_to_prove` returns when all its loops end. -/
theorem getRangesToProve_isSome_iff_loops (hranges : ∀ r ∈ ranges, -2 ^ 63 ≤ r.1 ∧ r.1 < r.2) :
    (∃ chunks, getRangesToProve ranges interval = some chunks) ↔
      ∀ r ∈ ranges, LoopEnds interval r := by
  rw [getRangesToProve_isSome_iff_chunks]
  exact forall₂_congr fun r hr => (loopEnds_iff_chunks (hranges r hr).1 (hranges r hr).2).symm

/-- A `u64` is positive after the cast exactly if it is positive and fits. -/
theorem asI64_pos_iff {n : Nat} (h : n < 2 ^ 64) : 0 < asI64 n ↔ 1 ≤ n ∧ n < 2 ^ 63 := by
  unfold asI64
  split <;> omega

/-- **Chunking terminates**, for a setting that is accepted and some ranges, exactly if
there are no ranges, or the setting is between 1 and `2 ^ 63 - 1` and no step through a
range goes past the greatest `i64`. -/
theorem chunking_terminates_iff {value : Option String} {setting : Nat}
    (haccepted : readRangeProofInterval value = .ok setting)
    (hranges : ∀ r ∈ ranges, 0 ≤ r.1 ∧ r.1 < r.2 ∧ r.2 < 2 ^ 63) :
    (∀ r ∈ ranges, LoopEnds (asI64 setting) r) ↔
      ranges = [] ∨ (1 ≤ setting ∧ setting < 2 ^ 63) ∧
        ∀ r ∈ ranges, lastStop setting r.1 r.2 < 2 ^ 63 := by
  have hloop : ∀ r ∈ ranges, LoopEnds (asI64 setting) r ↔
      (1 ≤ setting ∧ setting < 2 ^ 63) ∧ lastStop setting r.1 r.2 < 2 ^ 63 := by
    intro r hr
    obtain ⟨hstart, hlt, -⟩ := hranges r hr
    have hi64 : -2 ^ 63 ≤ r.1 := Int.le_trans (by decide) hstart
    rw [loopEnds_iff_chunks hi64 hlt, chunks_isSome_iff hi64 hlt,
      asI64_pos_iff (readRangeProofInterval_lt haccepted)]
    refine and_congr_right fun hsetting => ?_
    rw [asI64, if_pos hsetting.2]
  constructor
  · intro h
    by_cases hnil : ranges = []
    · exact .inl hnil
    · obtain ⟨r, hr⟩ := List.exists_mem_of_ne_nil _ hnil
      exact .inr ⟨((hloop r hr).mp (h r hr)).1, fun r hr => ((hloop r hr).mp (h r hr)).2⟩
  · rintro (rfl | ⟨hsetting, hfits⟩) r hr
    · cases hr
    · exact (hloop r hr).mpr ⟨hsetting, hfits r hr⟩

theorem chunking_terminates_example :
    readRangeProofInterval (some "25") = .ok 25 ∧
      ∀ r ∈ [((0 : Int), (50 : Int)), (100, 210)], LoopEnds (asI64 25) r :=
  have haccepted : readRangeProofInterval (some "25") = .ok 25 := by decide
  ⟨haccepted,
    (chunking_terminates_iff haccepted (by decide)).mpr (.inr ⟨by decide, by decide⟩)⟩

/-- **The failing input.**  A setting of zero is accepted, and the loop over the blocks 0
to 10 never ends. -/
theorem zero_interval_accepted :
    readRangeProofInterval (some "0") = .ok 0 ∧ ¬ LoopEnds (asI64 0) (0, 10) := by
  refine ⟨by decide, ?_⟩
  rintro ⟨pieces, last, hrun, hdone, -⟩
  obtain ⟨fuel, hfuel⟩ := exists_chunksFrom_iff.mpr ⟨last, hrun, hdone⟩
  exact chunksFrom_ne_some fuel (by decide) (by decide) hfuel

end OpSuccinct.Validity
