import OpSuccinct.DataFetcher

/-! # Block by timestamp

On a chain with increasing timestamps `find_block_by_timestamp` looks for the lowest block
not before the target.  It finds it for every target from the genesis timestamp on; below
the genesis timestamp it is sent down from block 0 and panics (`target_before_genesis`),
which `get_rolling_block_range` runs into on a chain younger than its interval.

The sum of two block numbers overflows only where a probe would be at block `2 ^ 63` or
above.  The first such probe is reached on the way up from block 0 (`climb`), so whether it
is reached is seen from the probe before it; with this the condition is exact
(`block_by_timestamp_iff`).
-/
namespace OpSuccinct.Fetcher

open Bisection

variable {provider : Provider} {chain : Nat → Block} {top target : Nat}

/-- **The lowest block not before the target**, which is the block at the target if there
is one. -/
def FoundByTimestamp (chain : Nat → Block) (top target : Nat)
    (result : Except FetchError (Bytes32 × Nat)) : Prop :=
  ∃ n, result = .ok ((chain n).hash, n) ∧
    IsLeast {m | m ≤ top ∧ target ≤ (chain m).timestamp} n ∧
    ∀ m ≤ top, (chain m).timestamp = target → m = n

/-- The timestamps increase up to the finalized block. -/
def Increasing (chain : Nat → Block) (top : Nat) : Prop :=
  ∀ m n, m < n → n ≤ top → (chain m).timestamp < (chain n).timestamp

theorem Increasing.le (h : Increasing chain top) {m n : Nat} (hmn : m ≤ n) (hn : n ≤ top) :
    (chain m).timestamp ≤ (chain n).timestamp := by
  rcases Nat.lt_or_eq_of_le hmn with hlt | rfl
  · exact Nat.le_of_lt (h m n hlt hn)
  · exact Nat.le_refl _

theorem Increasing.upward (h : Increasing chain top) (target : Nat) :
    Upward (fun n => target ≤ (chain n).timestamp) 0 top :=
  fun _ _ _ hmn hn hm => Nat.le_trans hm (h.le hmn hn)

/-- The lowest block is the only one at the target. -/
theorem foundByTimestamp_of_isLeast (h : Increasing chain top) {n : Nat}
    (hleast : IsLeast {m | m ≤ top ∧ target ≤ (chain m).timestamp} n) :
    FoundByTimestamp chain top target (.ok ((chain n).hash, n)) := by
  refine ⟨n, rfl, hleast, fun m hm heq => Nat.le_antisymm ?_ (hleast.2 ⟨hm, Nat.le_of_eq heq.symm⟩)⟩
  by_contra hlt
  have hlater := h n m (Nat.not_le.mp hlt) hm
  have htarget : target ≤ (chain n).timestamp := hleast.1.2
  omega

/-! ## Probes -/

theorem timestampSearch_probe (h : Serves provider chain top) {mid : Nat} (hmid : mid ≤ top) :
    (timestampSearch provider target).probe mid () =
      .ok (match compare (chain mid).timestamp target with
        | .eq => .stop ((chain mid).hash, mid)
        | .lt => .higher ()
        | .gt => .lower ()) := by
  simp only [timestampSearch, h.block mid hmid, bind, Except.bind]
  cases compare (chain mid).timestamp target with
  | eq => rw [h.number mid]; rfl
  | lt => rfl
  | gt => rfl

theorem probe_higher (h : Serves provider chain top) {mid : Nat} (hmid : mid ≤ top)
    (hlt : (chain mid).timestamp < target) :
    (timestampSearch provider target).probe mid () = .ok (.higher ()) := by
  rw [timestampSearch_probe h hmid, Nat.compare_eq_lt.mpr hlt]

theorem probe_lower (h : Serves provider chain top) {mid : Nat} (hmid : mid ≤ top)
    (hlt : target < (chain mid).timestamp) :
    (timestampSearch provider target).probe mid () = .ok (.lower ()) := by
  rw [timestampSearch_probe h hmid, Nat.compare_eq_gt.mpr hlt]

theorem probe_stop (h : Serves provider chain top) {mid : Nat} (hmid : mid ≤ top)
    (heq : (chain mid).timestamp = target) :
    (timestampSearch provider target).probe mid () = .ok (.stop ((chain mid).hash, mid)) := by
  rw [timestampSearch_probe h hmid, Nat.compare_eq_eq.mpr heq]

/-- What the search ends with is what is returned. -/
theorem findBlockByTimestamp_of_error (h : Serves provider chain top) {e : FetchError}
    (hrun : (timestampSearch provider target).run 0 top () = .error e) :
    findBlockByTimestamp provider target = .error e := by
  simp only [findBlockByTimestamp, h.finalized, h.number top, hrun, bind, Except.bind]

theorem findBlockByTimestamp_of_stopped (h : Serves provider chain top) {found : Bytes32 × Nat}
    (hrun : (timestampSearch provider target).run 0 top () = .ok (.stopped found)) :
    findBlockByTimestamp provider target = .ok found := by
  simp only [findBlockByTimestamp, h.finalized, h.number top, hrun, bind, Except.bind]
  rfl

theorem findBlockByTimestamp_of_crossed (h : Serves provider chain top) {low : Nat}
    (hlow : low ≤ top)
    (hrun : (timestampSearch provider target).run 0 top () = .ok (.crossed low ())) :
    findBlockByTimestamp provider target = .ok ((chain low).hash, low) := by
  simp only [findBlockByTimestamp, h.finalized, h.number, hrun, h.block low hlow, bind, Except.bind]
  rfl

/-! ## Targets before genesis -/

/-- **A target before the genesis block** sends the search below block 0. -/
theorem target_before_genesis (h : Serves provider chain top) (hincreasing : Increasing chain top)
    (hyoung : target < (chain 0).timestamp) :
    findBlockByTimestamp provider target = .error .arithmetic := by
  refine findBlockByTimestamp_of_error h (Search.run_underflow fun m hm _ => ⟨(), ?_⟩)
  exact probe_lower h hm (Nat.lt_of_lt_of_le hyoung (hincreasing.le (Nat.zero_le m) hm))

/-- A chain that is younger than the interval has no rolling range: its finalized
timestamp is rounded down to one before its genesis block. -/
theorem getRollingBlockRange_young {fetcher : DataFetcher} {interval : Nat} (range : Nat)
    (h : Serves fetcher.l2Provider chain top) (hincreasing : Increasing chain top)
    (hinterval : interval ≠ 0)
    (hyoung : (chain top).timestamp - (chain top).timestamp % interval < (chain 0).timestamp) :
    getRollingBlockRange fetcher interval range = .error .arithmetic := by
  simp [getRollingBlockRange, h.getHeader_finalized, hinterval, require, bind, Except.bind,
    target_before_genesis h hincreasing hyoung]

/-! ## The way up -/

/-- The `k`-th probe of a search that is always sent up: each halves the distance to the
finalized block. -/
def climb (top k : Nat) : Nat := top - (top + 1) / 2 ^ k

/-- Where the search starts after the `k`-th of these probes. -/
def climbed (top k : Nat) : Nat := top + 1 - (top + 1) / 2 ^ k

theorem halved (top k : Nat) : (top + 1) / 2 ^ (k + 1) = (top + 1) / 2 ^ k / 2 := by
  rw [Nat.pow_succ, Nat.div_div_eq_div_mul]

theorem climbed_zero (top : Nat) : climbed top 0 = 0 := by
  simp [climbed]

theorem middle_climbed {k : Nat} (hle : climbed top k ≤ top) :
    middle (climbed top k) top = climb top (k + 1) := by
  have hdistance := Nat.div_le_self (top + 1) (2 ^ k)
  rw [climb, halved]
  unfold climbed middle at *
  omega

theorem climbed_succ {k : Nat} (hle : climbed top k ≤ top) :
    climb top (k + 1) + 1 = climbed top (k + 1) := by
  have hdistance := Nat.div_le_self (top + 1) (2 ^ k)
  rw [climb, climbed, halved]
  unfold climbed at hle
  omega

theorem climb_mono {j k : Nat} (hjk : j ≤ k) : climb top j ≤ climb top k := by
  have hpow : 2 ^ j ≤ 2 ^ k := Nat.pow_le_pow_right (by decide) hjk
  exact Nat.sub_le_sub_left (Nat.div_le_div_left hpow (Nat.two_pow_pos j)) top

theorem climbed_mono {j k : Nat} (hjk : j ≤ k) : climbed top j ≤ climbed top k := by
  have hpow : 2 ^ j ≤ 2 ^ k := Nat.pow_le_pow_right (by decide) hjk
  exact Nat.sub_le_sub_left (Nat.div_le_div_left hpow (Nat.two_pow_pos j)) (top + 1)

theorem climb_le (top k : Nat) : climb top k ≤ top := Nat.sub_le _ _

/-- **The target is in reach**: not before the genesis block, and no later than the probe
before the first one, on the way up, that is at block `2 ^ 63` or above. -/
structure InReach (chain : Nat → Block) (top target : Nat) : Prop where
  genesis : (chain 0).timestamp ≤ target
  sums : ∀ k, 2 ^ 63 ≤ climb top (k + 1) → target ≤ (chain (climb top k)).timestamp

/-- **A search that climbs too high** computes a sum that overflows. -/
theorem run_climbed (h : Serves provider chain top) (hincreasing : Increasing chain top)
    (htop : top < 2 ^ 64) (htarget : target ≤ (chain top).timestamp) {j k : Nat} (hjk : j ≤ k)
    (hhigh : 2 ^ 63 ≤ climb top (k + 1)) (hbelow : (chain (climb top k)).timestamp < target) :
    (timestampSearch provider target).run (climbed top j) top () = .error .arithmetic := by
  -- The finalized block is not below the target, so the search has not got there yet.
  have hk : climbed top k ≤ top := by
    by_contra hgt
    have hclimb : climb top k = top := by
      unfold climb
      unfold climbed at hgt
      generalize (top + 1) / 2 ^ k = distance at hgt ⊢
      omega
    rw [hclimb] at hbelow
    omega
  have hj : climbed top j ≤ top := Nat.le_trans (climbed_mono hjk) hk
  have hmiddle := middle_climbed hj
  induction hleft : k - j generalizing j with
  | zero =>
    obtain rfl : j = k := by omega
    refine Search.run_of_not_sumFits hj (decide_eq_false ?_)
    have hsum := add_div_two hj
    rw [hmiddle] at hsum
    omega
  | succ left ih =>
    cases hsum : (timestampSearch provider target).sumFits (climbed top j) top with
    | false => exact Search.run_of_not_sumFits hj hsum
    | true =>
      have hprobe : (chain (middle (climbed top j) top)).timestamp < target := by
        rw [hmiddle]
        exact Nat.lt_of_le_of_lt (hincreasing.le (climb_mono (by omega)) (climb_le top k)) hbelow
      rw [Search.run_of_higher hj hsum (probe_higher h (middle_le hj) hprobe)]
      split
      · have hnext : climbed top (j + 1) ≤ top := Nat.le_trans (climbed_mono (by omega)) hk
        rw [hmiddle, climbed_succ hj]
        exact ih (by omega) hnext (middle_climbed hnext) (by omega)
      · rfl

/-! ## The search -/

/-- What is left of the chain: the boundary lies in it, and it is the part above some
probe on the way up, or ends at block `2 ^ 63`. -/
structure Left (chain : Nat → Block) (top target low past : Nat) : Prop where
  bracket : Bracket (fun n => target ≤ (chain n).timestamp) 0 top low past
  climbing : past ≤ 2 ^ 63 ∨ past = top + 1 ∧ ∃ k, low = climbed top k ∧
    (k ≠ 0 → (chain (climb top k)).timestamp < target)

theorem left_start (chain : Nat → Block) (top target : Nat) :
    Left chain top target 0 (top + 1) where
  bracket := .start (Nat.zero_le _)
  climbing := .inr ⟨rfl, 0, (climbed_zero top).symm, fun h => absurd rfl h⟩

/-- No sum of the bounds overflows. -/
theorem Left.sumFits {low high : Nat} (h : Left chain top target low (high + 1))
    (hreach : InReach chain top target) (htop : top < 2 ^ 64) (hle : low ≤ high) :
    low + high < 2 ^ 64 := by
  rcases h.climbing with hpast | ⟨hpast, k, rfl, hbelow⟩
  · omega
  · obtain rfl : high = top := by omega
    by_contra hover
    have hsum := add_div_two hle
    have hmiddle := middle_climbed hle
    have hlate := hreach.sums k (by omega)
    by_cases hk : k = 0
    · subst hk
      rw [climbed_zero] at hover
      omega
    · exact absurd (hbelow hk) (Nat.not_lt.mpr hlate)

/-- **One probe** keeps what is left as it must be. -/
theorem Left.probe (h : Serves provider chain top) (hincreasing : Increasing chain top)
    (htop : top < 2 ^ 64) (hreach : InReach chain top target) {low high : Nat} (hle : low ≤ high)
    (hleft : Left chain top target low (high + 1)) :
    (timestampSearch provider target).sumFits low high = true ∧
      ∃ v, (timestampSearch provider target).probe (middle low high) () = .ok v ∧
        (timestampSearch provider target).Leaves (fun low past _ => Left chain top target low past)
          (fun found => ∃ n, found = ((chain n).hash, n) ∧
            IsLeast {m | m ≤ top ∧ target ≤ (chain m).timestamp} n) low high v := by
  have hsum := hleft.sumFits hreach htop hle
  have hhalf := add_div_two hle
  have hmid := (hleft.bracket.middle_mem hle).2
  have hup := hincreasing.upward target
  refine ⟨decide_eq_true hsum, ?_⟩
  rcases Nat.lt_trichotomy (chain (middle low high)).timestamp target with hlt | heq | hgt
  · refine ⟨_, probe_higher h hmid hlt, by show _ < 2 ^ 64; omega,
      hleft.bracket.higher hup hle (Nat.not_le.mpr hlt), ?_⟩
    refine hleft.climbing.imp_right ?_
    rintro ⟨hpast, k, rfl, -⟩
    obtain rfl : high = top := by omega
    rw [middle_climbed hle] at hlt ⊢
    exact ⟨rfl, k + 1, climbed_succ hle, fun _ => hlt⟩
  · refine ⟨_, probe_stop h hmid heq, middle low high, rfl, ⟨hmid, Nat.le_of_eq heq.symm⟩, ?_⟩
    rintro m ⟨hm, htarget⟩
    by_contra hlt
    have hearlier := hincreasing m _ (Nat.not_le.mp hlt) hmid
    omega
  · refine ⟨_, probe_lower h hmid hgt, ?_, hleft.bracket.lower hup hle (Nat.le_of_lt hgt),
      .inl (by omega)⟩
    intro hzero
    rw [hzero] at hgt
    exact absurd hreach.genesis (Nat.not_le.mpr hgt)

/-- **Block by timestamp.**  On a chain with increasing timestamps, for a target not above
the finalized block: the lowest block not before the target is returned exactly if the
target is in reach. -/
theorem block_by_timestamp_iff (h : Serves provider chain top)
    (hincreasing : Increasing chain top) (htop : top < 2 ^ 64)
    (htarget : target ≤ (chain top).timestamp) :
    FoundByTimestamp chain top target (findBlockByTimestamp provider target) ↔
      InReach chain top target := by
  constructor
  · rintro ⟨n, hfound, -⟩
    constructor
    · by_contra hyoung
      rw [target_before_genesis h hincreasing (Nat.not_le.mp hyoung)] at hfound
      cases hfound
    · intro k hhigh
      by_contra hbelow
      have hrun := run_climbed h hincreasing htop htarget (Nat.zero_le k)
        hhigh (Nat.not_le.mp hbelow)
      rw [climbed_zero] at hrun
      rw [findBlockByTimestamp_of_error h hrun] at hfound
      cases hfound
  · intro hreach
    obtain ⟨o, hrun, hmeets⟩ := Search.run_spec (fun low past _ => Left chain top target low past) _
      (fun low high _ hle hleft => hleft.probe h hincreasing htop hreach hle) (Nat.zero_le _)
      (left_start chain top target)
    cases o with
    | stopped found =>
      obtain ⟨n, rfl, hleast⟩ := hmeets
      rw [findBlockByTimestamp_of_stopped h hrun]
      exact foundByTimestamp_of_isLeast hincreasing hleast
    | crossed n _ =>
      have hbracket : Bracket _ 0 top n n := hmeets.bracket
      have hn : n ≤ top := (hbracket.holds_iff (Nat.zero_le top) (Nat.le_refl top)).mp htarget
      rw [findBlockByTimestamp_of_crossed h hn hrun]
      have hleast := hbracket.isLeast hn
      simp only [Nat.zero_le, true_and] at hleast
      exact foundByTimestamp_of_isLeast hincreasing hleast

/-! ### A young chain

A block every two seconds since 1000, finalized up to block 50.  A week is rounded down to
the timestamp 0. -/

def exampleChain (n : Nat) : Block := ⟨n, BitVec.ofNat 256 n, 1000 + 2 * n⟩

def exampleProvider : Provider
  | .finalized => .ok (some (exampleChain 50))
  | .number n => .ok (if n ≤ 50 then some (exampleChain n) else none)

theorem exampleProvider_serves : Serves exampleProvider exampleChain 50 where
  finalized := rfl
  block n hn := by rw [exampleProvider, if_pos hn]
  number _ := rfl

theorem exampleChain_increasing : Increasing exampleChain 50 := by
  intro m n hmn _
  show 1000 + 2 * m < 1000 + 2 * n
  omega

theorem block_by_timestamp_example :
    FoundByTimestamp exampleChain 50 1003 (findBlockByTimestamp exampleProvider 1003) := by
  refine (block_by_timestamp_iff exampleProvider_serves exampleChain_increasing (by decide)
    (by decide)).mpr ⟨by decide, fun k hk => ?_⟩
  have hclimb := climb_le 50 (k + 1)
  omega

/-- **The failing input.**  The target that `get_rolling_block_range` computes for an
interval of a week. -/
theorem rounded_before_genesis :
    1100 - 1100 % (7 * 24 * 60 * 60) = 0 ∧
      ¬ FoundByTimestamp exampleChain 50 0 (findBlockByTimestamp exampleProvider 0) := by
  refine ⟨by decide, ?_⟩
  rintro ⟨n, hfound, -⟩
  rw [target_before_genesis exampleProvider_serves exampleChain_increasing (by decide)] at hfound
  cases hfound

end OpSuccinct.Fetcher
