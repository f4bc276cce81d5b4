import Mathlib.Data.List.Infix
import Mathlib.Order.Bounds.Basic
import Mathlib.Order.Nat
import OpSuccinct.Blobstream

/-! # The highest provable Celestia block

The Celestia data of an L2 block is available once the indexer locates it and a Blobstream
commitment to its height is found on L1.  `get_highest_finalized_l2_block` bisects the
blocks from the latest proposed one to the finalized one for the last such block, with a
block counted as unavailable if its look-up fails.

The search goes down to `mid - 1`, so it panics when it is asked from block 0 on and block 0
is not available, and up to `mid + 1`, past the greatest `u64` if that is available.  In
every other case the highest available block is returned, or none if there is none
(`highest_block_iff`).  The panics are those of a build with overflow checks; in a release build
the numbers wrap.
-/
namespace OpSuccinct.Celestia

open Fetcher Bisection

/-! ## Safe heads -/

/-- `CelestiaL1SafeHead`. -/
structure CelestiaL1SafeHead where
  l1BlockNumber : Nat
  l2SafeHeadNumber : Nat
  deriving DecidableEq

variable (host : Host)

/-- `query_celestia_indexer`: an error whose message says "not found" is no location. -/
def queryCelestiaIndexer (l2Block : Nat) : Except CelestiaError (Option CelestiaLocationResponse) :=
  match host.indexer l2Block with
  | .error e => .error (.indexerFailure e)
  | .ok reply =>
    match reply.error with
    | some message =>
      if message.any (fun msg => decide ("not found".toList <:+: msg.toList)) = true then .ok none
      else .error .indexerRpcError
    | none =>
      match reply.result with
      | none => .error .noResult
      | some none => .error .locationUnparsable
      | some (some location) => .ok (some location)

/-- `get_celestia_safe_head_info`. -/
def getCelestiaSafeHeadInfo (l2ReferenceBlock : Nat) :
    Except CelestiaError (Option CelestiaL1SafeHead) :=
  match queryCelestiaIndexer host l2ReferenceBlock with
  | .ok (some location) =>
    match (findMinimumBlobstreamBlock host location.height location.l1Block).2 with
    | .ok safeL1Block => .ok (some ⟨safeL1Block, l2ReferenceBlock⟩)
    -- a panic is not caught
    | .error .panic => .error .panic
    | .error e => .error (.noBlobstreamProof location.height e)
  | .ok none => .error (.noIndexerData l2ReferenceBlock)
  | .error e => .error (.indexerError e)

/-! ## The search -/

/-- The loop of `get_highest_finalized_l2_block`, which keeps the last available block. -/
def celestiaSearch : Search CelestiaError (Option Nat) Empty where
  limit := 2 ^ 64
  overflow := .panic
  sumFits _ _ := true
  probe mid result :=
    match getCelestiaSafeHeadInfo host mid with
    | .ok (some _) => .ok (.higher (some mid))
    | .ok none => .ok (.lower result)
    | .error .panic => .error .panic
    -- treated as unavailable
    | .error _ => .ok (.lower result)

/-- `get_highest_finalized_l2_block`. -/
def getHighestFinalizedL2Block (latestProposedBlockNumber : Nat) :
    Except CelestiaError (Option Nat) :=
  match getHeader host.l2Provider .finalized with
  | .error e => .error (.header e)
  | .ok header =>
    match (celestiaSearch host).run latestProposedBlockNumber header.number none with
    | .error e => .error e
    | .ok (.crossed _ result) => .ok result
    | .ok (.stopped r) => nomatch r

/-! ## Availability -/

/-- **The availability that the look-up gives** on the blocks from `first` to `last`: an
available block has a safe head, for any other block it reports none or an error; and below
an available block every block is available. -/
structure GivesAvailability (available : Nat → Prop) (first last : Nat) : Prop where
  present : ∀ n, first ≤ n → n ≤ last → available n →
    ∃ safeHead, getCelestiaSafeHeadInfo host n = .ok (some safeHead)
  absent : ∀ n, first ≤ n → n ≤ last → ¬ available n →
    getCelestiaSafeHeadInfo host n = .ok none ∨
      ∃ e, getCelestiaSafeHeadInfo host n = .error e ∧ e ≠ .panic
  downward : ∀ m n, first ≤ m → m ≤ n → n ≤ last → available n → available m

/-- **The highest available block** from `first` to `last` is returned, or none if there is
none. -/
structure HighestFound (available : Nat → Prop) (first last : Nat)
    (result : Except CelestiaError (Option Nat)) : Prop where
  greatest : ∀ n, IsGreatest {m | first ≤ m ∧ m ≤ last ∧ available m} n → result = .ok (some n)
  none : (∀ n, first ≤ n → n ≤ last → ¬ available n) → result = .ok none

/-- **The search stays inside the `u64`s**: asked from block 0 on, block 0 is available, and
the greatest number is not available as the finalized block. -/
structure SearchFits (available : Nat → Prop) (first last : Nat) : Prop where
  low : first = 0 → available 0
  high : first ≤ last → last + 1 = 2 ^ 64 → ¬ available last

variable {host} {available : Nat → Prop} {chain : Nat → Block} {first last mid : Nat}

theorem GivesAvailability.probe_higher (h : GivesAvailability host available first last)
    (hfirst : first ≤ mid) (hlast : mid ≤ last) (havailable : available mid) (acc : Option Nat) :
    (celestiaSearch host).probe mid acc = .ok (.higher (some mid)) := by
  obtain ⟨safeHead, hinfo⟩ := h.present mid hfirst hlast havailable
  simp only [celestiaSearch, hinfo]

theorem GivesAvailability.probe_lower (h : GivesAvailability host available first last)
    (hfirst : first ≤ mid) (hlast : mid ≤ last) (hnot : ¬ available mid) (acc : Option Nat) :
    (celestiaSearch host).probe mid acc = .ok (.lower acc) := by
  rcases h.absent mid hfirst hlast hnot with hinfo | ⟨e, hinfo, he⟩
  · simp only [celestiaSearch, hinfo]
  · simp only [celestiaSearch, hinfo]

/-- Unavailability is kept upwards. -/
theorem GivesAvailability.upward (h : GivesAvailability host available first last) :
    Upward (fun n => ¬ available n) first last :=
  fun m n hm hmn hn hnot havailable => hnot (h.downward m n hm hmn hn havailable)

/-- What the search has kept: the block below the part that is left, if that has moved. -/
def lastAvailable (first low : Nat) : Option Nat := if low = first then none else some (low - 1)

theorem lastAvailable_succ (h : first ≤ mid) : lastAvailable first (mid + 1) = some mid := by
  rw [lastAvailable, if_neg (by omega)]
  rfl

/-- What the search knows: the unavailable blocks begin in the part that is left, and the
block below it is kept. -/
def Narrowed (available : Nat → Prop) (first last low past : Nat) (acc : Option Nat) : Prop :=
  Bracket (fun n => ¬ available n) first last low past ∧ acc = lastAvailable first low

theorem GivesAvailability.probe (h : GivesAvailability host available first last)
    (hlast : last < 2 ^ 64) (hfits : SearchFits available first last) {low high : Nat}
    {acc : Option Nat} (hle : low ≤ high)
    (hinv : Narrowed available first last low (high + 1) acc) :
    ∃ v, (celestiaSearch host).probe (middle low high) acc = .ok v ∧
      (celestiaSearch host).Leaves (Narrowed available first last) (fun _ => True) low high v := by
  obtain ⟨hbracket, hacc⟩ := hinv
  obtain ⟨hmid, hmid'⟩ := hbracket.middle_mem hle
  by_cases havailable : available (middle low high)
  · refine ⟨_, h.probe_higher hmid hmid' havailable acc, ?_,
      hbracket.higher h.upward hle (not_not_intro havailable), (lastAvailable_succ hmid).symm⟩
    show middle low high + 1 < 2 ^ 64
    by_contra hover
    have hend : middle low high = last := by omega
    exact hfits.high (Nat.le_trans hmid hmid') (by omega) (hend ▸ havailable)
  · refine ⟨_, h.probe_lower hmid hmid' havailable acc, fun hzero => ?_,
      hbracket.lower h.upward hle havailable, hacc⟩
    rw [hzero] at hmid havailable
    exact havailable (hfits.low (Nat.le_zero.mp hmid))

theorem getHighestFinalizedL2Block_of_run (hserves : Serves host.l2Provider chain last)
    {low : Nat} {result : Option Nat}
    (hrun : (celestiaSearch host).run first last none = .ok (.crossed low result)) :
    getHighestFinalizedL2Block host first = .ok result := by
  simp only [getHighestFinalizedL2Block, hserves.getHeader_finalized, hserves.number, hrun]

theorem getHighestFinalizedL2Block_of_panic (hserves : Serves host.l2Provider chain last)
    (hrun : (celestiaSearch host).run first last none = .error .panic) :
    getHighestFinalizedL2Block host first = .error .panic := by
  simp only [getHighestFinalizedL2Block, hserves.getHeader_finalized, hserves.number, hrun]

/-- **The search finds the highest available block**, as long as it stays inside. -/
theorem highestFound_of_fits (hserves : Serves host.l2Provider chain last) (hlast : last < 2 ^ 64)
    (h : GivesAvailability host available first last) (hfits : SearchFits available first last) :
    HighestFound available first last (getHighestFinalizedL2Block host first) := by
  by_cases hempty : last < first
  · rw [getHighestFinalizedL2Block_of_run hserves (Search.run_of_lt hempty)]
    exact ⟨fun n hn => absurd (Nat.le_trans hn.1.1 hn.1.2.1) (Nat.not_le.mpr hempty), fun _ => rfl⟩
  obtain ⟨o, hrun, hmeets⟩ := Search.run_spec (Narrowed available first last) (fun _ => True)
    (fun low high acc hle hinv => ⟨rfl, h.probe hlast hfits hle hinv⟩)
    (by omega) ⟨.start (by omega), (if_pos rfl).symm⟩
  cases o with
  | stopped r => cases r
  | crossed low acc =>
    obtain ⟨hbracket, rfl⟩ := hmeets
    rw [getHighestFinalizedL2Block_of_run hserves hrun]
    -- The available blocks are those below the boundary.
    have hbelow : ∀ n, first ≤ n → n ≤ last → (available n ↔ n < low) := by
      intro n hn hn'
      rw [← Nat.not_le, ← hbracket.holds_iff hn hn', not_not]
    have hfirst := hbracket.first_le
    have hpast := hbracket.past_le
    constructor
    · intro n ⟨⟨hn, hn', havailable⟩, hgreatest⟩
      have hlt := (hbelow n hn hn').mp havailable
      have hle := hgreatest ⟨(by omega : first ≤ low - 1), (by omega : low - 1 ≤ last),
        (hbelow (low - 1) (by omega) (by omega)).mpr (by omega)⟩
      rw [lastAvailable, if_neg (by omega), show low - 1 = n by omega]
    · intro hnone
      rw [lastAvailable, if_pos]
      by_contra hmoved
      exact hnone (low - 1) (by omega) (by omega)
        ((hbelow (low - 1) (by omega) (by omega)).mpr (by omega))

/-- **The search leaves the `u64`s** if it does not fit. -/
theorem panic_of_not_fits (hserves : Serves host.l2Provider chain last)
    (h : GivesAvailability host available first last) (hfits : ¬ SearchFits available first last) :
    getHighestFinalizedL2Block host first = .error .panic ∧
      ((∀ n, first ≤ n → n ≤ last → ¬ available n) ∨
        IsGreatest {m | first ≤ m ∧ m ≤ last ∧ available m} last) := by
  by_cases hlow : first = 0 → available 0
  · -- Every block up to the greatest number is available.
    have hhigh : ¬ (first ≤ last → last + 1 = 2 ^ 64 → ¬ available last) :=
      fun hhigh => hfits ⟨hlow, hhigh⟩
    push Not at hhigh
    obtain ⟨hle, hend, havailable⟩ := hhigh
    refine ⟨getHighestFinalizedL2Block_of_panic hserves ?_,
      .inr ⟨⟨hle, Nat.le_refl _, havailable⟩, fun n hn => hn.2.1⟩⟩
    exact Search.run_overflow hle (Nat.le_of_eq hend.symm) fun m hm hm' acc =>
      ⟨_, h.probe_higher hm hm' (h.downward m last hm hm' (Nat.le_refl _) havailable) acc⟩
  · -- No block from block 0 on is available.
    push Not at hlow
    obtain ⟨rfl, hnot⟩ := hlow
    have hnone : ∀ n, 0 ≤ n → n ≤ last → ¬ available n :=
      fun n hn hn' havailable => hnot (h.downward 0 n (Nat.le_refl 0) hn hn' havailable)
    refine ⟨getHighestFinalizedL2Block_of_panic hserves ?_, .inl hnone⟩
    exact Search.run_underflow fun m hm acc =>
      ⟨_, h.probe_lower (Nat.zero_le m) hm (hnone m (Nat.zero_le m) hm) acc⟩

/-- **The highest provable block**, for every availability and every latest proposed block:
found exactly if the search fits. -/
theorem highest_block_iff (hserves : Serves host.l2Provider chain last) (hlast : last < 2 ^ 64)
    (h : GivesAvailability host available first last) :
    HighestFound available first last (getHighestFinalizedL2Block host first) ↔
      SearchFits available first last := by
  refine ⟨fun hfound => ?_, highestFound_of_fits hserves hlast h⟩
  by_contra hfits
  obtain ⟨hpanic, hnone | hgreatest⟩ := panic_of_not_fits hserves h hfits
  · cases hpanic.symm.trans (hfound.none hnone)
  · cases hpanic.symm.trans (hfound.greatest last hgreatest)

/-! A finalized block 20, and an indexer that locates the blocks before one of them. -/

def exampleL2 (n : Nat) : Block := ⟨n, BitVec.ofNat 256 n, 2 * n⟩

def exampleCelestia (located : Nat) : Host :=
  { exampleHost 1 with
    l2Provider := fun id =>
      match id with
      | .finalized => .ok (some (exampleL2 20))
      | .number n => .ok (some (exampleL2 n))
    indexer := fun n =>
      .ok (if n < located then ⟨none, some (some ⟨70, 1⟩)⟩ else ⟨some (some "not found"), none⟩) }

theorem exampleCelestia_serves (located : Nat) :
    Serves (exampleCelestia located).l2Provider exampleL2 20 where
  finalized := rfl
  block _ _ := rfl
  number _ := rfl

theorem exampleCelestia_find (located : Nat) :
    (findMinimumBlobstreamBlock (exampleCelestia located) 70 1).2 = .ok 5100 := by
  have hserves : ServesLogs (exampleCelestia located) exampleAddress exampleLogs 6000 :=
    { exampleHost_serves 1 with }
  have hfit : WindowsFit (exampleCelestia located) exampleAddress exampleLogs 70 1 6000 := by
    intro k hk hover
    unfold filterBlockRange at *
    omega
  rw [hserves.find_eq]
  exact ((hserves.scanWindows_iff 70 (by decide)).mpr hfit).found (exampleLog 5100 [61, 80]) rfl

theorem exampleCelestia_gives (located first : Nat) :
    GivesAvailability (exampleCelestia located) (· < located) first 20 where
  present := by
    intro n _ _ hlt
    have hindexer : queryCelestiaIndexer (exampleCelestia located) n = .ok (some ⟨70, 1⟩) := by
      simp only [queryCelestiaIndexer, exampleCelestia, if_pos hlt]
    refine ⟨⟨5100, n⟩, ?_⟩
    simp only [getCelestiaSafeHeadInfo, hindexer, exampleCelestia_find]
  absent := by
    intro n _ _ hnot
    have hmessage : (some "not found").any
        (fun msg => decide ("not found".toList <:+: msg.toList)) = true := by decide
    have hindexer : queryCelestiaIndexer (exampleCelestia located) n = .ok none := by
      simp only [queryCelestiaIndexer, exampleCelestia, if_neg hnot, if_pos hmessage]
    exact .inr ⟨.noIndexerData n, by simp only [getCelestiaSafeHeadInfo, hindexer], nofun⟩
  downward _ _ _ hmn _ hlt := Nat.lt_of_le_of_lt hmn hlt

theorem highest_block_example :
    HighestFound (· < 13) 4 20 (getHighestFinalizedL2Block (exampleCelestia 13) 4) :=
  (highest_block_iff (exampleCelestia_serves 13) (by decide) (exampleCelestia_gives 13 4)).mpr
    ⟨nofun, nofun⟩

/-- **The failing input.**  Nothing is proposed and nothing is available yet. -/
theorem nothing_available_from_zero :
    Serves (exampleCelestia 0).l2Provider exampleL2 20 ∧
      GivesAvailability (exampleCelestia 0) (· < 0) 0 20 ∧
      ¬ HighestFound (· < 0) 0 20 (getHighestFinalizedL2Block (exampleCelestia 0) 0) := by
  refine ⟨exampleCelestia_serves 0, exampleCelestia_gives 0 0, fun hfound => ?_⟩
  have hnone := hfound.none fun n _ _ => Nat.not_lt_zero n
  have hpanic := (panic_of_not_fits (exampleCelestia_serves 0) (exampleCelestia_gives 0 0)
    fun hfits => Nat.not_lt_zero 0 (hfits.low rfl)).1
  cases hpanic.symm.trans hnone

end OpSuccinct.Celestia
