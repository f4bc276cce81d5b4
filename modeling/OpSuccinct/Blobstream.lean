import OpSuccinct.DataFetcher
import OpSuccinct.OrderedWindows

/-! # Blobstream

`blobstream_utils.rs` of the host for Celestia DA: the scan of the L1 chain for the event
that commits to a Celestia height, and the state of an L2 block's data that it gives.

The scan asks for the logs of one window of blocks after another.  The windows tile the
blocks from the start to the latest one, so the first event that can be decoded and covers
the height is found, whatever other logs there are.  The end of a window is computed with a
sum before it is cut off at the latest block; only where that sum leaves the `u64`s does
the scan panic (`blobstream_scan_iff`), in a build with overflow checks; in a release build the
sum wraps.
-/
namespace OpSuccinct.Celestia

open Fetcher Windows

/-! ## What is asked -/

/-- A log of an L1 provider; one that is pending has no block number. -/
structure Log where
  address : Address
  topics : List Bytes32
  data : Bytes
  blockNumber : Option Nat
  deriving DecidableEq

/-- The filter of a `get_logs` request. -/
structure Filter where
  address : Address
  eventSignature : Bytes32
  fromBlock : Nat
  toBlock : Nat

/-- The Celestia blocks that a `DataCommitmentStored` event commits to. -/
structure DataCommitmentStored where
  startBlock : Nat
  endBlock : Nat

/-- What the Celestia indexer says of an L2 block: the Celestia height, and the L1 block to
start from. -/
structure CelestiaLocationResponse where
  height : Nat
  l1Block : Nat

/-- A reply of the indexer: its error, with the message if that is a string, and its
result, if it can be parsed. -/
structure IndexerReply where
  error : Option (Option String)
  result : Option (Option CelestiaLocationResponse)

/-- Why the indexer gave no reply. -/
inductive IndexerFailure
  /-- "Failed to query Celestia indexer: {e}" -/
  | query
  /-- "Failed to parse indexer response: {e}" -/
  | parse
  deriving DecidableEq

inductive CelestiaError
  | panic
  | transport
  /-- "No Blobstream address found for chain ID {chain_id}" -/
  | noBlobstreamAddress (chainId : Nat)
  /-- "Log missing block number" -/
  | logMissingBlockNumber
  /-- "Reached latest block {latest_block} without finding Blobstream proof for Celestia
  height {celestia_height}" -/
  | reachedLatestBlock (latestBlock celestiaHeight : Nat)
  | indexerFailure (e : IndexerFailure)
  /-- "Indexer RPC error: {error}" -/
  | indexerRpcError
  /-- "No result in indexer response" -/
  | noResult
  /-- "Failed to parse Celestia location response: {e}" -/
  | locationUnparsable
  /-- "Failed to find Blobstream proof for Celestia height {height}: {e}" -/
  | noBlobstreamProof (height : Nat) (e : CelestiaError)
  /-- "Celestia indexer has no data for L2 block {l2_reference_block}" -/
  | noIndexerData (l2ReferenceBlock : Nat)
  /-- "Celestia indexer error: {e}" -/
  | indexerError (e : CelestiaError)
  | header (e : FetchError)
  deriving DecidableEq

/-- **The surroundings of the host**: the data fetcher, the L1 chain id of its rollup
config, its provider's latest block and logs, the indexer, and what is taken from other
crates, the Blobstream address of a chain, the hash and the decoding of the event. -/
structure Host extends DataFetcher where
  l1ChainId : Nat
  getBlockNumber : Except Unit Nat
  getLogs : Filter → Except Unit (List Log)
  indexer : Nat → Except IndexerFailure IndexerReply
  blobstreamAddress : Nat → Option Address
  keccak256 : String → Bytes32
  decodeLog : Log → Option DataCommitmentStored

variable (host : Host)

def Host.eventSelector : Bytes32 :=
  host.keccak256 "DataCommitmentStored(uint256,uint64,uint64,bytes32)"

/-! ## The scan -/

/-- `verify_data_commitment_event`, for a log with at most four topics: whether the event
contains the height, or nothing if the log cannot be decoded. -/
def verifyDataCommitmentEvent (log : Log) (targetCelestiaHeight : Nat) : Option Bool :=
  (host.decodeLog log).map fun event =>
    decide (event.startBlock ≤ targetCelestiaHeight ∧ targetCelestiaHeight ≤ event.endBlock)

/-- The logs of one window, up to the first event that contains the height. -/
def scanLogs (address : Address) (celestiaHeight : Nat) :
    List Log → Except CelestiaError (Option Nat)
  | [] => .ok none
  | log :: logs =>
    if log.address = address then
      match log.blockNumber with
      | none => .error .logMissingBlockNumber
      | some blockNumber =>
        -- `LogData::new` takes no more than four topics, and its result is unwrapped
        if 4 < log.topics.length then .error .panic
        else
          match verifyDataCommitmentEvent host log celestiaHeight with
          | some true => .ok (some blockNumber)
          | some false => scanLogs address celestiaHeight logs
          | none => scanLogs address celestiaHeight logs
    else scanLogs address celestiaHeight logs

/-- `DEFAULT_FILTER_BLOCK_RANGE`. -/
@[irreducible] def filterBlockRange : Nat := 5000

theorem filterBlockRange_pos : 0 < filterBlockRange := by
  unfold filterBlockRange
  decide

/-- The loop of `find_minimum_blobstream_block`, from `currentStart` on, with the windows it
asks for. -/
def scanWindows (address : Address) (celestiaHeight latestBlock currentStart : Nat) :
    List (Nat × Nat) × Except CelestiaError Nat :=
  if 2 ^ 64 ≤ currentStart + filterBlockRange then ([], .error .panic)
  else
    let currentEnd := min (currentStart + filterBlockRange - 1) latestBlock
    match host.getLogs ⟨address, host.eventSelector, currentStart, currentEnd⟩ with
    | .error _ => ([(currentStart, currentEnd)], .error .transport)
    | .ok logs =>
      match scanLogs host address celestiaHeight logs with
      | .error e => ([(currentStart, currentEnd)], .error e)
      | .ok (some blockNumber) => ([(currentStart, currentEnd)], .ok blockNumber)
      | .ok none =>
        if latestBlock < currentEnd + 1 then
          ([(currentStart, currentEnd)], .error (.reachedLatestBlock latestBlock celestiaHeight))
        else
          let (windows, result) :=
            scanWindows address celestiaHeight latestBlock (currentEnd + 1)
          ((currentStart, currentEnd) :: windows, result)
termination_by latestBlock + 1 - currentStart
decreasing_by
  have hpositive := filterBlockRange_pos
  unfold currentEnd at *
  omega

/-- `find_minimum_blobstream_block`, with the windows it asks for. -/
def findMinimumBlobstreamBlock (celestiaHeight startBlock : Nat) :
    List (Nat × Nat) × Except CelestiaError Nat :=
  -- the rollup config is unwrapped
  if host.rollupConfigLoaded = false then ([], .error .panic)
  else
    match host.blobstreamAddress host.l1ChainId with
    | none => ([], .error (.noBlobstreamAddress host.l1ChainId))
    | some address =>
      match host.getBlockNumber with
      | .error _ => ([], .error .transport)
      | .ok latestBlock => scanWindows host address celestiaHeight latestBlock startBlock

/-! ## The logs of a chain -/

/-- The L1 block of a log. -/
def Log.block (log : Log) : Nat := log.blockNumber.getD 0

/-- The logs a request asks for. -/
def Filter.matches (f : Filter) (log : Log) : Bool :=
  decide (log.address = f.address ∧ log.topics.head? = some f.eventSignature) &&
    inWindow Log.block f.fromBlock f.toBlock log

/-- **A commitment to the height**: a `DataCommitmentStored` event of the contract that can
be decoded and contains it. -/
def commits (address : Address) (celestiaHeight : Nat) (log : Log) : Bool :=
  decide (log.address = address ∧ log.topics.head? = some host.eventSelector ∧
    verifyDataCommitmentEvent host log celestiaHeight = some true)

/-- The first commitment to the height from one L1 block to another. -/
def firstCommitment (address : Address) (logs : List Log) (celestiaHeight lo hi : Nat) :
    Option Log :=
  firstIn Log.block (commits host address celestiaHeight) logs lo hi

/-- **What the L1 provider serves**: the latest block, and for each window the logs of the
chain in it, in chain order.  A window that ends before it starts has none. -/
structure ServesLogs (address : Address) (logs : List Log) (latestBlock : Nat) : Prop where
  loaded : host.rollupConfigLoaded = true
  address : host.blobstreamAddress host.l1ChainId = some address
  latest : host.getBlockNumber = .ok latestBlock
  window : ∀ f : Filter, f.fromBlock ≤ f.toBlock →
    host.getLogs f = .ok (logs.filter f.matches)
  reversed : ∀ f : Filter, f.toBlock < f.fromBlock → ∀ found, host.getLogs f = .ok found →
    found = []
  ordered : Ordered Log.block logs
  mined : ∀ log ∈ logs, log.blockNumber = some log.block
  topics : ∀ log ∈ logs, log.topics.length ≤ 4

variable {host} {address : Address} {logs : List Log} {celestiaHeight latestBlock : Nat}
  {startBlock currentStart lo hi : Nat} {log : Log}

/-- **The logs of one window** are passed over up to the first commitment, undecodable
ones too. -/
theorem scanLogs_eq (hmined : ∀ log ∈ logs, log.blockNumber = some log.block)
    (htopics : ∀ log ∈ logs, log.topics.length ≤ 4)
    (hevent : ∀ log ∈ logs, log.topics.head? = some host.eventSelector) :
    scanLogs host address celestiaHeight logs =
      .ok ((logs.find? (commits host address celestiaHeight)).map Log.block) := by
  induction logs with
  | nil => rfl
  | cons log logs ih =>
    have hrest := ih (fun l hl => hmined l (List.mem_cons_of_mem _ hl))
      (fun l hl => htopics l (List.mem_cons_of_mem _ hl))
      (fun l hl => hevent l (List.mem_cons_of_mem _ hl))
    have hblock := hmined log List.mem_cons_self
    have hfour := htopics log List.mem_cons_self
    have hselector := hevent log List.mem_cons_self
    by_cases haddress : log.address = address
    · rw [scanLogs, if_pos haddress]
      simp only [hblock, if_neg (Nat.not_lt.mpr hfour)]
      by_cases hcommits : verifyDataCommitmentEvent host log celestiaHeight = some true
      · have hfirst : commits host address celestiaHeight log = true :=
          decide_eq_true ⟨haddress, hselector, hcommits⟩
        rw [List.find?_cons_of_pos hfirst, hcommits]
        rfl
      · have hfirst : ¬ commits host address celestiaHeight log = true :=
          fun h => hcommits (of_decide_eq_true h).2.2
        rw [List.find?_cons_of_neg hfirst]
        cases hverify : verifyDataCommitmentEvent host log celestiaHeight with
        | none => exact hrest
        | some inside =>
          cases inside with
          | false => exact hrest
          | true => exact absurd hverify hcommits
    · have hfirst : ¬ commits host address celestiaHeight log = true :=
        fun h => haddress (of_decide_eq_true h).1
      rw [scanLogs, if_neg haddress, List.find?_cons_of_neg hfirst]
      exact hrest

/-- A window of the chain gives its first commitment. -/
theorem ServesLogs.scanLogs_window (h : ServesLogs host address logs latestBlock)
    (celestiaHeight : Nat) (hle : lo ≤ hi) :
    ∃ found, host.getLogs ⟨address, host.eventSelector, lo, hi⟩ = .ok found ∧
      scanLogs host address celestiaHeight found =
        .ok ((firstCommitment host address logs celestiaHeight lo hi).map Log.block) := by
  refine ⟨_, h.window _ hle, ?_⟩
  have hsub : ∀ log ∈ logs.filter (Filter.matches ⟨address, host.eventSelector, lo, hi⟩),
      log ∈ logs ∧ log.topics.head? = some host.eventSelector := by
    intro log hlog
    obtain ⟨hmem, hmatches⟩ := List.mem_filter.mp hlog
    exact ⟨hmem, (of_decide_eq_true (Bool.and_eq_true_iff.mp hmatches).1).2⟩
  rw [scanLogs_eq (fun log hlog => h.mined log (hsub log hlog).1)
    (fun log hlog => h.topics log (hsub log hlog).1) fun log hlog => (hsub log hlog).2]
  rw [firstCommitment, firstIn, List.find?_filter, List.find?_filter]
  congr 3
  funext log
  -- What the filter asks for besides the window is part of being a commitment.
  by_cases hcommits : commits host address celestiaHeight log = true
  · have hevent := of_decide_eq_true hcommits
    simp [Filter.matches, hevent.1, hevent.2.1]
  · simp [hcommits]

/-! ## Window by window -/

theorem scanWindows_of_over (hover : 2 ^ 64 ≤ currentStart + filterBlockRange) :
    scanWindows host address celestiaHeight latestBlock currentStart = ([], .error .panic) := by
  rw [scanWindows, if_pos hover]

/-- A window with a commitment ends the scan. -/
theorem ServesLogs.scanWindows_of_some (h : ServesLogs host address logs latestBlock)
    (hle : currentStart ≤ latestBlock) (hfits : currentStart + filterBlockRange < 2 ^ 64)
    (hfirst : firstCommitment host address logs celestiaHeight currentStart
      (min (currentStart + filterBlockRange - 1) latestBlock) = some log) :
    scanWindows host address celestiaHeight latestBlock currentStart =
      ([(currentStart, min (currentStart + filterBlockRange - 1) latestBlock)],
        .ok log.block) := by
  obtain ⟨found, hlogs, hscan⟩ := h.scanLogs_window celestiaHeight
    (show currentStart ≤ min (currentStart + filterBlockRange - 1) latestBlock by
      have hpositive := filterBlockRange_pos
      omega)
  rw [hfirst] at hscan
  rw [scanWindows, if_neg (Nat.not_le.mpr hfits)]
  simp only [hlogs, hscan, Option.map_some]

/-- The last window without a commitment ends it, too. -/
theorem ServesLogs.scanWindows_of_last (h : ServesLogs host address logs latestBlock)
    (hle : currentStart ≤ latestBlock) (hfits : currentStart + filterBlockRange < 2 ^ 64)
    (hlast : latestBlock < currentStart + filterBlockRange)
    (hfirst : firstCommitment host address logs celestiaHeight currentStart latestBlock = none) :
    scanWindows host address celestiaHeight latestBlock currentStart =
      ([(currentStart, latestBlock)],
        .error (.reachedLatestBlock latestBlock celestiaHeight)) := by
  have hend : min (currentStart + filterBlockRange - 1) latestBlock = latestBlock := by omega
  obtain ⟨found, hlogs, hscan⟩ := h.scanLogs_window celestiaHeight hle
  rw [hfirst] at hscan
  rw [scanWindows, if_neg (Nat.not_le.mpr hfits)]
  simp only [hend, hlogs, hscan, Option.map_none, if_pos (Nat.lt_succ_self latestBlock)]

/-- Any other window is followed by the next one. -/
theorem ServesLogs.scanWindows_of_next (h : ServesLogs host address logs latestBlock)
    (hfits : currentStart + filterBlockRange < 2 ^ 64)
    (hnext : currentStart + filterBlockRange ≤ latestBlock)
    (hfirst : firstCommitment host address logs celestiaHeight currentStart
      (currentStart + filterBlockRange - 1) = none) :
    scanWindows host address celestiaHeight latestBlock currentStart =
      ((currentStart, currentStart + filterBlockRange - 1) ::
          (scanWindows host address celestiaHeight latestBlock
            (currentStart + filterBlockRange)).1,
        (scanWindows host address celestiaHeight latestBlock
          (currentStart + filterBlockRange)).2) := by
  have hpositive := filterBlockRange_pos
  have hend : min (currentStart + filterBlockRange - 1) latestBlock =
      currentStart + filterBlockRange - 1 := by omega
  have hstart : currentStart + filterBlockRange - 1 + 1 = currentStart + filterBlockRange := by
    omega
  obtain ⟨found, hlogs, hscan⟩ := h.scanLogs_window celestiaHeight
    (show currentStart ≤ currentStart + filterBlockRange - 1 by omega)
  rw [hfirst] at hscan
  rw [scanWindows, if_neg (Nat.not_le.mpr hfits)]
  simp only [hend, hlogs, hscan, Option.map_none, hstart, if_neg (Nat.not_lt.mpr hnext)]

/-! ## The first commitment is found -/

/-- **The scan finds the first commitment**: an outcome with its block if there is one up to
the latest block, and with an error if not; the windows asked for hold no block twice, and
none outside the blocks to scan. -/
structure CommitmentFound (host : Host) (address : Address) (logs : List Log)
    (celestiaHeight startBlock latestBlock : Nat)
    (outcome : List (Nat × Nat) × Except CelestiaError Nat) : Prop where
  found : ∀ log, firstCommitment host address logs celestiaHeight startBlock latestBlock =
    some log → outcome.2 = .ok log.block
  missing : firstCommitment host address logs celestiaHeight startBlock latestBlock = none →
    ∃ e, outcome.2 = .error e ∧ e ≠ .panic
  once : startBlock ≤ latestBlock → outcome.1.Pairwise (fun w w' => w.2 < w'.1) ∧
    ∀ w ∈ outcome.1, startBlock ≤ w.1 ∧ w.1 ≤ w.2 ∧ w.2 ≤ latestBlock

/-- **Every window computed fits**: if the end of one leaves the `u64`s, there is a
commitment in a window before it. -/
def WindowsFit (host : Host) (address : Address) (logs : List Log)
    (celestiaHeight startBlock latestBlock : Nat) : Prop :=
  ∀ k, (k = 0 ∨ startBlock + k * filterBlockRange ≤ latestBlock) →
    2 ^ 64 ≤ startBlock + k * filterBlockRange + filterBlockRange →
    ∃ log ∈ logs, (startBlock ≤ log.block ∧ log.block < startBlock + k * filterBlockRange) ∧
      commits host address celestiaHeight log = true

/-- The first window fits. -/
theorem WindowsFit.first (h : WindowsFit host address logs celestiaHeight startBlock latestBlock) :
    startBlock + filterBlockRange < 2 ^ 64 := by
  by_contra hover
  obtain ⟨log, -, ⟨hlo, hhi⟩, -⟩ := h 0 (.inl rfl) (by omega)
  omega

/-- No window but the first is computed. -/
theorem windowsFit_of_last (hfits : startBlock + filterBlockRange < 2 ^ 64)
    (hlast : latestBlock < startBlock + filterBlockRange) :
    WindowsFit host address logs celestiaHeight startBlock latestBlock := by
  intro k hk hover
  cases k with
  | zero => omega
  | succ k =>
    rw [Nat.succ_mul] at hk
    omega

theorem windowsFit_of_some (hfits : startBlock + filterBlockRange < 2 ^ 64)
    (hfirst : firstCommitment host address logs celestiaHeight startBlock
      (startBlock + filterBlockRange - 1) = some log) :
    WindowsFit host address logs celestiaHeight startBlock latestBlock := by
  obtain ⟨hmem, ⟨hlo, hhi⟩, hcommits⟩ := firstIn_some hfirst
  have hpositive := filterBlockRange_pos
  intro k hk hover
  cases k with
  | zero => omega
  | succ k =>
    refine ⟨log, hmem, ⟨hlo, ?_⟩, hcommits⟩
    rw [Nat.succ_mul]
    omega

/-- After a window without a commitment the windows from the next one on count. -/
theorem windowsFit_next (hfits : startBlock + filterBlockRange < 2 ^ 64)
    (hnext : startBlock + filterBlockRange ≤ latestBlock)
    (hfirst : firstCommitment host address logs celestiaHeight startBlock
      (startBlock + filterBlockRange - 1) = none) :
    WindowsFit host address logs celestiaHeight (startBlock + filterBlockRange) latestBlock ↔
      WindowsFit host address logs celestiaHeight startBlock latestBlock := by
  have hshift (k : Nat) : startBlock + filterBlockRange + k * filterBlockRange =
      startBlock + (k + 1) * filterBlockRange := by
    rw [Nat.succ_mul]
    omega
  constructor
  · intro h k hk hover
    cases k with
    | zero => omega
    | succ k =>
      rw [← hshift] at hk hover
      obtain ⟨log, hmem, ⟨hlo, hhi⟩, hcommits⟩ := h k (.inr (by omega)) hover
      rw [hshift] at hhi
      exact ⟨log, hmem, ⟨by omega, hhi⟩, hcommits⟩
  · intro h k hk hover
    have hle : startBlock + (k + 1) * filterBlockRange ≤ latestBlock := by
      rw [← hshift]
      rcases hk with rfl | hk
      · omega
      · exact hk
    rw [hshift] at hover
    obtain ⟨log, hmem, ⟨hlo, hhi⟩, hcommits⟩ := h (k + 1) (.inr hle) hover
    refine ⟨log, hmem, ⟨?_, hshift k ▸ hhi⟩, hcommits⟩
    -- A commitment before the next window would lie in this one.
    by_contra hbefore
    have hsome := firstIn_isSome_iff.mpr ⟨log, hmem, ⟨hlo, (by omega :
      log.block ≤ startBlock + filterBlockRange - 1)⟩, hcommits⟩
    rw [show firstIn _ _ _ _ _ = none from hfirst] at hsome
    cases hsome

/-- A window without a commitment is passed over. -/
theorem commitmentFound_next {outcome : List (Nat × Nat) × Except CelestiaError Nat}
    (hordered : Ordered Log.block logs)
    (hnext : startBlock + filterBlockRange ≤ latestBlock)
    (hfirst : firstCommitment host address logs celestiaHeight startBlock
      (startBlock + filterBlockRange - 1) = none) :
    CommitmentFound host address logs celestiaHeight (startBlock + filterBlockRange) latestBlock
        outcome ↔
      CommitmentFound host address logs celestiaHeight startBlock latestBlock
        ((startBlock, startBlock + filterBlockRange - 1) :: outcome.1, outcome.2) := by
  have hpositive := filterBlockRange_pos
  have hstart : startBlock + filterBlockRange - 1 + 1 = startBlock + filterBlockRange := by omega
  have hsame : firstCommitment host address logs celestiaHeight startBlock latestBlock =
      firstCommitment host address logs celestiaHeight (startBlock + filterBlockRange)
        latestBlock := by
    rw [firstCommitment, firstIn_of_none hordered (by omega) (by omega) hfirst, hstart]
    rfl
  constructor
  · intro h
    obtain ⟨hpairwise, hwithin⟩ := h.once hnext
    refine ⟨hsame ▸ h.found, hsame ▸ h.missing, fun _ => ⟨?_, ?_⟩⟩
    · refine List.pairwise_cons.mpr ⟨fun w hw => ?_, hpairwise⟩
      have hafter := (hwithin w hw).1
      show startBlock + filterBlockRange - 1 < w.1
      omega
    · intro w hw
      rcases List.mem_cons.mp hw with rfl | hw
      · exact ⟨Nat.le_refl _, by show startBlock ≤ startBlock + filterBlockRange - 1; omega,
          by show startBlock + filterBlockRange - 1 ≤ latestBlock; omega⟩
      · obtain ⟨hlo, hne, hhi⟩ := hwithin w hw
        exact ⟨by omega, hne, hhi⟩
  · intro h
    obtain ⟨hpairwise, hwithin⟩ := h.once (by omega)
    obtain ⟨hafter, hpairwise⟩ := List.pairwise_cons.mp hpairwise
    refine ⟨hsame ▸ h.found, hsame ▸ h.missing, fun _ => ⟨hpairwise, fun w hw => ?_⟩⟩
    have hlt : startBlock + filterBlockRange - 1 < w.1 := hafter w hw
    obtain ⟨-, hne, hhi⟩ := hwithin w (List.mem_cons_of_mem _ hw)
    exact ⟨by omega, hne, hhi⟩

/-- A commitment found in one window. -/
theorem commitmentFound_of_some (hle : startBlock ≤ hi) (hhi : hi ≤ latestBlock)
    (hfirst : firstCommitment host address logs celestiaHeight startBlock latestBlock = some log) :
    CommitmentFound host address logs celestiaHeight startBlock latestBlock
      ([(startBlock, hi)], .ok log.block) := by
  refine ⟨fun log' hlog' => ?_, fun hnone => ?_, fun _ => ⟨List.pairwise_singleton _ _, ?_⟩⟩
  · obtain rfl := Option.some.inj (hfirst.symm.trans hlog')
    rfl
  · cases hfirst.symm.trans hnone
  · exact fun w hw => List.mem_singleton.mp hw ▸ ⟨Nat.le_refl _, hle, hhi⟩

/-- No commitment, and an error after one window, or after a window that ends before it
starts. -/
theorem commitmentFound_of_none {e : CelestiaError} (hhi : hi = latestBlock) (he : e ≠ .panic)
    (hfirst : firstCommitment host address logs celestiaHeight startBlock latestBlock = none) :
    CommitmentFound host address logs celestiaHeight startBlock latestBlock
      ([(startBlock, hi)], .error e) := by
  subst hhi
  refine ⟨fun log' hlog' => ?_, fun _ => ⟨e, rfl, he⟩,
    fun hle => ⟨List.pairwise_singleton _ _, ?_⟩⟩
  · cases hfirst.symm.trans hlog'
  · exact fun w hw => List.mem_singleton.mp hw ▸ ⟨Nat.le_refl _, hle, Nat.le_refl _⟩

/-- A panic is neither outcome. -/
theorem not_commitmentFound_panic {windows : List (Nat × Nat)} :
    ¬ CommitmentFound host address logs celestiaHeight startBlock latestBlock
      (windows, .error .panic) := by
  intro hfound
  cases hfirst : firstCommitment host address logs celestiaHeight startBlock latestBlock with
  | some log => cases hfound.found log hfirst
  | none =>
    obtain ⟨e, he, hne⟩ := hfound.missing hfirst
    cases he
    exact hne rfl

/-- A first window that does not fit. -/
theorem scanWindows_iff_of_over (hover : 2 ^ 64 ≤ startBlock + filterBlockRange) :
    CommitmentFound host address logs celestiaHeight startBlock latestBlock
        (scanWindows host address celestiaHeight latestBlock startBlock) ↔
      WindowsFit host address logs celestiaHeight startBlock latestBlock := by
  rw [scanWindows_of_over hover]
  exact iff_of_false not_commitmentFound_panic fun hfit => Nat.not_lt.mpr hover hfit.first

/-- **The loop of the scan**, from the window of `startBlock` on. -/
theorem ServesLogs.scanWindows_iff (h : ServesLogs host address logs latestBlock)
    (celestiaHeight : Nat) (hle : startBlock ≤ latestBlock) :
    CommitmentFound host address logs celestiaHeight startBlock latestBlock
        (scanWindows host address celestiaHeight latestBlock startBlock) ↔
      WindowsFit host address logs celestiaHeight startBlock latestBlock := by
  have hpositive := filterBlockRange_pos
  -- The induction is on the number of blocks that are left to scan.
  induction hleft : latestBlock - startBlock using Nat.strongRecOn generalizing startBlock with
  | ind left ih =>
  subst hleft
  by_cases hfits : startBlock + filterBlockRange < 2 ^ 64
  · by_cases hlast : latestBlock < startBlock + filterBlockRange
    · have hwindow : min (startBlock + filterBlockRange - 1) latestBlock = latestBlock := by omega
      refine iff_of_true ?_ (windowsFit_of_last hfits hlast)
      cases hfirst : firstCommitment host address logs celestiaHeight startBlock latestBlock with
      | some log =>
        rw [h.scanWindows_of_some hle hfits (by rw [hwindow]; exact hfirst), hwindow]
        exact commitmentFound_of_some hle (Nat.le_refl _) hfirst
      | none =>
        rw [h.scanWindows_of_last hle hfits hlast hfirst]
        exact commitmentFound_of_none rfl (fun he => nomatch he) hfirst
    · have hnext : startBlock + filterBlockRange ≤ latestBlock := Nat.not_lt.mp hlast
      have hwindow : min (startBlock + filterBlockRange - 1) latestBlock =
          startBlock + filterBlockRange - 1 := by omega
      have hlo : startBlock ≤ startBlock + filterBlockRange - 1 := by omega
      have hwithin : startBlock ≤ startBlock + filterBlockRange - 1 + 1 := by omega
      have hfewer : latestBlock - (startBlock + filterBlockRange) < latestBlock - startBlock := by
        omega
      have hhi : startBlock + filterBlockRange - 1 ≤ latestBlock := by omega
      cases hfirst : firstCommitment host address logs celestiaHeight startBlock
          (startBlock + filterBlockRange - 1) with
      | some log =>
        refine iff_of_true ?_ (windowsFit_of_some hfits hfirst)
        rw [h.scanWindows_of_some hle hfits (by rw [hwindow]; exact hfirst), hwindow]
        exact commitmentFound_of_some hlo hhi
          (firstIn_of_some h.ordered hwithin hhi hfirst)
      | none =>
        rw [h.scanWindows_of_next hfits hnext hfirst, ← commitmentFound_next h.ordered hnext hfirst,
          ← windowsFit_next hfits hnext hfirst]
        exact ih _ hfewer hnext rfl
  · exact scanWindows_iff_of_over (Nat.not_lt.mp hfits)

/-- A start after the latest block gives one window that ends before it starts. -/
theorem ServesLogs.scanWindows_of_after (h : ServesLogs host address logs latestBlock)
    (celestiaHeight : Nat) (hlt : latestBlock < startBlock)
    (hfits : startBlock + filterBlockRange < 2 ^ 64) :
    ∃ e, e ≠ .panic ∧ scanWindows host address celestiaHeight latestBlock startBlock =
      ([(startBlock, latestBlock)], .error e) := by
  have hpositive := filterBlockRange_pos
  have hend : min (startBlock + filterBlockRange - 1) latestBlock = latestBlock := by omega
  rw [scanWindows, if_neg (Nat.not_le.mpr hfits)]
  simp only [hend]
  cases hlogs : host.getLogs ⟨address, host.eventSelector, startBlock, latestBlock⟩ with
  | error e => exact ⟨.transport, nofun, rfl⟩
  | ok found =>
    obtain rfl := h.reversed _ hlt found hlogs
    refine ⟨.reachedLatestBlock latestBlock celestiaHeight, nofun, ?_⟩
    simp only [scanLogs, if_pos (Nat.lt_succ_self latestBlock)]

/-- The scan of the blocks up to the latest one. -/
theorem ServesLogs.find_eq (h : ServesLogs host address logs latestBlock) :
    findMinimumBlobstreamBlock host celestiaHeight startBlock =
      scanWindows host address celestiaHeight latestBlock startBlock := by
  simp only [findMinimumBlobstreamBlock, h.loaded, h.address, h.latest, Bool.true_eq_false,
    if_false]

/-- **The scan finds the first commitment exactly when every window fits.** -/
theorem blobstream_scan_iff (h : ServesLogs host address logs latestBlock)
    (celestiaHeight startBlock : Nat) :
    CommitmentFound host address logs celestiaHeight startBlock latestBlock
        (findMinimumBlobstreamBlock host celestiaHeight startBlock) ↔
      WindowsFit host address logs celestiaHeight startBlock latestBlock := by
  rw [h.find_eq]
  rcases Nat.lt_or_ge latestBlock startBlock with hlt | hle
  · by_cases hfits : startBlock + filterBlockRange < 2 ^ 64
    · obtain ⟨e, he, hresult⟩ := h.scanWindows_of_after celestiaHeight hlt hfits
      rw [hresult]
      exact iff_of_true (commitmentFound_of_none rfl he (firstIn_of_lt hlt))
        (windowsFit_of_last hfits (by omega))
    · exact scanWindows_iff_of_over (Nat.not_lt.mp hfits)
  · exact h.scanWindows_iff celestiaHeight hle

/-! An event that cannot be decoded, one for other heights in the same block as another one,
and the commitment to height 70 in the second window. -/

def exampleAddress : Address := 0xb1

def exampleLog (blockNumber : Nat) (data : Bytes) : Log :=
  ⟨exampleAddress, [1], data, some blockNumber⟩

def exampleLogs : List Log :=
  [exampleLog 10 [], exampleLog 4990 [1, 50], exampleLog 4990 [51, 60], exampleLog 5100 [61, 80],
    exampleLog 5300 [81, 90]]

def exampleHost (startBlock : Nat) : Host where
  l1Provider _ := .ok none
  l2Provider _ := .ok none
  l1OriginAtBlock n := .ok n
  safeHeadAtL1Block _ := .error .transport
  rollupConfigLoaded := true
  l1ChainId := 1
  getBlockNumber := .ok 6000
  getLogs f := .ok (exampleLogs.filter f.matches)
  indexer _ := .ok ⟨none, some (some ⟨70, startBlock⟩)⟩
  blobstreamAddress chainId := if chainId = 1 then some exampleAddress else none
  keccak256 _ := 1
  decodeLog log :=
    match log.data with
    | [lo, hi] => some ⟨lo.toNat, hi.toNat⟩
    | _ => none

theorem exampleHost_serves (startBlock : Nat) :
    ServesLogs (exampleHost startBlock) exampleAddress exampleLogs 6000 where
  loaded := rfl
  address := rfl
  latest := rfl
  window _ _ := rfl
  reversed := by
    intro f hf found hfound
    obtain rfl := Except.ok.inj hfound
    rw [List.filter_eq_nil_iff]
    intro log _ hmatches
    have hwithin := inWindow_iff.mp (Bool.and_eq_true_iff.mp hmatches).2
    omega
  ordered := by
    show List.Pairwise _ _
    decide
  mined := by decide
  topics := by decide

theorem blobstream_scan_example :
    CommitmentFound (exampleHost 1) exampleAddress exampleLogs 70 1 6000
      (findMinimumBlobstreamBlock (exampleHost 1) 70 1) := by
  refine (blobstream_scan_iff (exampleHost_serves 1) 70 1).mpr fun k hk hover => ?_
  unfold filterBlockRange at *
  omega

/-- **The failing input.**  The indexer names the last block number, and the sum for the end
of the first window leaves the `u64`s. -/
theorem window_end_overflows :
    ServesLogs (exampleHost (2 ^ 64 - 1)) exampleAddress exampleLogs 6000 ∧
      ¬ CommitmentFound (exampleHost (2 ^ 64 - 1)) exampleAddress exampleLogs 70 (2 ^ 64 - 1) 6000
        (findMinimumBlobstreamBlock (exampleHost (2 ^ 64 - 1)) 70 (2 ^ 64 - 1)) := by
  refine ⟨exampleHost_serves _, fun hfound => ?_⟩
  have hover : 2 ^ 64 ≤ 2 ^ 64 - 1 + filterBlockRange := by
    unfold filterBlockRange
    decide
  rw [(exampleHost_serves _).find_eq, scanWindows_of_over hover] at hfound
  exact not_commitmentFound_panic hfound

end OpSuccinct.Celestia
