import OpSuccinct.Bisection
import OpSuccinct.Evm

/-! # The data fetcher

The block searches of `fetcher.rs`, and the functions of the host that rest on them.  What
an RPC endpoint answers is a function of the request, or an error, for as long as one
search takes.  Block numbers and timestamps are `u64`s: a sum that leaves them is
`arithmetic`, the panic of a build with overflow checks, as tests and development use it.  The
release build of the Dockerfiles wraps there.

Of a block the searches use the number, the hash and the timestamp, of the output at an L2
block its L1 origin, and of the answer about an L1 block the block it names and the safe
head.
-/
namespace OpSuccinct.Fetcher

open Bisection

/-! ## What is fetched -/

inductive BlockId
  | finalized
  | number (n : Nat)
  deriving DecidableEq, Repr

structure Block where
  number : Nat
  hash : Bytes32
  timestamp : Nat
  deriving DecidableEq

/-- `optimism_safeHeadAtL1Block`: an L1 block, and the L2 safe head at it. -/
structure SafeHeadResponse where
  l1Block : Bytes32 × Nat
  safeHead : Nat
  deriving DecidableEq

inductive FetchError
  | transport
  /-- "Failed to get latest block" -/
  | failedToGetLatestBlock
  /-- "Failed to get block for block {mid}" -/
  | failedToGetBlock (number : Nat)
  /-- "Failed to get L1 header for block {block_number}", also for an L2 header. -/
  | failedToGetL1Header (id : BlockId)
  /-- "Could not find an L1 block with an L2 safe head greater than the L2 end block." -/
  | noSafeL1Block
  /-- "Rollup config not loaded." -/
  | rollupConfigNotLoaded
  /-- "SafeDB is not activated on your op-node and the `SAFE_DB_FALLBACK` flag is set to
  false. ..." -/
  | safeDbNotActivated (e : FetchError)
  | arithmetic
  deriving DecidableEq

/-- `get_block` of one chain. -/
abbrev Provider := BlockId → Except FetchError (Option Block)

/-- `OPSuccinctDataFetcher`: its two chains, the two methods of the L2 node that the
searches call, and whether the rollup config is loaded. -/
structure DataFetcher where
  l1Provider : Provider
  l2Provider : Provider
  /-- The number of the L1 origin in `optimism_outputAtBlock`. -/
  l1OriginAtBlock : Nat → Except FetchError Nat
  safeHeadAtL1Block : Nat → Except FetchError SafeHeadResponse
  rollupConfigLoaded : Bool

/-- `get_l1_header` and `get_l2_header`. -/
def getHeader (provider : Provider) (id : BlockId) : Except FetchError Block := do
  match ← provider id with
  | some block => pure block
  | none => throw (.failedToGetL1Header id)

/-! ## Block by timestamp -/

/-- The loop of `find_block_by_timestamp`. -/
def timestampSearch (provider : Provider) (targetTimestamp : Nat) :
    Search FetchError Unit (Bytes32 × Nat) where
  limit := 2 ^ 64
  overflow := .arithmetic
  sumFits low high := decide (low + high < 2 ^ 64)
  probe mid _ := do
    match ← provider (.number mid) with
    | some block =>
      match compare block.timestamp targetTimestamp with
      | .eq => pure (.stop (block.hash, block.number))
      | .lt => pure (.higher ())
      | .gt => pure (.lower ())
    | none => throw (.failedToGetBlock mid)

/-- `find_block_by_timestamp`; `find_l1_block_by_timestamp` and its sibling for the L2 pass
their provider. -/
def findBlockByTimestamp (provider : Provider) (targetTimestamp : Nat) :
    Except FetchError (Bytes32 × Nat) := do
  match ← provider .finalized with
  | none => throw .failedToGetLatestBlock
  | some latest =>
    match ← (timestampSearch provider targetTimestamp).run 0 latest.number () with
    | .stopped found => pure found
    | .crossed low _ =>
      -- the closest block after the target timestamp
      match ← provider (.number low) with
      | some block => pure (block.hash, block.number)
      | none => throw (.failedToGetBlock low)

/-- `get_rolling_block_range` of `block_range.rs`, with the interval in seconds. -/
def getRollingBlockRange (fetcher : DataFetcher) (interval range : Nat) :
    Except FetchError (Nat × Nat) := do
  let header ← getHeader fetcher.l2Provider .finalized
  require (interval ≠ 0) .arithmetic
  let startTimestamp := header.timestamp - header.timestamp % interval
  let (_, l2StartBlock) ← findBlockByTimestamp fetcher.l2Provider startTimestamp
  let l2EndBlock ← checkedAdd 64 .arithmetic l2StartBlock range
  pure (l2StartBlock, l2EndBlock)

/-! ## Safe L1 head -/

/-- The loop of `get_safe_l1_block_for_l2_block`, which keeps the last block it found. -/
def safeHeadSearch (fetcher : DataFetcher) (l2EndBlock : Nat) :
    Search FetchError (Option (Bytes32 × Nat)) Empty where
  limit := 2 ^ 64
  overflow := .arithmetic
  sumFits _ _ := true
  probe mid firstValid := do
    let result ← fetcher.safeHeadAtL1Block mid
    if l2EndBlock ≤ result.safeHead then pure (.lower (some result.l1Block))
    else pure (.higher firstValid)

/-- `get_safe_l1_block_for_l2_block`. -/
def getSafeL1BlockForL2Block (fetcher : DataFetcher) (l2EndBlock : Nat) :
    Except FetchError (Bytes32 × Nat) := do
  let latestL1Header ← getHeader fetcher.l1Provider .finalized
  let l1Origin ← fetcher.l1OriginAtBlock l2EndBlock
  match ← (safeHeadSearch fetcher l2EndBlock).run l1Origin latestL1Header.number none with
  | .crossed _ (some found) => pure found
  | .crossed _ none => throw .noSafeL1Block
  | .stopped r => nomatch r

/-- `max_batch_post_delay_minutes`. -/
def maxBatchPostDelayMinutes : Nat := 40

/-- `get_l1_head`: where the safe head database does not answer, a flag allows for an
estimate by the timestamp. -/
def getL1Head (fetcher : DataFetcher) (l2EndBlock : Nat) (safeDbFallback : Bool) :
    Except FetchError (Bytes32 × Nat) := do
  require (fetcher.rollupConfigLoaded = true) .rollupConfigNotLoaded
  match getSafeL1BlockForL2Block fetcher l2EndBlock with
  | .ok safeHead => pure safeHead
  -- a panic is not caught
  | .error .arithmetic => throw .arithmetic
  | .error e =>
    if safeDbFallback = true then do
      let l2Block ← getHeader fetcher.l2Provider (.number l2EndBlock)
      let finalizedL1 ← getHeader fetcher.l1Provider .finalized
      let latest ← checkedAdd 64 .arithmetic l2Block.timestamp (maxBatchPostDelayMinutes * 60)
      findBlockByTimestamp fetcher.l1Provider (min latest finalizedL1.timestamp)
    else throw (.safeDbNotActivated e)

/-- `calculate_safe_l1_head` of the host for Ethereum DA.  The chain may go on before the
headers are fetched, so `later` answers for them. -/
def calculateSafeL1Head (fetcher later : DataFetcher) (l2EndBlock : Nat) (safeDbFallback : Bool) :
    Except FetchError Bytes32 := do
  let (_, l1HeadNumber) ← getL1Head fetcher l2EndBlock safeDbFallback
  let l1HeadNumber ← checkedAdd 64 .arithmetic l1HeadNumber 20
  let finalizedL1Header ← getHeader later.l1Provider .finalized
  let header ← getHeader later.l1Provider (.number (min l1HeadNumber finalizedL1Header.number))
  pure header.hash

/-! ## Chains -/

/-- **What a provider serves**: the blocks of a chain up to the finalized one, `top`. -/
structure Serves (provider : Provider) (chain : Nat → Block) (top : Nat) : Prop where
  finalized : provider .finalized = .ok (some (chain top))
  block : ∀ n ≤ top, provider (.number n) = .ok (some (chain n))
  number : ∀ n, (chain n).number = n

variable {provider : Provider} {chain : Nat → Block} {top : Nat}

theorem Serves.getHeader_finalized (h : Serves provider chain top) :
    getHeader provider .finalized = .ok (chain top) := by
  rw [getHeader, h.finalized]
  rfl

theorem Serves.getHeader_number (h : Serves provider chain top) {n : Nat}
    (hn : n ≤ top) : getHeader provider (.number n) = .ok (chain n) := by
  rw [getHeader, h.block n hn]
  rfl

end OpSuccinct.Fetcher
