import Mathlib.Logic.Function.Basic
import OpSuccinct.CheckedArith
import OpSuccinct.Evm

/-! # The L2 output oracle

`OPSuccinctL2OutputOracle.sol`, function by function.  The dynamic array
`l2Outputs` is kept as the EVM keeps it, a length and storage slots:
`deleteL2Outputs` lowers the length and leaves the slots as they are, `push`
writes the slot at the length.

The contract sits behind a proxy: `initialize` runs once for each initializer
version, which an upgrade may raise.  L1 block hashes come from the canonical
chain, of which `blockhash` sees the last 256 blocks.
-/
namespace OpSuccinct.OutputOracle

/-! ## Data -/

/-- The reverts of the contract: `require` with a reason, the two custom errors,
and what the compiler adds. -/
inductive OracleError
  | revert (reason : String)
  | l1BlockHashNotAvailable
  | l1BlockHashNotCheckpointed
  | nonPayable
  | panic
  | callReverted
  deriving DecidableEq

/-- `Types.OutputProposal`; the numbers are `uint128`. -/
structure OutputProposal where
  outputRoot : Bytes32
  timestamp : Nat
  l2BlockNumber : Nat
  deriving DecidableEq

structure OpSuccinctConfig where
  aggregationVkey : Bytes32
  rangeVkeyCommitment : Bytes32
  rollupConfigHash : Bytes32
  deriving DecidableEq

structure InitParams where
  challenger : Address
  proposer : Address
  owner : Address
  finalizationPeriodSeconds : Nat
  l2BlockTime : Nat
  aggregationVkey : Bytes32
  rangeVkeyCommitment : Bytes32
  rollupConfigHash : Bytes32
  startingOutputRoot : Bytes32
  startingBlockNumber : Nat
  startingTimestamp : Nat
  submissionInterval : Nat
  verifier : Address
  fallbackTimeout : Nat

/-- The contract's storage, with the version its initializer ran for. -/
structure Oracle where
  initializedVersion : Nat
  startingBlockNumber : Nat
  startingTimestamp : Nat
  l2OutputsLength : Nat
  l2OutputsSlot : Nat → OutputProposal
  submissionInterval : Nat
  l2BlockTime : Nat
  challenger : Address
  finalizationPeriodSeconds : Nat
  verifier : Address
  owner : Address
  approvedProposers : Address → Bool
  historicBlockHashes : Nat → Bytes32
  optimisticMode : Bool
  fallbackTimeout : Nat
  opSuccinctConfigs : Bytes32 → OpSuccinctConfig

/-- The storage of a proxy that was never initialized. -/
def Oracle.fresh : Oracle where
  initializedVersion := 0
  startingBlockNumber := 0
  startingTimestamp := 0
  l2OutputsLength := 0
  l2OutputsSlot := fun _ => ⟨0, 0, 0⟩
  submissionInterval := 0
  l2BlockTime := 0
  challenger := zeroAddress
  finalizationPeriodSeconds := 0
  verifier := zeroAddress
  owner := zeroAddress
  approvedProposers := fun _ => false
  historicBlockHashes := fun _ => 0
  optimisticMode := false
  fallbackTimeout := 0
  opSuccinctConfigs := fun _ => ⟨0, 0, 0⟩

/-- **The context of a call**: the message, the account that sent the
transaction, the L1 block it is in, and what the contract at an address answers
to `verifyProof`. -/
structure Env where
  msg : Msg
  origin : Address
  blockNumber : Nat
  verifyProof : Address → Bytes32 → Bytes → Bytes → Bool

/-- What is fixed for all calls: the canonical L1 block hashes, and
`GENESIS_CONFIG_NAME`, the hash of a fixed text. -/
structure Chain where
  blockHash : Nat → Bytes32
  genesisConfigName : Bytes32

/-- `blockhash(n)`: the hash of one of the last 256 blocks, else zero. -/
def blockhash (chain : Chain) (env : Env) (n : Nat) : Bytes32 :=
  if n < env.blockNumber ∧ env.blockNumber ≤ n + 256 then chain.blockHash n else 0

/-- The initializer version of this implementation. -/
def initializerVersion : Nat := 3

/-! ## Views -/

variable (chain : Chain) (env : Env) (s : Oracle)

/-- `l2Outputs.push(output)`. -/
def Oracle.push (output : OutputProposal) : Oracle :=
  { s with
    l2OutputsLength := s.l2OutputsLength + 1
    l2OutputsSlot := Function.update s.l2OutputsSlot s.l2OutputsLength output }

/-- `latestOutputIndex()`. -/
def latestOutputIndex : Except OracleError Nat := checkedSub .panic s.l2OutputsLength 1

/-- `latestBlockNumber()`. -/
def latestBlockNumber : Nat :=
  if s.l2OutputsLength = 0 then s.startingBlockNumber
  else (s.l2OutputsSlot (s.l2OutputsLength - 1)).l2BlockNumber

/-- `nextBlockNumber()`. -/
def nextBlockNumber : Except OracleError Nat :=
  checkedAdd 256 .panic (latestBlockNumber s) s.submissionInterval

/-- `lastProposalTimestamp()`. -/
def lastProposalTimestamp : Nat :=
  if s.l2OutputsLength = 0 then s.startingTimestamp
  else (s.l2OutputsSlot (s.l2OutputsLength - 1)).timestamp

/-- `computeL2Timestamp(_l2BlockNumber)`. -/
def computeL2Timestamp (l2BlockNumber : Nat) : Except OracleError Nat := do
  let blocks ← checkedSub .panic l2BlockNumber s.startingBlockNumber
  let seconds ← checkedMul 256 .panic blocks s.l2BlockTime
  checkedAdd 256 .panic s.startingTimestamp seconds

/-- `getL2Output(_l2OutputIndex)`, and every other read `l2Outputs[i]`. -/
def getL2Output (l2OutputIndex : Nat) : Except OracleError OutputProposal := do
  require (l2OutputIndex < s.l2OutputsLength) .panic
  pure (s.l2OutputsSlot l2OutputIndex)

/-- The loop of `getL2OutputIndexAfter`, between `lo` and `hi`. -/
def searchOutput (l2BlockNumber lo hi : Nat) : Except OracleError Nat :=
  if lo < hi then do
    require (lo + hi < 2 ^ 256) .panic
    let output ← getL2Output s ((lo + hi) / 2)
    if output.l2BlockNumber < l2BlockNumber then
      searchOutput l2BlockNumber ((lo + hi) / 2 + 1) hi
    else
      searchOutput l2BlockNumber lo ((lo + hi) / 2)
  else
    pure lo
termination_by hi - lo

/-- `getL2OutputIndexAfter(_l2BlockNumber)`. -/
def getL2OutputIndexAfter (l2BlockNumber : Nat) : Except OracleError Nat := do
  require (l2BlockNumber ≤ latestBlockNumber s)
    (.revert "L2OutputOracle: cannot get output for a block that has not been proposed")
  require (0 < s.l2OutputsLength)
    (.revert "L2OutputOracle: cannot get output as no outputs have been proposed yet")
  searchOutput s l2BlockNumber 0 s.l2OutputsLength

/-- `getL2OutputAfter(_l2BlockNumber)`. -/
def getL2OutputAfter (l2BlockNumber : Nat) : Except OracleError OutputProposal := do
  let i ← getL2OutputIndexAfter s l2BlockNumber
  getL2Output s i

/-- `isValidOpSuccinctConfig(_config)`: all three parameters are non-zero. -/
def isValidOpSuccinctConfig (config : OpSuccinctConfig) : Bool :=
  config.aggregationVkey != 0 && config.rangeVkeyCommitment != 0 && config.rollupConfigHash != 0

/-- The proposer must be approved, or the zero address must be, or the fallback
timeout since the last proposal has passed. -/
def mayPropose (proposer : Address) : Except OracleError Unit :=
  if s.approvedProposers proposer = true ∨ s.approvedProposers zeroAddress = true then
    .ok ()
  else do
    let elapsed ← checkedSub .panic env.msg.timestamp (lastProposalTimestamp s)
    require (s.fallbackTimeout < elapsed)
      (.revert "L2OutputOracle: only approved proposers can propose new outputs")

/-! ## The functions -/

/-- `onlyOwner`. -/
def onlyOwner : Except OracleError Unit :=
  require (env.msg.sender = s.owner) (.revert "L2OutputOracle: caller is not the owner")

/-- `whenOptimistic`. -/
def whenOptimistic : Except OracleError Unit :=
  require (s.optimisticMode = true) (.revert "L2OutputOracle: optimistic mode is not enabled")

/-- `whenNotOptimistic`. -/
def whenNotOptimistic : Except OracleError Unit :=
  require (s.optimisticMode = false) (.revert "L2OutputOracle: optimistic mode is enabled")

/-- The starting output, pushed only if there is no output. -/
def pushStarting (params : InitParams) : Oracle :=
  if s.l2OutputsLength = 0 then
    { s.push ⟨params.startingOutputRoot, toUint128 params.startingTimestamp,
        toUint128 params.startingBlockNumber⟩ with
      startingBlockNumber := params.startingBlockNumber
      startingTimestamp := params.startingTimestamp }
  else s

/-- `initialize(_initParams)`, as the initializer of the given version. -/
def initializeOracle (version : Nat) (params : InitParams) : Except OracleError Oracle := do
  require (s.initializedVersion < version)
    (.revert "Initializable: contract is already initialized")
  require (0 < params.submissionInterval)
    (.revert "L2OutputOracle: submission interval must be greater than 0")
  require (0 < params.l2BlockTime)
    (.revert "L2OutputOracle: L2 block time must be greater than 0")
  require (params.startingTimestamp ≤ env.msg.timestamp)
    (.revert "L2OutputOracle: starting L2 timestamp must be less than current time")
  pure { pushStarting s params with
    initializedVersion := version
    submissionInterval := params.submissionInterval
    l2BlockTime := params.l2BlockTime
    challenger := params.challenger
    finalizationPeriodSeconds := params.finalizationPeriodSeconds
    approvedProposers := Function.update s.approvedProposers params.proposer true
    fallbackTimeout := params.fallbackTimeout
    opSuccinctConfigs := Function.update s.opSuccinctConfigs chain.genesisConfigName
      ⟨params.aggregationVkey, params.rangeVkeyCommitment, params.rollupConfigHash⟩
    verifier := params.verifier
    owner := params.owner }

/-- `deleteL2Outputs(_l2OutputIndex)`. -/
def deleteL2Outputs (l2OutputIndex : Nat) : Except OracleError Oracle := do
  require (env.msg.sender = s.challenger)
    (.revert "L2OutputOracle: only the challenger address can delete outputs")
  require (l2OutputIndex < s.l2OutputsLength)
    (.revert "L2OutputOracle: cannot delete outputs after the latest output index")
  let age ← checkedSub .panic env.msg.timestamp (s.l2OutputsSlot l2OutputIndex).timestamp
  require (age < s.finalizationPeriodSeconds)
    (.revert "L2OutputOracle: cannot delete outputs that have already been finalized")
  pure { s with l2OutputsLength := l2OutputIndex }

/-- The public values a proof must commit to, for the latest stored output root. -/
def publicValues (l1BlockHash l2PreRoot outputRoot : Bytes32) (l2BlockNumber : Nat)
    (config : OpSuccinctConfig) (proverAddress : Address) : AggregationOutputs where
  l1Head := l1BlockHash
  l2PreRoot := l2PreRoot
  claimRoot := outputRoot
  claimBlockNum := l2BlockNumber
  rollupConfigHash := config.rollupConfigHash
  rangeVkeyCommitment := config.rangeVkeyCommitment
  proverAddress := proverAddress

/-- `proposeL2Output(_configName, _outputRoot, _l2BlockNumber, _l1BlockNumber,
_proof, _proverAddress)`, the validity mode. -/
def proposeL2Output (configName outputRoot : Bytes32) (l2BlockNumber l1BlockNumber : Nat)
    (proof : Bytes) (proverAddress : Address) : Except OracleError Oracle := do
  whenNotOptimistic s
  mayPropose env s env.origin
  let next ← nextBlockNumber s
  require (next ≤ l2BlockNumber) (.revert
    "L2OutputOracle: block number must be greater than or equal to next expected block number")
  let l2Timestamp ← computeL2Timestamp s l2BlockNumber
  require (l2Timestamp < env.msg.timestamp)
    (.revert "L2OutputOracle: cannot propose L2 output in the future")
  require (outputRoot ≠ 0)
    (.revert "L2OutputOracle: L2 output proposal cannot be the zero hash")
  require (isValidOpSuccinctConfig (s.opSuccinctConfigs configName) = true)
    (.revert "L2OutputOracle: invalid OP Succinct configuration")
  require (s.historicBlockHashes l1BlockNumber ≠ 0) .l1BlockHashNotCheckpointed
  let latest ← latestOutputIndex s
  require (env.verifyProof s.verifier (s.opSuccinctConfigs configName).aggregationVkey
    (publicValues (s.historicBlockHashes l1BlockNumber) (s.l2OutputsSlot latest).outputRoot
      outputRoot l2BlockNumber (s.opSuccinctConfigs configName) proverAddress).abiEncode
    proof = true) .callReverted
  pure (s.push ⟨outputRoot, toUint128 env.msg.timestamp, toUint128 l2BlockNumber⟩)

/-- `proposeL2Output(_outputRoot, _l2BlockNumber, _l1BlockHash, _l1BlockNumber)`,
the optimistic mode. -/
def proposeL2OutputOptimistic (outputRoot : Bytes32) (l2BlockNumber : Nat)
    (l1BlockHash : Bytes32) (l1BlockNumber : Nat) : Except OracleError Oracle := do
  whenOptimistic s
  mayPropose env s env.msg.sender
  let next ← nextBlockNumber s
  require (l2BlockNumber = next)
    (.revert "L2OutputOracle: block number must be equal to next expected block number")
  let l2Timestamp ← computeL2Timestamp s l2BlockNumber
  require (l2Timestamp < env.msg.timestamp)
    (.revert "L2OutputOracle: cannot propose L2 output in the future")
  require (outputRoot ≠ 0)
    (.revert "L2OutputOracle: L2 output proposal cannot be the zero hash")
  -- a zero hash leaves the L1 block unchecked
  require (l1BlockHash = 0 ∨ blockhash chain env l1BlockNumber = l1BlockHash)
    (.revert "L2OutputOracle: block hash does not match the hash at the expected height")
  pure (s.push ⟨outputRoot, toUint128 env.msg.timestamp, toUint128 l2BlockNumber⟩)

/-- `checkpointBlockHash(_blockNumber)`. -/
def checkpointBlockHash (blockNumber : Nat) : Except OracleError Oracle := do
  require (blockhash chain env blockNumber ≠ 0) .l1BlockHashNotAvailable
  pure { s with
    historicBlockHashes :=
      Function.update s.historicBlockHashes blockNumber (blockhash chain env blockNumber) }

/-- `addOpSuccinctConfig(_configName, _rollupConfigHash, _aggregationVkey,
_rangeVkeyCommitment)`. -/
def addOpSuccinctConfig
    (configName rollupConfigHash aggregationVkey rangeVkeyCommitment : Bytes32) :
    Except OracleError Oracle := do
  onlyOwner env s
  require (configName ≠ 0) (.revert "L2OutputOracle: config name cannot be empty")
  require (isValidOpSuccinctConfig (s.opSuccinctConfigs configName) = false)
    (.revert "L2OutputOracle: config already exists")
  let newConfig : OpSuccinctConfig := ⟨aggregationVkey, rangeVkeyCommitment, rollupConfigHash⟩
  require (isValidOpSuccinctConfig newConfig = true)
    (.revert "L2OutputOracle: invalid OP Succinct configuration parameters")
  pure { s with opSuccinctConfigs := Function.update s.opSuccinctConfigs configName newConfig }

/-- The owner's operations that change one setting leave the storage `s'`. -/
def asOwner (s' : Oracle) : Except OracleError Oracle := do
  onlyOwner env s
  pure s'

/-- `updateSubmissionInterval(_submissionInterval)`. -/
def updateSubmissionInterval (submissionInterval : Nat) : Except OracleError Oracle :=
  asOwner env s { s with submissionInterval := submissionInterval }

/-- `deleteOpSuccinctConfig(_configName)`. -/
def deleteOpSuccinctConfig (configName : Bytes32) : Except OracleError Oracle :=
  asOwner env s
    { s with opSuccinctConfigs := Function.update s.opSuccinctConfigs configName ⟨0, 0, 0⟩ }

/-- `transferOwnership(_owner)`. -/
def transferOwnership (owner : Address) : Except OracleError Oracle :=
  asOwner env s { s with owner := owner }

/-- `addProposer(_proposer)`. -/
def addProposer (proposer : Address) : Except OracleError Oracle :=
  asOwner env s { s with approvedProposers := Function.update s.approvedProposers proposer true }

/-- `removeProposer(_proposer)`. -/
def removeProposer (proposer : Address) : Except OracleError Oracle :=
  asOwner env s { s with approvedProposers := Function.update s.approvedProposers proposer false }

/-- `enableOptimisticMode(_finalizationPeriodSeconds)`. -/
def enableOptimisticMode (finalizationPeriodSeconds : Nat) : Except OracleError Oracle := do
  onlyOwner env s
  whenNotOptimistic s
  pure { s with
    finalizationPeriodSeconds := finalizationPeriodSeconds
    optimisticMode := true }

/-- `disableOptimisticMode(_finalizationPeriodSeconds)`. -/
def disableOptimisticMode (finalizationPeriodSeconds : Nat) : Except OracleError Oracle := do
  onlyOwner env s
  whenOptimistic s
  pure { s with
    finalizationPeriodSeconds := finalizationPeriodSeconds
    optimisticMode := false }

/-! ## Calls -/

/-- A call on the oracle that may change it. -/
inductive Call
  | initializeOracle (version : Nat) (params : InitParams)
  | deleteL2Outputs (l2OutputIndex : Nat)
  | proposeL2Output (configName outputRoot : Bytes32) (l2BlockNumber l1BlockNumber : Nat)
      (proof : Bytes) (proverAddress : Address)
  | proposeL2OutputOptimistic (outputRoot : Bytes32) (l2BlockNumber : Nat)
      (l1BlockHash : Bytes32) (l1BlockNumber : Nat)
  | checkpointBlockHash (blockNumber : Nat)
  | updateSubmissionInterval (submissionInterval : Nat)
  | addOpSuccinctConfig
      (configName rollupConfigHash aggregationVkey rangeVkeyCommitment : Bytes32)
  | deleteOpSuccinctConfig (configName : Bytes32)
  | transferOwnership (owner : Address)
  | addProposer (proposer : Address)
  | removeProposer (proposer : Address)
  | enableOptimisticMode (finalizationPeriodSeconds : Nat)
  | disableOptimisticMode (finalizationPeriodSeconds : Nat)

/-- Only the optimistic proposal takes ETH. -/
def Call.payable : Call → Bool
  | .proposeL2OutputOptimistic _ _ _ _ => true
  | _ => false

/-- The function a call runs. -/
def dispatch : Call → Except OracleError Oracle
  | .initializeOracle version params => initializeOracle chain env s version params
  | .deleteL2Outputs l2OutputIndex => deleteL2Outputs env s l2OutputIndex
  | .proposeL2Output configName outputRoot l2BlockNumber l1BlockNumber proof proverAddress =>
    proposeL2Output env s configName outputRoot l2BlockNumber l1BlockNumber proof proverAddress
  | .proposeL2OutputOptimistic outputRoot l2BlockNumber l1BlockHash l1BlockNumber =>
    proposeL2OutputOptimistic chain env s outputRoot l2BlockNumber l1BlockHash l1BlockNumber
  | .checkpointBlockHash blockNumber => checkpointBlockHash chain env s blockNumber
  | .updateSubmissionInterval submissionInterval =>
    updateSubmissionInterval env s submissionInterval
  | .addOpSuccinctConfig configName rollupConfigHash aggregationVkey rangeVkeyCommitment =>
    addOpSuccinctConfig env s configName rollupConfigHash aggregationVkey rangeVkeyCommitment
  | .deleteOpSuccinctConfig configName => deleteOpSuccinctConfig env s configName
  | .transferOwnership owner => transferOwnership env s owner
  | .addProposer proposer => addProposer env s proposer
  | .removeProposer proposer => removeProposer env s proposer
  | .enableOptimisticMode period => enableOptimisticMode env s period
  | .disableOptimisticMode period => disableOptimisticMode env s period

/-- One call: the storage it leaves, or the error it reverts with. -/
def execute (call : Call) : Except OracleError Oracle := do
  require (call.payable = true ∨ env.msg.value = 0) .nonPayable
  dispatch chain env s call

end OpSuccinct.OutputOracle
