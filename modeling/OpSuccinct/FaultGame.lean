import Mathlib.Logic.Function.Basic
import OpSuccinct.CheckedArith
import OpSuccinct.Evm

/-! # The fault dispute game

`OPSuccinctFaultDisputeGame.sol`, function by function.  A game is a clone: its
creator, root claim, L1 head, block number and parent index are immutable
arguments read from fixed offsets of its argument bytes, everything fixed at
deployment is in `Immutables`, and what a call may change is the storage `Game`,
which includes the contract's ETH balance.

What a call reads from other contracts (the access manager, the factory, the
anchor state registry, the SP1 verifier) is a `World`, one per call: nothing
relates the answers of two calls unless a theorem says so.  A function that
reverts returns the error and has no other effect.
-/
namespace OpSuccinct.FaultGame

/-! ## Data -/

/-- `GameStatus` of the dispute library. -/
inductive GameStatus
  | inProgress
  | challengerWins
  | defenderWins
  deriving DecidableEq, Repr

/-- `BondDistributionMode` of the dispute library. -/
inductive BondDistributionMode
  | undecided
  | normal
  | refund
  deriving DecidableEq, Repr

/-- `ProposalStatus`. -/
inductive ProposalStatus
  | unchallenged
  | challenged
  | unchallengedAndValidProofProvided
  | challengedAndValidProofProvided
  | resolved
  deriving DecidableEq, Repr

/-- The custom errors the game reverts with, and the reverts the compiler adds:
a value sent to a function that is not payable, checked arithmetic, and a call
to another contract that reverted. -/
inductive GameError
  | alreadyInitialized
  | incorrectDisputeGameFactory
  | badAuth
  | badExtraData
  | invalidParentGame
  | unexpectedRootClaim (rootClaim : Bytes32)
  | claimAlreadyChallenged
  | gameOver
  | incorrectBondAmount
  | claimAlreadyResolved
  | parentGameNotResolved
  | gameNotOver
  | invalidProposalStatus
  | gameNotFinalized
  | invalidBondDistributionMode
  | noCreditToClaim
  | bondTransferFailed
  | nonPayable
  | arithmetic
  | callReverted
  deriving DecidableEq

structure OutputRoot where
  root : Bytes32
  l2BlockNumber : Nat
  deriving DecidableEq

structure ClaimData where
  parentIndex : Nat
  counteredBy : Address
  prover : Address
  claim : Bytes32
  status : ProposalStatus
  deadline : Nat
  deriving DecidableEq

/-- The contract's storage, with its ETH balance. -/
structure Game where
  createdAt : Nat
  resolvedAt : Nat
  status : GameStatus
  initialized : Bool
  claimData : ClaimData
  normalModeCredit : Address → Nat
  refundModeCredit : Address → Nat
  startingOutputRoot : OutputRoot
  wasRespectedGameTypeWhenCreated : Bool
  bondDistributionMode : BondDistributionMode
  balance : Nat

/-- The storage of a clone before `initialize`.  ETH may have been sent to its
address before it existed. -/
def Game.fresh (balance : Nat) : Game where
  createdAt := 0
  resolvedAt := 0
  status := .inProgress
  initialized := false
  claimData := ⟨0, zeroAddress, zeroAddress, 0, .unchallenged, 0⟩
  normalModeCredit := fun _ => 0
  refundModeCredit := fun _ => 0
  startingOutputRoot := ⟨0, 0⟩
  wasRespectedGameTypeWhenCreated := false
  bondDistributionMode := .undecided
  balance := balance

/-- The immutable values of the implementation contract.  `Duration` is a
`uint64`. -/
structure Immutables where
  maxChallengeDuration : UInt64
  maxProveDuration : UInt64
  gameType : Nat
  disputeGameFactory : Address
  rollupConfigHash : Bytes32
  aggregationVkey : Bytes32
  rangeVkeyCommitment : Bytes32
  challengerBond : Nat

/-- What the game reads of the contract the factory lists at an index. -/
structure Proxy where
  address : Address
  status : GameStatus
  rootClaim : Bytes32
  l2BlockNumber : Nat

/-- **The other contracts during one call**: `ACCESS_MANAGER`,
`DISPUTE_GAME_FACTORY`, `ANCHOR_STATE_REGISTRY` and `SP1_VERIFIER`.  The registry
judges this game by reading it, so its answers about it are functions of the
storage. -/
structure World where
  isAllowedProposer : Address → Bool
  isAllowedChallenger : Address → Bool
  gameAtIndex : Nat → Option Proxy
  isGameRespected : Address → Bool
  isGameBlacklisted : Address → Bool
  isGameRetired : Address → Bool
  anchors : Nat → OutputRoot
  respectedGameType : Nat
  isGameFinalized : Game → Bool
  isGameProper : Game → Bool
  verifyProof : Bytes32 → Bytes → Bytes → Bool

/-! ## Immutable arguments of the clone -/

/-- The `len` argument bytes at offset `off`. -/
def argBytes (args : Bytes) (off len : Nat) : Bytes := (args.drop off).take len

def gameCreator (args : Bytes) : Address := BitVec.ofNat 160 (ofBytesBE (argBytes args 0x00 20))

def rootClaim (args : Bytes) : Bytes32 := BitVec.ofNat 256 (ofBytesBE (argBytes args 0x14 32))

def l1Head (args : Bytes) : Bytes32 := BitVec.ofNat 256 (ofBytesBE (argBytes args 0x34 32))

def l2BlockNumber (args : Bytes) : Nat := ofBytesBE (argBytes args 0x54 32)

def parentIndex (args : Bytes) : Nat := ofBytesBE (argBytes args 0x74 4)

/-- `calldatasize()` of a call without arguments on a clone: the selector, the
immutable arguments, and the two bytes that hold their length. -/
def calldatasize (args : Bytes) : Nat := 0x04 + args.length + 0x02

/-- `type(uint32).max`, the parent index of a game without a parent. -/
def noParent : Nat := 2 ^ 32 - 1

/-- Argument bytes with the given contents, in the order of the getters. -/
def packArgs (creator : Address) (root l1 : Bytes32) (block parent : Nat) : Bytes :=
  toBytesBE 20 creator.toNat ++ toBytesBE 32 root.toNat ++ toBytesBE 32 l1.toNat ++
    toBytesBE 32 block ++ toBytesBE 4 parent

section PackArgs
variable {creator : Address} {root l1 : Bytes32} {block parent off len : Nat}

theorem argBytes_append {before word after : Bytes} (hoff : before.length = off)
    (hlen : word.length = len) : argBytes (before ++ word ++ after) off len = word := by
  rw [argBytes, ← hoff, ← hlen, List.append_assoc, List.drop_left, List.take_left]

theorem calldatasize_packArgs : calldatasize (packArgs creator root l1 block parent) = 0x7E := by
  simp [calldatasize, packArgs]

theorem gameCreator_packArgs : gameCreator (packArgs creator root l1 block parent) = creator := by
  have h : argBytes (packArgs creator root l1 block parent) 0x00 20 =
      toBytesBE 20 creator.toNat := by
    simp [argBytes, packArgs]
  rw [gameCreator, h, ofBytesBE_toBytesBE (by simpa using creator.isLt), BitVec.ofNat_toNat,
    BitVec.setWidth_eq]

theorem l2BlockNumber_packArgs (h : block < 256 ^ 32) :
    l2BlockNumber (packArgs creator root l1 block parent) = block := by
  have h' : argBytes (packArgs creator root l1 block parent) 0x54 32 = toBytesBE 32 block :=
    argBytes_append (by simp) (by simp)
  rw [l2BlockNumber, h', ofBytesBE_toBytesBE h]

theorem parentIndex_packArgs (h : parent < 256 ^ 4) :
    parentIndex (packArgs creator root l1 block parent) = parent := by
  have h' : argBytes (packArgs creator root l1 block parent) 0x74 4 = toBytesBE 4 parent := by
    rw [← List.append_nil (packArgs creator root l1 block parent)]
    exact argBytes_append (by simp) (by simp)
  rw [parentIndex, h', ofBytesBE_toBytesBE h]

end PackArgs

/-! ## The functions -/

variable (im : Immutables) (args : Bytes) (w : World) (m : Msg) (g : Game)

/-- `gameOver()`: the game is either expired or proven. -/
def gameOver : Bool :=
  decide (g.claimData.deadline < toUint64 m.timestamp) || decide (g.claimData.prover ≠ zeroAddress)

/-- The output root `initialize` starts from: the claim of the parent game, which
must be respected, neither blacklisted nor retired, and not lost, or the anchor
state when there is no parent. -/
def startingRoot : Except GameError OutputRoot :=
  if parentIndex args ≠ noParent then
    match w.gameAtIndex (parentIndex args) with
    | none => .error .callReverted
    | some proxy => do
      require (w.isGameRespected proxy.address = true ∧ w.isGameBlacklisted proxy.address = false ∧
        w.isGameRetired proxy.address = false) .invalidParentGame
      require (proxy.status ≠ .challengerWins) .invalidParentGame
      pure ⟨proxy.rootClaim, proxy.l2BlockNumber⟩
  else
    pure (w.anchors im.gameType)

/-- `initialize()`. -/
def initializeGame : Except GameError Game := do
  require (g.initialized = false) .alreadyInitialized
  require (im.disputeGameFactory = m.sender) .incorrectDisputeGameFactory
  require (w.isAllowedProposer (gameCreator args) = true) .badAuth
  require (calldatasize args = 0x7E) .badExtraData
  let start ← startingRoot im args w
  require (start.l2BlockNumber < l2BlockNumber args) (.unexpectedRootClaim (rootClaim args))
  let deadline ← checkedAdd 256 .arithmetic m.timestamp im.maxChallengeDuration.toNat
  let credit ← checkedAdd 256 .arithmetic (g.refundModeCredit (gameCreator args)) m.value
  pure { g with
    startingOutputRoot := start
    claimData := ⟨parentIndex args, zeroAddress, zeroAddress, rootClaim args, .unchallenged,
      toUint64 deadline⟩
    initialized := true
    refundModeCredit := Function.update g.refundModeCredit (gameCreator args) credit
    createdAt := toUint64 m.timestamp
    wasRespectedGameTypeWhenCreated := decide (w.respectedGameType = im.gameType)
    balance := g.balance + m.value }

/-- `challenge()`. -/
def challenge : Except GameError Game := do
  require (g.claimData.status = .unchallenged) .claimAlreadyChallenged
  require (w.isAllowedChallenger m.sender = true) .badAuth
  require (gameOver m g = false) .gameOver
  require (m.value = im.challengerBond) .incorrectBondAmount
  let deadline ← checkedAdd 256 .arithmetic m.timestamp im.maxProveDuration.toNat
  let credit ← checkedAdd 256 .arithmetic (g.refundModeCredit m.sender) m.value
  pure { g with
    claimData := { g.claimData with
      counteredBy := m.sender
      status := .challenged
      deadline := toUint64 deadline }
    refundModeCredit := Function.update g.refundModeCredit m.sender credit
    balance := g.balance + m.value }

/-- The public values a proof of this game must commit to when `prover` sends it. -/
def publicValues (prover : Address) : AggregationOutputs where
  l1Head := l1Head args
  l2PreRoot := g.startingOutputRoot.root
  claimRoot := rootClaim args
  claimBlockNum := l2BlockNumber args
  rollupConfigHash := im.rollupConfigHash
  rangeVkeyCommitment := im.rangeVkeyCommitment
  proverAddress := prover

/-- `SP1_VERIFIER.verifyProof` on the public values of this game. -/
def proofAccepted (proofBytes : Bytes) : Bool :=
  w.verifyProof im.aggregationVkey (publicValues im args g m.sender).abiEncode proofBytes

/-- `prove(proofBytes)`. -/
def prove (proofBytes : Bytes) : Except GameError Game := do
  require (m.value = 0) .nonPayable
  require (gameOver m g = false) .gameOver
  require (proofAccepted im args w m g proofBytes = true) .callReverted
  pure { g with
    claimData := { g.claimData with
      prover := m.sender
      status := if g.claimData.counteredBy = zeroAddress then
          .unchallengedAndValidProofProvided
        else .challengedAndValidProofProvided } }

/-- `getParentGameStatus()`. -/
def getParentGameStatus : Except GameError GameStatus :=
  if parentIndex args ≠ noParent then
    match w.gameAtIndex (parentIndex args) with
    | none => .error .callReverted
    | some parentGame => .ok parentGame.status
  else
    .ok .defenderWins

/-- What `resolve` decides when the parent has not lost: the winner, and the
credits by claim status. -/
def resolveByClaim : Except GameError (GameStatus × (Address → Nat)) :=
  let creditAll (a : Address) := Function.update g.normalModeCredit a g.balance
  match g.claimData.status with
  | .unchallenged => .ok (.defenderWins, creditAll (gameCreator args))
  | .challenged => .ok (.challengerWins, creditAll g.claimData.counteredBy)
  | .unchallengedAndValidProofProvided => .ok (.defenderWins, creditAll (gameCreator args))
  | .challengedAndValidProofProvided =>
    if g.claimData.prover = gameCreator args then
      .ok (.defenderWins, creditAll g.claimData.prover)
    else do
      -- the assignments run in this order: the prover's bond first, the rest to the creator
      let credit := Function.update g.normalModeCredit g.claimData.prover im.challengerBond
      let rest ← checkedSub .arithmetic g.balance im.challengerBond
      pure (.defenderWins, Function.update credit (gameCreator args) rest)
  | .resolved => .error .invalidProposalStatus

/-- The winner and the credits `resolve` assigns, given how the parent game
ended.  When the parent lost, the challenger takes everything; without a
challenger that is the zero address, and the bond is burned. -/
def resolveOutcome (parentGameStatus : GameStatus) :
    Except GameError (GameStatus × (Address → Nat)) :=
  if parentGameStatus = .challengerWins then
    .ok (.challengerWins, Function.update g.normalModeCredit g.claimData.counteredBy g.balance)
  else do
    require (gameOver m g = true) .gameNotOver
    resolveByClaim im args g

/-- `resolve()`. -/
def resolve : Except GameError Game := do
  require (m.value = 0) .nonPayable
  require (g.status = .inProgress) .claimAlreadyResolved
  let parentGameStatus ← getParentGameStatus args w
  require (parentGameStatus ≠ .inProgress) .parentGameNotResolved
  let (status, credit) ← resolveOutcome im args m g parentGameStatus
  pure { g with
    status := status
    normalModeCredit := credit
    claimData := { g.claimData with status := .resolved }
    resolvedAt := toUint64 m.timestamp }

/-- The body of `closeGame()`.  `setAnchorState` is called on the registry and
its outcome is ignored. -/
def closeGameBody : Except GameError Game :=
  match g.bondDistributionMode with
  | .refund => .ok g
  | .normal => .ok g
  | .undecided => do
    require (w.isGameFinalized g = true) .gameNotFinalized
    pure { g with
      bondDistributionMode := if w.isGameProper g = true then .normal else .refund }

/-- `closeGame()`. -/
def closeGame : Except GameError Game := do
  require (m.value = 0) .nonPayable
  closeGameBody w g

/-- The recipient's credit in the decided bond distribution mode. -/
def recipientCredit (recipient : Address) : Except GameError Nat :=
  match g.bondDistributionMode with
  | .refund => .ok (g.refundModeCredit recipient)
  | .normal => .ok (g.normalModeCredit recipient)
  | .undecided => .error .invalidBondDistributionMode

/-- `claimCredit(_recipient)` up to the code of the recipient, which the transfer of
the ETH runs: the storage and balance that code starts in, and the amount it was
sent.  A transfer without the funds for it fails.  The rest is `claimCreditEnd`. -/
def claimCredit (recipient : Address) : Except GameError (Game × Nat) := do
  require (m.value = 0) .nonPayable
  let g ← closeGameBody w g
  let amount ← recipientCredit g recipient
  require (amount ≠ 0) .noCreditToClaim
  let balance ← checkedSub .bondTransferFailed g.balance amount
  pure ({ g with
    refundModeCredit := Function.update g.refundModeCredit recipient 0
    normalModeCredit := Function.update g.normalModeCredit recipient 0
    balance := balance }, amount)

/-- The balance and storage a failed transfer gives back to `claimCredit`: what the
recipient's code did is undone, and the ETH has not left. -/
def Game.unsent (amount : Nat) : Game := { g with balance := g.balance + amount }

/-- The rest of `claimCredit`, once the transfer is over: `success` is what the call
of the recipient returned, and `g` the storage and balance it left. -/
def claimCreditEnd (success : Bool) : Except GameError Game := do
  require (success = true) .bondTransferFailed
  pure g

/-- `credit(_recipient)`. -/
def credit (recipient : Address) : Nat :=
  if g.bondDistributionMode = .refund then g.refundModeCredit recipient
  -- the default, also while the mode is undecided
  else g.normalModeCredit recipient

end OpSuccinct.FaultGame
