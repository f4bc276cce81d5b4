import OpSuccinct.ProposalScan

/-! # The parent of the next game

`handle_game_creation` of the fault proof proposer (`fault-proof/src/proposer.rs`):
the parent of the next game is the latest game whose claim is canonical, or none, and
its block is one proposal interval later.

The contract asks more of a parent than a canonical claim.  So a game the proposer
creates passes the parent and block checks of `initialize()` exactly when the latest
canonical game is also respected, not blacklisted, not retired and not lost, and the
interval is not zero (`created_game_accepted_iff`).
-/
namespace OpSuccinct.FaultProof

open FaultGame (OutputRoot GameError GameStatus noParent)

/-! ## The proposer -/

structure ProposerConfig where
  gameType : Nat
  proposalIntervalInBlocks : UInt64
  initBond : Nat

/-- **What the proposer reads of L1**: the factory, and the anchor root that the registry
of a game type's implementation answers with. -/
structure L1View where
  factory : Factory
  getAnchorRoot : Nat → Option OutputRoot

inductive ProposeError
  | scan (e : ScanError)
  | u32Overflow
  | addOverflow
  | hostFailed
  deriving DecidableEq

/-- The transaction that creates a game, sent to the factory with the bond. -/
structure GameCreation where
  gameType : Nat
  rootClaim : Bytes32
  extraData : Bytes
  value : Nat
  deriving DecidableEq

/-- `U256::to::<u32>`. -/
def toU32 (n : Nat) : Except ProposeError Nat :=
  if n < 2 ^ 32 then .ok n else .error .u32Overflow

def getAnchorL2BlockNumber (l1 : L1View) (gameType : Nat) : Except ScanError Nat :=
  called ((l1.getAnchorRoot gameType).map (·.l2BlockNumber))

section Proposer
variable (keccak256 : Bytes → Bytes32) (config : ProposerConfig) (l1 : L1View) (l2 : L2Chain)

def createGame (l2BlockNumber parentGameIndex : Nat) : Except ProposeError GameCreation := do
  let extraData := toBytesBE 32 l2BlockNumber ++ toBytesBE 4 parentGameIndex
  let rootClaim ← (computeOutputRootAtBlock keccak256 l2 l2BlockNumber).mapError .scan
  return ⟨config.gameType, rootClaim, extraData, config.initBond⟩

/-- The latest proposed block, the next block to propose, and the parent of its game. -/
def nextProposal : Except ProposeError (Nat × Nat × Nat) := do
  match ← (getLatestValidProposal keccak256 l1.factory l2).mapError .scan with
  | some (latestBlock, latestGameIdx) =>
    let parentGameIndex ← toU32 latestGameIdx
    return (latestBlock, (latestBlock + config.proposalIntervalInBlocks.toNat) % 2 ^ 256,
      parentGameIndex)
  | none =>
    let anchorL2BlockNumber ← (getAnchorL2BlockNumber l1 config.gameType).mapError .scan
    let nextL2BlockNumber ← checkedAdd 256 .addOverflow anchorL2BlockNumber
      config.proposalIntervalInBlocks.toNat
    return (anchorL2BlockNumber, nextL2BlockNumber, noParent)

/-- The game the proposer creates, if any.  The host says up to which block the L2 chain is
finalized. -/
def handleGameCreation
    (getFinalizedL2BlockNumber : Nat → Except ProposeError (Option Nat)) :
    Except ProposeError (Option GameCreation) := do
  let (latestProposed, nextL2BlockNumber, parentGameIndex) ← nextProposal keccak256 config l1 l2
  let latestProposed ← (toU64 latestProposed).mapError .scan
  match ← getFinalizedL2BlockNumber latestProposed with
  | some finalizedBlock =>
    if nextL2BlockNumber < finalizedBlock then
      let creation ← createGame keccak256 config l2 nextL2BlockNumber parentGameIndex
      return some creation
    else
      return none
  | none => return none

end Proposer

/-! ## The call of `initialize()` -/

/-- The argument bytes of the clone the factory makes for a creation: the creator and the
hash of the parent L1 block around what the transaction gives. -/
def cloneArgs (creator : Address) (parentHash : Bytes32) (creation : GameCreation) : Bytes :=
  toBytesBE 20 creator.toNat ++ toBytesBE 32 creation.rootClaim.toNat ++
    toBytesBE 32 parentHash.toNat ++ creation.extraData

/-- **The call reads the L1 state the proposer read**: no transaction came between, and
`anchors` answers with the anchor root. -/
structure Observes (l1 : L1View) (w : FaultGame.World) : Prop where
  games : ∀ (i : Nat) game, l1.factory.games[i]? = some game →
    ∃ proxy, w.gameAtIndex i = some proxy ∧ proxy.address = game.proxy ∧
      (∀ n, game.contract.l2BlockNumber = .ok n → proxy.l2BlockNumber = n) ∧
      (∀ root, game.contract.rootClaim = .ok root → proxy.rootClaim = root) ∧
      ∀ args g, game.contract = .opSuccinct args g → proxy.status = g.status
  anchors : ∀ gameType root, l1.getAnchorRoot gameType = some root → w.anchors gameType = root

/-- **A creation as the factory makes it**: it clones the implementation of the game type
and calls the clone, and the creator is an allowed proposer. -/
structure Submitted (config : ProposerConfig) (l1 : L1View) (creator : Address)
    (im : FaultGame.Immutables) (w : FaultGame.World) (m : Msg) : Prop where
  observes : Observes l1 w
  gameType : im.gameType = config.gameType
  sender : im.disputeGameFactory = m.sender
  allowed : w.isAllowedProposer creator = true

/-- `initialize()` reverts neither with `InvalidParentGame` nor with `UnexpectedRootClaim`. -/
def ParentAccepted (im : FaultGame.Immutables) (args : Bytes) (w : FaultGame.World) (m : Msg)
    (g : FaultGame.Game) : Prop :=
  FaultGame.initializeGame im args w m g ≠ .error .invalidParentGame ∧
    ∀ root, FaultGame.initializeGame im args w m g ≠ .error (.unexpectedRootClaim root)

/-! ## The condition -/

/-- The game of the greatest index that makes a canonical claim, of any type. -/
def LatestCanonical (keccak256 : Bytes → Bytes32) (l2 : L2Chain) (factory : Factory) (n i : Nat)
    (game : FactoryGame) : Prop :=
  factory.games[i]? = some game ∧ ClaimsCanonical keccak256 l2 game n ∧
    ∀ j game' n', i < j → factory.games[j]? = some game' →
      ¬ ClaimsCanonical keccak256 l2 game' n'

/-- **The contract takes the game at an index as a parent**: it is respected, neither
blacklisted nor retired, and not lost. -/
def TakenAsParent (w : FaultGame.World) (i : Nat) : Prop :=
  ∃ proxy, w.gameAtIndex i = some proxy ∧ w.isGameRespected proxy.address = true ∧
    w.isGameBlacklisted proxy.address = false ∧ w.isGameRetired proxy.address = false ∧
    proxy.status ≠ .challengerWins

/-- **The latest canonical game is a parent for the contract too**, and the interval is not
zero.  The index `u32::MAX` stands for no parent, so a game listed there is proposed upon
with the anchor's block instead of its own. -/
def ParentsAgree (keccak256 : Bytes → Bytes32) (config : ProposerConfig) (l2 : L2Chain)
    (factory : Factory) (w : FaultGame.World) : Prop :=
  (∀ n i game, LatestCanonical keccak256 l2 factory n i game →
    if i = noParent then
      (w.anchors config.gameType).l2BlockNumber < n + config.proposalIntervalInBlocks.toNat
    else TakenAsParent w i ∧ 0 < config.proposalIntervalInBlocks.toNat) ∧
  ((∀ (i : Nat) game n, factory.games[i]? = some game → ¬ ClaimsCanonical keccak256 l2 game n) →
    0 < config.proposalIntervalInBlocks.toNat)

/-! ## The checks of `initialize()` -/

/-- A call that passes the checks `initialize()` makes before the parent's. -/
structure ReachesParent (im : FaultGame.Immutables) (args : Bytes) (w : FaultGame.World) (m : Msg)
    (g : FaultGame.Game) : Prop where
  fresh : g.initialized = false
  sender : im.disputeGameFactory = m.sender
  allowed : w.isAllowedProposer (FaultGame.gameCreator args) = true
  size : FaultGame.calldatasize args = 0x7E

section Initialize
variable {im : FaultGame.Immutables} {args : Bytes} {w : FaultGame.World} {m : Msg}
  {g : FaultGame.Game}

/-- How such a call fails the checks of the parent and the block. -/
theorem ReachesParent.rejects_iff (h : ReachesParent im args w m g) {e : GameError}
    (he : e = .invalidParentGame ∨ ∃ root, e = .unexpectedRootClaim root) :
    FaultGame.initializeGame im args w m g = .error e ↔
      FaultGame.startingRoot im args w = .error e ∨
        ∃ start, FaultGame.startingRoot im args w = .ok start ∧
          FaultGame.l2BlockNumber args ≤ start.l2BlockNumber ∧
          .unexpectedRootClaim (FaultGame.rootClaim args) = e := by
  have harith : GameError.arithmetic ≠ e := by
    rintro rfl
    rcases he with he | ⟨root, he⟩
    · cases he
    · cases he
  simp [FaultGame.initializeGame, bind_error_iff, h.fresh, h.sender, h.allowed, h.size, harith]

/-- With a starting root, the call is accepted when its block is above the root's. -/
theorem ReachesParent.accepted_iff (h : ReachesParent im args w m g) {start : OutputRoot}
    (hstart : FaultGame.startingRoot im args w = .ok start) :
    ParentAccepted im args w m g ↔ start.l2BlockNumber < FaultGame.l2BlockNumber args := by
  rw [ParentAccepted, ne_eq, h.rejects_iff (.inl rfl), hstart]
  constructor
  · rintro ⟨-, haccepted⟩
    by_contra hle
    refine haccepted (FaultGame.rootClaim args) ?_
    rw [h.rejects_iff (.inr ⟨_, rfl⟩), hstart]
    exact .inr ⟨start, rfl, Nat.not_lt.mp hle, rfl⟩
  · intro hlt
    constructor
    · rintro (h | ⟨_, -, -, h⟩)
      · cases h
      · cases h
    · intro root hreject
      rw [h.rejects_iff (.inr ⟨root, rfl⟩), hstart] at hreject
      rcases hreject with hreject | ⟨_, hreject, hle, -⟩
      · cases hreject
      · cases hreject
        omega

/-- Without a parent, the call starts from the anchor. -/
theorem startingRoot_noParent (hparent : FaultGame.parentIndex args = noParent) :
    FaultGame.startingRoot im args w = .ok (w.anchors im.gameType) := by
  rw [FaultGame.startingRoot, if_neg (not_not_intro hparent)]
  rfl

/-- With a parent that the factory lists, the call starts from the parent's claim if the
contract takes it. -/
theorem startingRoot_parent (im : FaultGame.Immutables) {proxy : FaultGame.Proxy} {i : Nat}
    (hparent : FaultGame.parentIndex args = i) (hi : i ≠ noParent)
    (hproxy : w.gameAtIndex i = some proxy) :
    (TakenAsParent w i ∧
      FaultGame.startingRoot im args w = .ok ⟨proxy.rootClaim, proxy.l2BlockNumber⟩) ∨
    (¬ TakenAsParent w i ∧ FaultGame.startingRoot im args w = .error .invalidParentGame) := by
  have htaken : TakenAsParent w i ↔ (w.isGameRespected proxy.address = true ∧
      w.isGameBlacklisted proxy.address = false ∧ w.isGameRetired proxy.address = false) ∧
      proxy.status ≠ .challengerWins := by
    simp [TakenAsParent, hproxy, and_assoc]
  rw [FaultGame.startingRoot, hparent, if_pos hi, hproxy, htaken]
  by_cases hregistry : w.isGameRespected proxy.address = true ∧
      w.isGameBlacklisted proxy.address = false ∧ w.isGameRetired proxy.address = false
  · by_cases hstatus : proxy.status ≠ .challengerWins
    · refine .inl ⟨⟨hregistry, hstatus⟩, ?_⟩
      simp only [bind_ok_iff, require_ok_iff, pure_ok_iff]
      exact ⟨(), hregistry, (), hstatus, trivial⟩
    · refine .inr ⟨fun h => hstatus h.2, ?_⟩
      simp only [bind_error_iff, require_error_iff, require_ok_iff]
      exact .inr ⟨(), hregistry, .inl ⟨hstatus, trivial⟩⟩
  · refine .inr ⟨fun h => hregistry h.1, ?_⟩
    simp only [bind_error_iff, require_error_iff]
    exact .inl ⟨hregistry, trivial⟩

end Initialize

/-! ## The proposer's choice -/

section Choice
variable {keccak256 : Bytes → Bytes32} {config : ProposerConfig} {l1 : L1View} {l2 : L2Chain}
  {getFinalizedL2BlockNumber : Nat → Except ProposeError (Option Nat)} {creation : GameCreation}

theorem toU32_ok_iff {n m : Nat} : toU32 n = .ok m ↔ n < 2 ^ 32 ∧ n = m := by
  unfold toU32
  split <;> simp <;> omega

/-- **What the proposer chooses**: the latest canonical game as the parent of a block one
interval later, or no parent for a block one interval after the anchor. -/
inductive Chosen (keccak256 : Bytes → Bytes32) (config : ProposerConfig) (l1 : L1View)
    (l2 : L2Chain) : Nat → Nat → Prop
  | game {n i : Nat} (hscan : getLatestValidProposal keccak256 l1.factory l2 = .ok (some (n, i)))
      (hi : i < 2 ^ 32) :
      Chosen keccak256 config l1 l2 (n + config.proposalIntervalInBlocks.toNat) i
  | anchor {root : OutputRoot} (hscan : getLatestValidProposal keccak256 l1.factory l2 = .ok none)
      (hanchor : l1.getAnchorRoot config.gameType = some root) :
      Chosen keccak256 config l1 l2
        (root.l2BlockNumber + config.proposalIntervalInBlocks.toNat) noParent

theorem nextProposal_ok {latest next parent : Nat}
    (h : nextProposal keccak256 config l1 l2 = .ok (latest, next, parent)) :
    Chosen keccak256 config l1 l2 next parent := by
  rw [nextProposal, bind_ok_iff] at h
  obtain ⟨proposal, hscan, h⟩ := h
  rw [mapError_ok_iff] at hscan
  rcases proposal with - | ⟨n, i⟩
  · simp only [bind_ok_iff, mapError_ok_iff, getAnchorL2BlockNumber, called_ok_iff,
      checkedAdd_ok_iff, pure_ok_iff, Option.map_eq_some_iff] at h
    obtain ⟨_, ⟨root, hanchor, rfl⟩, next, ⟨-, rfl⟩, heq⟩ := h
    cases heq
    exact .anchor hscan hanchor
  · simp only [bind_ok_iff, toU32_ok_iff, pure_ok_iff] at h
    obtain ⟨_, ⟨hi, rfl⟩, heq⟩ := h
    cases heq
    obtain ⟨⟨game, -, root, -, -, hle, -⟩, -⟩ := getLatestValidProposal_some_iff.mp hscan
    have hhead := l2.head_lt
    have hinterval := config.proposalIntervalInBlocks.toNat_lt
    -- The block is one of the chain, so the sum does not wrap.
    rw [Nat.mod_eq_of_lt (by omega)]
    exact .game hscan hi

/-- A creation carries a chosen block of the chain, its output root, and the chosen parent. -/
theorem handleGameCreation_some
    (h : handleGameCreation keccak256 config l1 l2 getFinalizedL2BlockNumber =
      .ok (some creation)) :
    ∃ next parent, Chosen keccak256 config l1 l2 next parent ∧ next ≤ l2.head ∧
      creation = ⟨config.gameType, l2.outputRoot keccak256 next,
        toBytesBE 32 next ++ toBytesBE 4 parent, config.initBond⟩ := by
  rw [handleGameCreation, bind_ok_iff] at h
  obtain ⟨⟨latest, next, parent⟩, hnext, h⟩ := h
  simp only [bind_ok_iff] at h
  obtain ⟨_, -, finalized, -, h⟩ := h
  rcases finalized with - | finalizedBlock
  · cases h
  · by_cases hlt : next < finalizedBlock
    · simp only [hlt, if_true, bind_ok_iff, createGame, mapError_ok_iff,
        computeOutputRootAtBlock_ok_iff, pure_ok_iff, Option.some.injEq] at h
      obtain ⟨_, ⟨_, ⟨hle, rfl⟩, rfl⟩, rfl⟩ := h
      exact ⟨next, parent, nextProposal_ok hnext, hle, rfl⟩
    · simp [hlt] at h

/-- The scan answers with the latest canonical game. -/
theorem latestCanonical_of_scan {n i : Nat} {factory : Factory}
    (h : getLatestValidProposal keccak256 factory l2 = .ok (some (n, i))) :
    ∃ game, LatestCanonical keccak256 l2 factory n i game := by
  obtain ⟨⟨game, hgame, hclaims⟩, hlater⟩ := getLatestValidProposal_some_iff.mp h
  exact ⟨game, hgame, hclaims, fun j game' n' hj hgame' =>
    (hlater j game' hj hgame').not_claimsCanonical⟩

theorem ClaimsCanonical.block_unique {game : FactoryGame} {n n' : Nat}
    (h : ClaimsCanonical keccak256 l2 game n) (h' : ClaimsCanonical keccak256 l2 game n') :
    n = n' := by
  obtain ⟨_, hn, -⟩ := h
  obtain ⟨_, hn', -⟩ := h'
  exact Except.ok.inj (hn.symm.trans hn')

theorem LatestCanonical.unique {factory : Factory} {n i n' i' : Nat} {game game' : FactoryGame}
    (h : LatestCanonical keccak256 l2 factory n i game)
    (h' : LatestCanonical keccak256 l2 factory n' i' game') : n = n' ∧ i = i' := by
  have hi : i = i' := by
    rcases Nat.lt_trichotomy i i' with hlt | heq | hlt
    · exact absurd h'.2.1 (h.2.2 i' game' n' hlt h'.1)
    · exact heq
    · exact absurd h.2.1 (h'.2.2 i game n hlt h.1)
  subst hi
  obtain rfl := Option.some.inj (h.1.symm.trans h'.1)
  exact ⟨h.2.1.block_unique h'.2.1, rfl⟩

/-- The condition at the latest canonical game. -/
theorem LatestCanonical.parentsAgree_iff {factory : Factory} {w : FaultGame.World} {n i : Nat}
    {game : FactoryGame} (h : LatestCanonical keccak256 l2 factory n i game) :
    ParentsAgree keccak256 config l2 factory w ↔
      if i = noParent then
        (w.anchors config.gameType).l2BlockNumber < n + config.proposalIntervalInBlocks.toNat
      else TakenAsParent w i ∧ 0 < config.proposalIntervalInBlocks.toNat := by
  constructor
  · intro hagree
    exact hagree.1 n i game h
  · intro hcondition
    refine ⟨fun n' i' game' h' => ?_, fun hnone => absurd h.2.1 (hnone i game n h.1)⟩
    obtain ⟨rfl, rfl⟩ := h.unique h'
    exact hcondition

/-- The condition when no game makes a canonical claim. -/
theorem parentsAgree_iff_of_none {factory : Factory} {w : FaultGame.World}
    (h : getLatestValidProposal keccak256 factory l2 = .ok none) :
    ParentsAgree keccak256 config l2 factory w ↔ 0 < config.proposalIntervalInBlocks.toNat := by
  have hnone : ∀ (i : Nat) game n, factory.games[i]? = some game →
      ¬ ClaimsCanonical keccak256 l2 game n := fun i game n hgame =>
    (getLatestValidProposal_none_iff.mp h i game hgame).not_claimsCanonical
  constructor
  · intro hagree
    exact hagree.2 hnone
  · intro hinterval
    exact ⟨fun n i game hlatest => absurd hlatest.2.1 (hnone i game n hlatest.1),
      fun _ => hinterval⟩

end Choice

/-! ## Acceptance on-chain -/

theorem cloneArgs_eq_packArgs (creator : Address) (parentHash root : Bytes32)
    (gameType next parent value : Nat) :
    cloneArgs creator parentHash ⟨gameType, root, toBytesBE 32 next ++ toBytesBE 4 parent, value⟩ =
      FaultGame.packArgs creator root parentHash next parent := by
  simp only [cloneArgs, FaultGame.packArgs, List.append_assoc]

/-- **When a created game passes the checks of its parent and block.**  For every factory,
L2 chain, registry and finalized head: a game the proposer creates is accepted if and only
if the latest canonical game is one the contract takes as a parent, and the proposal
interval is not zero. -/
theorem created_game_accepted_iff {keccak256 : Bytes → Bytes32} {config : ProposerConfig}
    {l1 : L1View} {l2 : L2Chain}
    {getFinalizedL2BlockNumber : Nat → Except ProposeError (Option Nat)}
    {creation : GameCreation} {creator : Address} {im : FaultGame.Immutables}
    {w : FaultGame.World} {m : Msg} (parentHash : Bytes32) (balance : Nat)
    (hcall : handleGameCreation keccak256 config l1 l2 getFinalizedL2BlockNumber =
      .ok (some creation))
    (hsubmitted : Submitted config l1 creator im w m) :
    ParentAccepted im (cloneArgs creator parentHash creation) w m (FaultGame.Game.fresh balance) ↔
      ParentsAgree keccak256 config l2 l1.factory w := by
  obtain ⟨next, parent, hchosen, hle, rfl⟩ := handleGameCreation_some hcall
  rw [cloneArgs_eq_packArgs]
  have hhead := l2.head_lt
  have hblock : FaultGame.l2BlockNumber (FaultGame.packArgs creator (l2.outputRoot keccak256 next)
      parentHash next parent) = next := FaultGame.l2BlockNumber_packArgs (by omega)
  have hreaches : ReachesParent im (FaultGame.packArgs creator (l2.outputRoot keccak256 next)
      parentHash next parent) w m (FaultGame.Game.fresh balance) := by
    refine ⟨rfl, hsubmitted.sender, ?_, FaultGame.calldatasize_packArgs⟩
    rw [FaultGame.gameCreator_packArgs]
    exact hsubmitted.allowed
  have hparent : parent < 2 ^ 32 → FaultGame.parentIndex (FaultGame.packArgs creator
      (l2.outputRoot keccak256 next) parentHash next parent) = parent := fun h =>
    FaultGame.parentIndex_packArgs (by omega)
  have hanchors : w.anchors im.gameType = w.anchors config.gameType := by
    rw [hsubmitted.gameType]
  cases hchosen with
  | @game n _ hscan hi =>
    obtain ⟨game, hlatest⟩ := latestCanonical_of_scan hscan
    rw [hlatest.parentsAgree_iff]
    by_cases hnone : parent = noParent
    · -- The index is the one that stands for no parent.
      rw [if_pos hnone, hreaches.accepted_iff (startingRoot_noParent ((hparent hi).trans hnone)),
        hblock, hanchors]
    · obtain ⟨proxy, hproxy, -, hproxyBlock, -, -⟩ :=
        hsubmitted.observes.games parent game hlatest.1
      obtain ⟨_, hn, -⟩ := hlatest.2.1
      rw [if_neg hnone]
      rcases startingRoot_parent im (hparent hi) hnone hproxy with
        ⟨htaken, hstart⟩ | ⟨htaken, hstart⟩
      · rw [hreaches.accepted_iff hstart, hblock, hproxyBlock n hn]
        show n < n + config.proposalIntervalInBlocks.toNat ↔ _
        constructor
        · intro hlt
          exact ⟨htaken, by omega⟩
        · rintro ⟨-, hinterval⟩
          omega
      · constructor
        · intro haccepted
          exact absurd ((hreaches.rejects_iff (.inl rfl)).mpr (.inl hstart)) haccepted.1
        · rintro ⟨htaken', -⟩
          exact absurd htaken' htaken
  | @anchor root hscan hanchor =>
    have hroot := hsubmitted.observes.anchors config.gameType root hanchor
    rw [hreaches.accepted_iff (startingRoot_noParent (hparent (by decide))), hblock, hanchors,
      hroot, parentsAgree_iff_of_none hscan]
    omega

/-! ### A canonical game that is lost

The only game claims the output root of block 5.  It was challenged and not proved in
time, so it is resolved `CHALLENGER_WINS`.  The proposer still creates the game of block 7
upon it. -/

def exampleProposer : ProposerConfig := ⟨42, 2, 80⟩

/-- The factory with one canonical game, of the given status. -/
def exampleParent (status : GameStatus) : Factory where
  games :=
    [⟨0xA0, .opSuccinct (FaultGame.packArgs 0xC 7 0 5 noParent)
      { exampleOpenGame 2000 with status := status }⟩]
  proxies_nodup := List.pairwise_singleton _ _

def exampleL1 (status : GameStatus) : L1View := ⟨exampleParent status, fun _ => some ⟨3, 1⟩⟩

/-- The other contracts as `initialize()` finds them: the registry has nothing against the
game. -/
def exampleParentWorld (status : GameStatus) : FaultGame.World where
  isAllowedProposer := fun _ => true
  isAllowedChallenger := fun _ => true
  gameAtIndex := fun i => if i = 0 then some ⟨0xA0, status, 7, 5⟩ else none
  isGameRespected := fun _ => true
  isGameBlacklisted := fun _ => false
  isGameRetired := fun _ => false
  anchors := fun _ => ⟨3, 1⟩
  respectedGameType := 42
  isGameFinalized := fun _ => false
  isGameProper := fun _ => true
  verifyProof := fun _ _ _ => false

def exampleImmutables : FaultGame.Immutables where
  maxChallengeDuration := 100
  maxProveDuration := 100
  gameType := 42
  disputeGameFactory := 0xFAC
  rollupConfigHash := 0
  aggregationVkey := 0
  rangeVkeyCommitment := 0
  challengerBond := 10

theorem exampleFactoryAddress_ne_zero : (0xFAC : Address) ≠ zeroAddress := by decide

/-- The factory's call of the clone. -/
def exampleInitialize : Msg := ⟨0xFAC, 80, 1500, exampleFactoryAddress_ne_zero⟩

/-- The game for block 7 upon game 0. -/
def exampleCreation : GameCreation := ⟨42, 7, toBytesBE 32 7 ++ toBytesBE 4 0, 80⟩

theorem exampleL1_creates (status : GameStatus) :
    handleGameCreation exampleKeccak exampleProposer (exampleL1 status) exampleChain
      (fun _ => .ok (some 9)) = .ok (some exampleCreation) := by
  cases status <;> decide +kernel

theorem exampleL1_submitted (status : GameStatus) :
    Submitted exampleProposer (exampleL1 status) 0xC exampleImmutables (exampleParentWorld status)
      exampleInitialize := by
  refine ⟨⟨fun i game hgame => ?_, fun gameType root hroot => ?_⟩, rfl, rfl, rfl⟩
  · match i with
    | 0 =>
      cases hgame
      refine ⟨_, rfl, rfl, fun n hn => ?_, fun root hroot => ?_, fun args g hcontract => ?_⟩
      · rw [← Except.ok.inj hn]
        show 5 = FaultGame.l2BlockNumber (FaultGame.packArgs 0xC 7 0 5 noParent)
        decide +kernel
      · rw [← Except.ok.inj hroot]
        show 7 = FaultGame.rootClaim (FaultGame.packArgs 0xC 7 0 5 noParent)
        decide +kernel
      · cases hcontract
        rfl
    | i + 1 => cases hgame
  · exact Option.some.inj hroot

theorem exampleParent_latest (status : GameStatus) :
    ∃ game, LatestCanonical exampleKeccak exampleChain (exampleParent status) 5 0 game := by
  refine latestCanonical_of_scan ?_
  cases status <;> decide +kernel

/-- While the canonical game is in progress, the created game is accepted. -/
theorem created_game_accepted_iff_example :
    ParentAccepted exampleImmutables (cloneArgs 0xC 0xB10C exampleCreation)
      (exampleParentWorld .inProgress) exampleInitialize (FaultGame.Game.fresh 0) := by
  refine (created_game_accepted_iff 0xB10C 0 (exampleL1_creates .inProgress)
    (exampleL1_submitted .inProgress)).mpr ?_
  obtain ⟨game, hlatest⟩ := exampleParent_latest .inProgress
  refine hlatest.parentsAgree_iff.mpr ?_
  rw [if_neg (by decide)]
  exact ⟨⟨_, rfl, rfl, rfl, rfl, by decide⟩, by decide⟩

/-- **The failing input.**  Upon a canonical game that is lost, the created game reverts with
`InvalidParentGame`. -/
theorem lost_parent_chosen :
    ∃ creation, handleGameCreation exampleKeccak exampleProposer (exampleL1 .challengerWins)
        exampleChain (fun _ => .ok (some 9)) = .ok (some creation) ∧
      Submitted exampleProposer (exampleL1 .challengerWins) 0xC exampleImmutables
        (exampleParentWorld .challengerWins) exampleInitialize ∧
      FaultGame.initializeGame exampleImmutables (cloneArgs 0xC 0xB10C creation)
        (exampleParentWorld .challengerWins) exampleInitialize (FaultGame.Game.fresh 0) =
          .error .invalidParentGame ∧
      ¬ ParentAccepted exampleImmutables (cloneArgs 0xC 0xB10C creation)
        (exampleParentWorld .challengerWins) exampleInitialize (FaultGame.Game.fresh 0) := by
  have hstart : FaultGame.startingRoot exampleImmutables (cloneArgs 0xC 0xB10C exampleCreation)
      (exampleParentWorld .challengerWins) = .error .invalidParentGame := by
    decide +kernel
  have hreaches : ReachesParent exampleImmutables (cloneArgs 0xC 0xB10C exampleCreation)
      (exampleParentWorld .challengerWins) exampleInitialize (FaultGame.Game.fresh 0) :=
    ⟨rfl, rfl, rfl, by decide +kernel⟩
  have hreverts := (hreaches.rejects_iff (.inl rfl)).mpr (.inl hstart)
  exact ⟨exampleCreation, exampleL1_creates .challengerWins, exampleL1_submitted .challengerWins,
    hreverts, fun haccepted => haccepted.1 hreverts⟩

end OpSuccinct.FaultProof
