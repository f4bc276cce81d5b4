import OpSuccinct.FallibleScan
import OpSuccinct.FaultGame

/-! # The scan for a challengable game

`get_oldest_game_address` of the fault proof service (`fault-proof/src/lib.rs`):
the challenger looks through a window of the factory's latest games for the first
unchallenged one whose claim is not the output root of its block.

Every visit reads from L1 and from the L2 node, and a failed read ends the whole
scan.  So an invalid game is found exactly when its own block exists, it is still
open by L2 time, and no earlier game of the window fails a read or is taken
instead (`challengable_game_found_iff`).
-/
namespace OpSuccinct.FaultProof

open FaultGame (ProposalStatus ClaimData)

/-! ## The L2 node -/

/-- What a block header is read for. -/
structure L2Header where
  hash : Bytes32
  stateRoot : Bytes32
  timestamp : Nat

/-- **The L2 chain, as its node answers for it**: every block up to the head, and
nothing beyond. -/
structure L2Chain where
  head : Nat
  head_lt : head < 2 ^ 64
  header : Nat → L2Header
  storageHash : Address → Nat → Bytes32

inductive BlockNumberOrTag
  | latest
  | number (n : Nat)

/-- Where a scan can fail.  A `U256` that does not fit a `u64` panics. -/
inductive ScanError
  | callFailed
  | l2BlockNotFound
  | u64Overflow
  deriving DecidableEq

/-- `eth_getBlockByNumber`. -/
def L2Chain.blockByNumber (l2 : L2Chain) : BlockNumberOrTag → Option L2Header
  | .latest => some (l2.header l2.head)
  | .number n => if n ≤ l2.head then some (l2.header n) else none

def getL2BlockByNumber (l2 : L2Chain) (blockNumber : BlockNumberOrTag) :
    Except ScanError L2Header :=
  match l2.blockByNumber blockNumber with
  | some block => .ok block
  | none => .error .l2BlockNotFound

def getL2StorageRoot (l2 : L2Chain) (address : Address) (blockNumber : Nat) :
    Except ScanError Bytes32 :=
  if blockNumber ≤ l2.head then .ok (l2.storageHash address blockNumber) else .error .callFailed

/-- `U256::to::<u64>`. -/
def toU64 (n : Nat) : Except ScanError Nat :=
  if n < 2 ^ 64 then .ok n else .error .u64Overflow

/-- The L2-to-L1 message passer. -/
def messagePasser : Address := 0x4200000000000000000000000000000000000016

/-- `abi_encode` of an `L2Output`, whose first field is zero. -/
def encodeL2Output (l2StateRoot l2StorageHash l2ClaimHash : Bytes32) : Bytes :=
  abiWord 0 ++ abiWord l2StateRoot.toNat ++ abiWord l2StorageHash.toNat ++
    abiWord l2ClaimHash.toNat

variable (keccak256 : Bytes → Bytes32)

def computeOutputRootAtBlock (l2 : L2Chain) (l2BlockNumber : Nat) : Except ScanError Bytes32 := do
  let l2Block ← getL2BlockByNumber l2 (.number (← toU64 l2BlockNumber))
  let l2StorageRoot ← getL2StorageRoot l2 messagePasser (← toU64 l2BlockNumber)
  return keccak256 (encodeL2Output l2Block.stateRoot l2StorageRoot l2Block.hash)

/-! ## The factory -/

/-- **The contract behind a proxy of the factory**: a clone of the OP Succinct game, or
a game of another type, which need not answer the calls made of it. -/
inductive GameContract
  | opSuccinct (args : Bytes) (game : FaultGame.Game)
  | other (claimData : Option ClaimData) (l2BlockNumber : Option Nat) (rootClaim : Option Bytes32)

structure FactoryGame where
  proxy : Address
  contract : GameContract

/-- The games a factory created, each at a proxy of its own. -/
structure Factory where
  games : List FactoryGame
  proxies_nodup : (games.map (·.proxy)).Nodup

/-- The result of a call. -/
def called {α : Type} : Option α → Except ScanError α
  | some a => .ok a
  | none => .error .callFailed

def GameContract.claimData : GameContract → Except ScanError ClaimData
  | .opSuccinct _ game => .ok game.claimData
  | .other claimData _ _ => called claimData

def GameContract.l2BlockNumber : GameContract → Except ScanError Nat
  | .opSuccinct args _ => .ok (FaultGame.l2BlockNumber args)
  | .other _ l2BlockNumber _ => called l2BlockNumber

def GameContract.rootClaim : GameContract → Except ScanError Bytes32
  | .opSuccinct args _ => .ok (FaultGame.rootClaim args)
  | .other _ _ rootClaim => called rootClaim

/-- Nothing before the first game was created. -/
def fetchLatestGameIndex (factory : Factory) : Option Nat :=
  if factory.games.length = 0 then none else some (factory.games.length - 1)

def fetchGameByIndex (factory : Factory) (gameIndex : Nat) : Except ScanError FactoryGame :=
  called factory.games[gameIndex]?

/-! ## The scan -/

/-- One turn of the scan: the game's address, if it matches. -/
def visitGame (l2 : L2Chain) (statusCheck : ProposalStatus → Bool)
    (outputRootCheck : Bytes32 → Bytes32 → Bool) (game : FactoryGame) :
    Except ScanError (Option Address) := do
  let claimData ← game.contract.claimData
  if ¬ statusCheck claimData.status then
    return none
  let current ← getL2BlockByNumber l2 .latest
  if claimData.deadline < current.timestamp then
    return none
  let blockNumber ← game.contract.l2BlockNumber
  let gameClaim ← game.contract.rootClaim
  let outputRoot ← computeOutputRootAtBlock keccak256 l2 blockNumber
  return if outputRootCheck outputRoot gameClaim then some game.proxy else none

/-- The window starts `maxGamesToCheck` below the latest game, or at the first. -/
def getOldestGameAddress (factory : Factory) (maxGamesToCheck : Nat) (l2 : L2Chain)
    (statusCheck : ProposalStatus → Bool) (outputRootCheck : Bytes32 → Bytes32 → Bool) :
    Except ScanError (Option Address) :=
  match fetchLatestGameIndex factory with
  | none => pure none
  | some latestGameIndex =>
    let gameIndex := latestGameIndex - maxGamesToCheck
    scanFrom (fetchGameByIndex factory) (visitGame keccak256 l2 statusCheck outputRootCheck)
      (latestGameIndex + 1 - gameIndex) gameIndex

def getOldestChallengableGameAddress (factory : Factory) (maxGamesToCheckForChallenge : Nat)
    (l2 : L2Chain) : Except ScanError (Option Address) :=
  getOldestGameAddress keccak256 factory maxGamesToCheckForChallenge l2
    (fun status => status == .unchallenged) (fun outputRoot gameClaim => outputRoot != gameClaim)

/-! ## What a visit finds -/

variable {keccak256} {l2 : L2Chain} {factory : Factory} {game : FactoryGame}

/-- The output root of a block of the chain. -/
def L2Chain.outputRoot (keccak256 : Bytes → Bytes32) (l2 : L2Chain) (n : Nat) : Bytes32 :=
  keccak256 (encodeL2Output (l2.header n).stateRoot (l2.storageHash messagePasser n)
    (l2.header n).hash)

/-- The L2 time: the timestamp of the latest block. -/
def L2Chain.now (l2 : L2Chain) : Nat := (l2.header l2.head).timestamp

/-- **A canonical claim**: the chain has the block, and the claim is its output root. -/
def L2Chain.Canonical (keccak256 : Bytes → Bytes32) (l2 : L2Chain) (n : Nat) (root : Bytes32) :
    Prop :=
  n ≤ l2.head ∧ l2.outputRoot keccak256 n = root

theorem called_ok_iff {α : Type} {x : Option α} {a : α} : called x = .ok a ↔ x = some a := by
  cases x <;> simp [called]

theorem getL2BlockByNumber_latest (l2 : L2Chain) :
    getL2BlockByNumber l2 .latest = .ok (l2.header l2.head) := rfl

theorem getL2BlockByNumber_number_ok_iff {n : Nat} {block : L2Header} :
    getL2BlockByNumber l2 (.number n) = .ok block ↔ n ≤ l2.head ∧ l2.header n = block := by
  by_cases h : n ≤ l2.head <;> simp [getL2BlockByNumber, L2Chain.blockByNumber, h]

theorem toU64_ok_iff {n m : Nat} : toU64 n = .ok m ↔ n < 2 ^ 64 ∧ n = m := by
  unfold toU64
  split <;> simp <;> omega

theorem getL2StorageRoot_ok_iff {address : Address} {n : Nat} {root : Bytes32} :
    getL2StorageRoot l2 address n = .ok root ↔ n ≤ l2.head ∧ l2.storageHash address n = root := by
  unfold getL2StorageRoot
  split <;> simp [*]

/-- The output root is computed exactly for the blocks the chain has. -/
theorem computeOutputRootAtBlock_ok_iff {n : Nat} {root : Bytes32} :
    computeOutputRootAtBlock keccak256 l2 n = .ok root ↔ l2.Canonical keccak256 n root := by
  simp only [computeOutputRootAtBlock, bind_ok_iff, toU64_ok_iff, getL2StorageRoot_ok_iff,
    getL2BlockByNumber_number_ok_iff, pure_ok_iff]
  constructor
  · rintro ⟨_, ⟨-, rfl⟩, _, ⟨hle, rfl⟩, _, ⟨-, rfl⟩, _, ⟨-, rfl⟩, rfl⟩
    exact ⟨hle, rfl⟩
  · rintro ⟨hle, rfl⟩
    have h64 : n < 2 ^ 64 := Nat.lt_of_le_of_lt hle l2.head_lt
    exact ⟨n, ⟨h64, rfl⟩, _, ⟨hle, rfl⟩, n, ⟨h64, rfl⟩, _, ⟨hle, rfl⟩, rfl⟩

/-- The visit of the challenger's scan. -/
abbrev visitChallengable (keccak256 : Bytes → Bytes32) (l2 : L2Chain) (game : FactoryGame) :
    Except ScanError (Option Address) :=
  visitGame keccak256 l2 (fun status => status == .unchallenged)
    (fun outputRoot gameClaim => outputRoot != gameClaim) game

/-- **A game is passed over** when it is not unchallenged, closed by L2 time, or makes a
canonical claim. -/
def PassedOver (keccak256 : Bytes → Bytes32) (l2 : L2Chain) (game : FactoryGame) : Prop :=
  ∃ claimData, game.contract.claimData = .ok claimData ∧
    (claimData.status ≠ .unchallenged ∨ claimData.deadline < l2.now ∨
      ∃ n root, game.contract.l2BlockNumber = .ok n ∧ game.contract.rootClaim = .ok root ∧
        l2.Canonical keccak256 n root)

theorem visitChallengable_none_iff :
    visitChallengable keccak256 l2 game = .ok none ↔ PassedOver keccak256 l2 game := by
  simp only [visitGame, bind_ok_iff, PassedOver, L2Chain.now]
  refine exists_congr fun claimData => and_congr_right fun _ => ?_
  by_cases hstatus : claimData.status = .unchallenged
  · by_cases hdeadline : claimData.deadline < (l2.header l2.head).timestamp
    · simp [hstatus, getL2BlockByNumber_latest, hdeadline, bind_ok_iff]
    · simp [hstatus, getL2BlockByNumber_latest, hdeadline, bind_ok_iff,
        computeOutputRootAtBlock_ok_iff]
  · simp [hstatus]

/-- **A game is taken** when it is unchallenged, open by L2 time, and claims another
root than the one of its block, which the chain has. -/
theorem visitChallengable_some_iff {address : Address} :
    visitChallengable keccak256 l2 game = .ok (some address) ↔
      ∃ claimData n root, game.contract.claimData = .ok claimData ∧
        claimData.status = .unchallenged ∧ l2.now ≤ claimData.deadline ∧
        game.contract.l2BlockNumber = .ok n ∧ game.contract.rootClaim = .ok root ∧ n ≤ l2.head ∧
        l2.outputRoot keccak256 n ≠ root ∧ game.proxy = address := by
  simp only [visitGame, bind_ok_iff, L2Chain.now]
  refine exists_congr fun claimData => ?_
  by_cases hstatus : claimData.status = .unchallenged
  · by_cases hdeadline : claimData.deadline < (l2.header l2.head).timestamp
    · have hclosed := Nat.not_le.mpr hdeadline
      simp [hstatus, getL2BlockByNumber_latest, hdeadline, hclosed, bind_ok_iff]
    · have hopen := Nat.not_lt.mp hdeadline
      simp [hstatus, getL2BlockByNumber_latest, hdeadline, hopen, bind_ok_iff,
        computeOutputRootAtBlock_ok_iff, L2Chain.Canonical]
  · simp [hstatus]

/-! ## Completeness of the challenger -/

/-- The indices a scan of `maxGamesToCheck` looks at. -/
def InWindow (factory : Factory) (maxGamesToCheck i : Nat) : Prop :=
  factory.games.length - 1 - maxGamesToCheck ≤ i ∧ i < factory.games.length

/-- **An invalid open game** at an index: an unchallenged OP Succinct game that a call
could still challenge, and whose claim is not canonical. -/
def Challengable (keccak256 : Bytes → Bytes32) (l2 : L2Chain) (m : Msg) (factory : Factory)
    (i : Nat) (game : FactoryGame) : Prop :=
  factory.games[i]? = some game ∧ ∃ args g, game.contract = .opSuccinct args g ∧
    g.claimData.status = .unchallenged ∧ FaultGame.gameOver m g = false ∧
    ¬ l2.Canonical keccak256 (FaultGame.l2BlockNumber args) (FaultGame.rootClaim args)

/-- The invalid open game of the window with the lowest index. -/
def OldestChallengable (keccak256 : Bytes → Bytes32) (l2 : L2Chain) (m : Msg) (factory : Factory)
    (maxGamesToCheck i : Nat) (game : FactoryGame) : Prop :=
  Challengable keccak256 l2 m factory i game ∧ InWindow factory maxGamesToCheck i ∧
    ∀ j, InWindow factory maxGamesToCheck j → j < i →
      ∀ game', ¬ Challengable keccak256 l2 m factory j game'

/-- **Completeness**: the oldest invalid open game is the scan's answer. -/
def FindsChallengable (keccak256 : Bytes → Bytes32) (l2 : L2Chain) (m : Msg) (factory : Factory)
    (maxGamesToCheck : Nat) : Prop :=
  ∀ i game, OldestChallengable keccak256 l2 m factory maxGamesToCheck i game →
    getOldestChallengableGameAddress keccak256 factory maxGamesToCheck l2 = .ok (some game.proxy)

/-- The chain has the game's block, and the game is open by L2 time. -/
def Visible (l2 : L2Chain) (game : FactoryGame) : Prop :=
  ∃ args g, game.contract = .opSuccinct args g ∧ FaultGame.l2BlockNumber args ≤ l2.head ∧
    l2.now ≤ g.claimData.deadline

/-- The oldest invalid open game is visible, and every earlier game of the window is
passed over. -/
def Unobstructed (keccak256 : Bytes → Bytes32) (l2 : L2Chain) (m : Msg) (factory : Factory)
    (maxGamesToCheck : Nat) : Prop :=
  ∀ i game, OldestChallengable keccak256 l2 m factory maxGamesToCheck i game →
    Visible l2 game ∧ ∀ j game', InWindow factory maxGamesToCheck j → j < i →
      factory.games[j]? = some game' → PassedOver keccak256 l2 game'

variable {m : Msg} {i : Nat} {maxGamesToCheck : Nat}

theorem Factory.eq_of_proxy_eq {j : Nat} {game' : FactoryGame} (hi : factory.games[i]? = some game)
    (hj : factory.games[j]? = some game') (h : game.proxy = game'.proxy) : i = j := by
  have hlen : i < (factory.games.map (·.proxy)).length := by
    rw [List.length_map]
    exact (List.getElem?_eq_some_iff.mp hi).1
  apply (List.getElem?_inj hlen factory.proxies_nodup).mp
  rw [List.getElem?_map, List.getElem?_map, hi, hj]
  exact congrArg some h

/-- The scan's answer, index by index. -/
theorem getOldestChallengable_some_iff {address : Address} :
    getOldestChallengableGameAddress keccak256 factory maxGamesToCheck l2 = .ok (some address) ↔
      ∃ j, InWindow factory maxGamesToCheck j ∧
        (∃ game, factory.games[j]? = some game ∧
          visitChallengable keccak256 l2 game = .ok (some address)) ∧
        ∀ n, InWindow factory maxGamesToCheck n → n < j →
          ∃ game, factory.games[n]? = some game ∧ PassedOver keccak256 l2 game := by
  unfold getOldestChallengableGameAddress getOldestGameAddress fetchLatestGameIndex
  by_cases hempty : factory.games.length = 0
  · simp [hempty, InWindow]
  · simp only [hempty, if_false, scanFrom_some_iff, Passed, fetchGameByIndex, called_ok_iff,
      visitChallengable_none_iff, InWindow]
    constructor
    · rintro ⟨j, hle, hlt, hfound, hbefore⟩
      exact ⟨j, ⟨hle, by omega⟩, hfound, fun n hn => hbefore n hn.1⟩
    · rintro ⟨j, ⟨hle, hlt⟩, hfound, hbefore⟩
      exact ⟨j, hle, by omega, hfound, fun n hn hnj => hbefore n ⟨hn, by omega⟩ hnj⟩

/-- An invalid open game is taken exactly when it is visible. -/
theorem Challengable.visited_iff (h : Challengable keccak256 l2 m factory i game) :
    visitChallengable keccak256 l2 game = .ok (some game.proxy) ↔ Visible l2 game := by
  obtain ⟨-, args, g, hcontract, hstatus, -, hinvalid⟩ := h
  rw [visitChallengable_some_iff]
  constructor
  · rintro ⟨claimData, n, root, hclaim, -, hopen, hn, -, hle, -, -⟩
    rw [hcontract] at hclaim hn
    cases hclaim
    cases hn
    exact ⟨args, g, hcontract, hle, hopen⟩
  · rintro ⟨args', g', hcontract', hle, hopen⟩
    cases hcontract.symm.trans hcontract'
    have hroot : l2.outputRoot keccak256 (FaultGame.l2BlockNumber args) ≠
        FaultGame.rootClaim args :=
      fun heq => hinvalid ⟨hle, heq⟩
    refine ⟨g.claimData, _, _, ?_, hstatus, hopen, ?_, ?_, hle, hroot, rfl⟩
    · rw [hcontract]
      rfl
    · rw [hcontract]
      rfl
    · rw [hcontract]
      rfl

/-- The scan answers with the oldest invalid open game exactly when that game is visible
and every earlier one is passed over. -/
theorem OldestChallengable.found_iff
    (h : OldestChallengable keccak256 l2 m factory maxGamesToCheck i game) :
    getOldestChallengableGameAddress keccak256 factory maxGamesToCheck l2 = .ok (some game.proxy) ↔
      Visible l2 game ∧ ∀ j game', InWindow factory maxGamesToCheck j → j < i →
        factory.games[j]? = some game' → PassedOver keccak256 l2 game' := by
  obtain ⟨hgame, hwindow, -⟩ := h
  rw [getOldestChallengable_some_iff, ← hgame.visited_iff]
  constructor
  · rintro ⟨j, -, ⟨found, hfound, hvisit⟩, hbefore⟩
    -- A proxy belongs to one game, so the game found is this one.
    obtain ⟨_, _, _, -, -, -, -, -, -, -, hproxy⟩ := visitChallengable_some_iff.mp hvisit
    obtain rfl : j = i := factory.eq_of_proxy_eq hfound hgame.1 hproxy
    obtain rfl : found = game := Option.some.inj (hfound.symm.trans hgame.1)
    refine ⟨hvisit, fun n game' hn hlt hgame' => ?_⟩
    obtain ⟨other, hother, hpassed⟩ := hbefore n hn hlt
    cases hother.symm.trans hgame'
    exact hpassed
  · rintro ⟨hvisit, hbefore⟩
    refine ⟨i, hwindow, ⟨game, hgame.1, hvisit⟩, fun n hn hlt => ?_⟩
    have hget := List.getElem?_eq_getElem hn.2
    exact ⟨_, hget, hbefore n _ hn hlt hget⟩

/-- **When the challenger finds the oldest invalid open game.**  For every factory, L2
chain and window: the scan answers with it if and only if the chain has its block, it
is open by L2 time too, and every earlier game of the window answers the reads made of
it and is not unchallenged, closed by L2 time, or canonical. -/
theorem challengable_game_found_iff (keccak256 : Bytes → Bytes32) (l2 : L2Chain) (m : Msg)
    (factory : Factory) (maxGamesToCheck : Nat) :
    FindsChallengable keccak256 l2 m factory maxGamesToCheck ↔
      Unobstructed keccak256 l2 m factory maxGamesToCheck :=
  forall_congr' fun _ => forall_congr' fun _ => forall_congr' fun h => h.found_iff

/-! ### A claim beyond the head

The chain ends at block 10.  Game 0 claims block 11, and game 1 claims another root
for block 5 than the chain's. -/

def exampleChain : L2Chain where
  head := 10
  head_lt := by decide
  header := fun n => ⟨0, 0, 1000 + 2 * n⟩
  storageHash := fun _ _ => 0

/-- A hash that gives every block the output root 7. -/
def exampleKeccak (_ : Bytes) : Bytes32 := 7

/-- An unchallenged game for a claim, open until a time. -/
def exampleOpenGame (deadline : Nat) : FaultGame.Game :=
  { FaultGame.Game.fresh 0 with
    initialized := true
    claimData := ⟨FaultGame.noParent, zeroAddress, zeroAddress, 0, .unchallenged, deadline⟩ }

def exampleFactory : Factory where
  games :=
    [⟨0xA0, .opSuccinct (FaultGame.packArgs 0xC 9 0 11 FaultGame.noParent) (exampleOpenGame 2000)⟩,
     ⟨0xA1, .opSuccinct (FaultGame.packArgs 0xC 9 0 5 FaultGame.noParent) (exampleOpenGame 2000)⟩]
  proxies_nodup := by decide

theorem exampleChallenger_ne_zero : (0xC4A : Address) ≠ zeroAddress := by decide

/-- A call made at L1 time 1500. -/
def exampleChallenge : Msg := ⟨0xC4A, 0, 1500, exampleChallenger_ne_zero⟩

theorem exampleFactory_oldest :
    ∃ game, OldestChallengable exampleKeccak exampleChain exampleChallenge exampleFactory 100 0
      game := by
  refine ⟨_, ⟨rfl, _, _, rfl, rfl, rfl, fun hcanonical => ?_⟩, ⟨by decide, by decide⟩, ?_⟩
  · exact absurd hcanonical.1 (by decide)
  · intro j _ hlt
    omega

/-- **The failing input.**  A game that claims a block beyond the head ends the scan with
an error, so neither invalid game is found. -/
theorem unknown_block_hides_games :
    getOldestChallengableGameAddress exampleKeccak exampleFactory 100 exampleChain =
      .error .l2BlockNotFound ∧
    ¬ FindsChallengable exampleKeccak exampleChain exampleChallenge exampleFactory 100 := by
  have hscan : getOldestChallengableGameAddress exampleKeccak exampleFactory 100 exampleChain =
      .error .l2BlockNotFound := by decide
  refine ⟨hscan, fun hfinds => ?_⟩
  obtain ⟨game, hgame⟩ := exampleFactory_oldest
  have hfound := hfinds 0 game hgame
  rw [hscan] at hfound
  cases hfound

end OpSuccinct.FaultProof
