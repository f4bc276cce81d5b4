import OpSuccinct.AggregationAgreement
import OpSuccinct.FaultGameSteps
import OpSuccinct.ProposalParent
import OpSuccinct.PublicValues

/-! # The defence of a challenged game

`spawn_game_defense_tasks`, `spawn_game_proving_task` and `prove_game` of the fault proof
proposer (`fault-proof/src/proposer.rs`).  The oldest challenged game with a canonical
claim is proven, over a range that ends at the game's block and is one proposal interval
long.

The game starts where its parent ended, at any block below its own.  So the proof is the
game's own exactly when the interval is the distance to the game's starting block, and the
proposer sends it from the address it commits to, for the program the game was deployed
with (`defence_proves_game_iff`).

The subtraction of the interval wraps, as in the release build that the Dockerfiles make.
-/
namespace OpSuccinct.FaultProof

open AggregationHost (Host HostError L1Chain Zkvm SP1ProofWithPublicValues Codecs)
open Aggregation (Runtime)
open FaultGame (Immutables)
open Transition

/-! ## The proposer -/

/-- The proposer, with what identifies the range program it proves. -/
structure OPSuccinctProposer where
  config : ProposerConfig
  maxGamesToCheckForDefense : Nat
  /-- The address that is committed to in the aggregation proof. -/
  proverAddress : Address
  signer : Address
  rangeVkey : Vector UInt32 8
  rollupConfigHash : Bytes32

inductive DefenseError
  | read (e : ScanError)
  | emptyRange
  | rangeProof
  | host (e : HostError)
  | aggregation (e : Aggregation.Panic)
  deriving DecidableEq

/-- The arguments of the host, as far as they say what is proven. -/
structure SingleChainHost where
  l1Head : Bytes32
  agreedL2OutputRoot : Bytes32
  agreedL2HeadHash : Bytes32
  claimedL2OutputRoot : Bytes32
  claimedL2BlockNumber : UInt64

/-- **What the host and the provers do**: the range proof for some arguments, the L1 chain
and the codecs of the aggregation stdin, and the aggregation program's machine. -/
structure Prover (Header Proof Vk : Type) where
  rt : Runtime Header
  l1 : L1Chain rt
  host : Host Header Proof Vk
  vm : Zkvm Proof Vk
  rangeVk : Vk
  rangeProof : SingleChainHost → Option (SP1ProofWithPublicValues Proof)

section Proposer
variable (keccak256 : Bytes → Bytes32) (proposer : OPSuccinctProposer) (l2 : L2Chain)

def getOldestDefensibleGameAddress (factory : Factory) (maxGamesToCheckForDefense : Nat)
    (l2 : L2Chain) : Except ScanError (Option Address) :=
  getOldestGameAddress keccak256 factory maxGamesToCheckForDefense l2
    (fun status => status == .challenged) (fun outputRoot gameClaim => outputRoot == gameClaim)

/-- `get_host_args`: the output roots at both ends of the range. -/
def getHostArgs (l2StartBlock l2EndBlock : UInt64) (l1HeadHash : Bytes32) :
    Except DefenseError SingleChainHost := do
  require (l2StartBlock < l2EndBlock) .emptyRange
  let l2OutputBlock ← (getL2BlockByNumber l2 (.number l2StartBlock.toNat)).mapError .read
  let l2OutputStorageHash ← (getL2StorageRoot l2 messagePasser l2StartBlock.toNat).mapError .read
  let l2ClaimBlock ← (getL2BlockByNumber l2 (.number l2EndBlock.toNat)).mapError .read
  let l2ClaimStorageHash ← (getL2StorageRoot l2 messagePasser l2EndBlock.toNat).mapError .read
  return {
    l1Head := l1HeadHash
    agreedL2OutputRoot := keccak256 (encodeL2Output l2OutputBlock.stateRoot l2OutputStorageHash
      l2OutputBlock.hash)
    agreedL2HeadHash := l2OutputBlock.hash
    claimedL2OutputRoot := keccak256 (encodeL2Output l2ClaimBlock.stateRoot l2ClaimStorageHash
      l2ClaimBlock.hash)
    claimedL2BlockNumber := l2EndBlock }

/-- The blocks a game is proven over.  The subtraction of the `u64`s wraps. -/
def provingRange (args : Bytes) : Except ScanError (UInt64 × UInt64) := do
  let l2BlockNumber ← toU64 (FaultGame.l2BlockNumber args)
  return (UInt64.ofNat l2BlockNumber - proposer.config.proposalIntervalInBlocks,
    UInt64.ofNat l2BlockNumber)

/-- The public values of the proof that is sent to the game. -/
def proveGame {Header Proof Vk : Type} (p : Prover Header Proof Vk) (args : Bytes) :
    Except DefenseError Bytes := do
  let l1HeadHash := FaultGame.l1Head args
  let (startBlock, endBlock) ← (provingRange proposer args).mapError .read
  let hostArgs ← getHostArgs keccak256 l2 startBlock endBlock l1HeadHash
  let rangeProof ← (called (p.rangeProof hostArgs)).mapError fun _ => .rangeProof
  let bootInfo ←
    (called (p.host.readBootInfo rangeProof.publicValues)).mapError fun _ => .rangeProof
  let headers ← (AggregationHost.getHeaderPreimages p.l1 [bootInfo] bootInfo.l1Head).mapError .host
  let stdin ← (AggregationHost.getAggProofStdin p.host p.rangeVk [rangeProof.proof] [bootInfo]
    headers bootInfo.l1Head proposer.proverAddress).mapError .host
  (AggregationHost.mainOn p.rt p.vm stdin).mapError .aggregation

/-- The range that is logged, with the outcome of the task. -/
def spawnGameProvingTask {Header Proof Vk : Type} (p : Prover Header Proof Vk) (args : Bytes) :
    Except DefenseError ((UInt64 × UInt64) × Except DefenseError Bytes) := do
  let (startBlock, endBlock) ← (provingRange proposer args).mapError .read
  return ((startBlock, endBlock), proveGame keccak256 proposer l2 p args)

end Proposer

/-! ## The game's own proof -/

/-- The boot info of some host arguments. -/
def SingleChainHost.bootInfo (hostArgs : SingleChainHost) (rollupConfigHash : Bytes32) :
    BootInfoStruct where
  l1Head := hostArgs.l1Head
  l2PreRoot := hostArgs.agreedL2OutputRoot
  l2PostRoot := hostArgs.claimedL2OutputRoot
  l2BlockNumber := hostArgs.claimedL2BlockNumber
  rollupConfigHash := rollupConfigHash

/-- **What is assumed of the host and the provers**: a range proof is about the arguments it
was made for, under the proposer's rollup config and range program, and stdin is read as it
was written. -/
structure Prover.Honest {Header Proof Vk : Type} (p : Prover Header Proof Vk)
    (proposer : OPSuccinctProposer) : Prop where
  codecs : Codecs p.host p.rt
  rangeVkey : p.host.hashU32 p.rangeVk = proposer.rangeVkey
  range : ∀ hostArgs rangeProof bootInfo, p.rangeProof hostArgs = some rangeProof →
    p.host.readBootInfo rangeProof.publicValues = some bootInfo →
    bootInfo = hostArgs.bootInfo proposer.rollupConfigHash

/-- **A defence proves the game it defends**: the range is computed without underflow and is
the game's own, and if the chain has the starting root, whatever proof is sent is from that
root and commits the public values that `prove` rebuilds. -/
structure ProvesItsGame (keccak256 : Bytes → Bytes32) (proposer : OPSuccinctProposer)
    (l2 : L2Chain) (im : Immutables) (args : Bytes) (g : FaultGame.Game) : Prop where
  noUnderflow : proposer.config.proposalIntervalInBlocks.toNat ≤ FaultGame.l2BlockNumber args
  range : ∃ startBlock endBlock, provingRange proposer args = .ok (startBlock, endBlock) ∧
    startBlock.toNat = g.startingOutputRoot.l2BlockNumber ∧
    endBlock.toNat = FaultGame.l2BlockNumber args
  proof : l2.Canonical keccak256 g.startingOutputRoot.l2BlockNumber g.startingOutputRoot.root →
    ∀ {Header Proof Vk : Type} (p : Prover Header Proof Vk), p.Honest proposer →
    ∀ range sent, spawnGameProvingTask keccak256 proposer l2 p args = .ok (range, .ok sent) →
    ∃ outputs : Aggregation.AggregationOutputs, sent = outputs.abiEncode ∧
      outputs.l2PreRoot = g.startingOutputRoot.root ∧
      sent = (FaultGame.publicValues im args g proposer.signer).abiEncode

/-- **The proposer sends the game's public values**: from the address it commits to, and for
the rollup config and range program of the deployment. -/
structure MatchesDeployment (proposer : OPSuccinctProposer) (im : Immutables) : Prop where
  sender : proposer.proverAddress = proposer.signer
  rollupConfigHash : proposer.rollupConfigHash = im.rollupConfigHash
  rangeVkey : b256 (Aggregation.u32ToU8 proposer.rangeVkey) = im.rangeVkeyCommitment

variable {keccak256 : Bytes → Bytes32} {proposer : OPSuccinctProposer} {l2 : L2Chain}
  {factory : Factory} {game : FactoryGame} {im : Immutables} {args : Bytes} {g : FaultGame.Game}
  {startBlock endBlock : UInt64}

/-! ## What the scan finds -/

/-- A game that is taken has a block of the chain, and a claim that was compared with its
output root. -/
theorem visitGame_some {statusCheck : FaultGame.ProposalStatus → Bool}
    {outputRootCheck : Bytes32 → Bytes32 → Bool} {address : Address}
    (h : visitGame keccak256 l2 statusCheck outputRootCheck game = .ok (some address)) :
    game.proxy = address ∧ ∃ n root, game.contract.l2BlockNumber = .ok n ∧
      game.contract.rootClaim = .ok root ∧ n ≤ l2.head ∧
      outputRootCheck (l2.outputRoot keccak256 n) root = true := by
  simp only [visitGame, bind_ok_iff] at h
  obtain ⟨claimData, -, h⟩ := h
  by_cases hstatus : ¬ statusCheck claimData.status
  · rw [if_pos hstatus] at h
    cases h
  rw [if_neg hstatus] at h
  simp only [bind_ok_iff] at h
  obtain ⟨_, hlatest, h⟩ := h
  split at h
  · cases h
  simp only [bind_ok_iff, computeOutputRootAtBlock_ok_iff, pure_ok_iff] at h
  obtain ⟨n, hn, root, hroot, outputRoot, ⟨hle, rfl⟩, h⟩ := h
  split at h
  · exact ⟨Option.some.inj h, n, root, hn, hroot, hle, ‹_›⟩
  · cases h

/-- **A defensible game makes a canonical claim.** -/
theorem defensible_canonical {address : Address} {maxGames : Nat}
    (hscan : getOldestDefensibleGameAddress keccak256 factory maxGames l2 = .ok (some address))
    (hgame : ⟨address, .opSuccinct args g⟩ ∈ factory.games) :
    l2.Canonical keccak256 (FaultGame.l2BlockNumber args) (FaultGame.rootClaim args) := by
  unfold getOldestDefensibleGameAddress getOldestGameAddress at hscan
  split at hscan
  · cases hscan
  obtain ⟨j, -, -, ⟨found, hfound, hvisit⟩, -⟩ := scanFrom_some_iff.mp hscan
  obtain ⟨hproxy, n, root, hn, hroot, hle, hcheck⟩ := visitGame_some hvisit
  obtain ⟨i, hi⟩ := List.mem_iff_getElem?.mp hgame
  have hfound := called_ok_iff.mp hfound
  obtain rfl := factory.eq_of_proxy_eq hfound hi hproxy
  obtain rfl := Option.some.inj (hfound.symm.trans hi)
  obtain rfl := Except.ok.inj hn
  obtain rfl := Except.ok.inj hroot
  exact ⟨hle, eq_of_beq hcheck⟩

/-! ## The range -/

theorem provingRange_eq (h : FaultGame.l2BlockNumber args < 2 ^ 64) :
    provingRange proposer args = .ok (UInt64.ofNat (FaultGame.l2BlockNumber args) -
      proposer.config.proposalIntervalInBlocks, UInt64.ofNat (FaultGame.l2BlockNumber args)) := by
  rw [provingRange, toU64, if_pos h]
  rfl

/-- The range starts one interval below the game's block. -/
theorem provingRange_start (h : FaultGame.l2BlockNumber args < 2 ^ 64)
    (hle : proposer.config.proposalIntervalInBlocks.toNat ≤ FaultGame.l2BlockNumber args) :
    (UInt64.ofNat (FaultGame.l2BlockNumber args) -
      proposer.config.proposalIntervalInBlocks).toNat =
        FaultGame.l2BlockNumber args - proposer.config.proposalIntervalInBlocks.toNat := by
  have hblock : (UInt64.ofNat (FaultGame.l2BlockNumber args)).toNat =
      FaultGame.l2BlockNumber args :=
    UInt64.toNat_ofNat_of_lt' h
  rw [UInt64.toNat_sub_of_le _ _ (UInt64.le_iff_toNat_le.mpr (hblock.symm ▸ hle)), hblock]

/-- **The range is the game's own** exactly when the interval is the distance to the game's
starting block. -/
theorem range_iff {startingBlock : Nat} (h : FaultGame.l2BlockNumber args < 2 ^ 64) :
    (proposer.config.proposalIntervalInBlocks.toNat ≤ FaultGame.l2BlockNumber args ∧
      ∃ startBlock endBlock, provingRange proposer args = .ok (startBlock, endBlock) ∧
        startBlock.toNat = startingBlock ∧ endBlock.toNat = FaultGame.l2BlockNumber args) ↔
      startingBlock + proposer.config.proposalIntervalInBlocks.toNat =
        FaultGame.l2BlockNumber args := by
  constructor
  · rintro ⟨hle, startBlock, endBlock, hrange, hstart, -⟩
    rw [provingRange_eq h] at hrange
    obtain ⟨rfl, -⟩ := Prod.mk.inj (Except.ok.inj hrange)
    have hsub := provingRange_start h hle
    omega
  · intro hsum
    have hle : proposer.config.proposalIntervalInBlocks.toNat ≤ FaultGame.l2BlockNumber args := by
      omega
    refine ⟨hle, _, _, provingRange_eq h, ?_, UInt64.toNat_ofNat_of_lt' h⟩
    rw [provingRange_start h hle]
    omega

/-! ## The proof -/

theorem getHostArgs_ok_iff {l1HeadHash : Bytes32} {hostArgs : SingleChainHost} :
    getHostArgs keccak256 l2 startBlock endBlock l1HeadHash = .ok hostArgs ↔
      startBlock < endBlock ∧ startBlock.toNat ≤ l2.head ∧ endBlock.toNat ≤ l2.head ∧
      { l1Head := l1HeadHash
        agreedL2OutputRoot := l2.outputRoot keccak256 startBlock.toNat
        agreedL2HeadHash := (l2.header startBlock.toNat).hash
        claimedL2OutputRoot := l2.outputRoot keccak256 endBlock.toNat
        claimedL2BlockNumber := endBlock } = hostArgs := by
  simp only [getHostArgs, bind_ok_iff, require_ok_iff, mapError_ok_iff, pure_ok_iff,
    getL2BlockByNumber_number_ok_iff, getL2StorageRoot_ok_iff]
  constructor
  · rintro ⟨_, hlt, _, ⟨hstart, rfl⟩, _, ⟨-, rfl⟩, _, ⟨hend, rfl⟩, _, ⟨-, rfl⟩, rfl⟩
    exact ⟨hlt, hstart, hend, rfl⟩
  · rintro ⟨hlt, hstart, hend, rfl⟩
    exact ⟨(), hlt, _, ⟨hstart, rfl⟩, _, ⟨hstart, rfl⟩, _, ⟨hend, rfl⟩, _, ⟨hend, rfl⟩, rfl⟩

/-- The inputs of the aggregation proof of one boot info. -/
def OPSuccinctProposer.inputs (proposer : OPSuccinctProposer) (bootInfo : BootInfoStruct) :
    Aggregation.AggregationInputs where
  bootInfos := [bootInfo]
  latestL1CheckpointHead := bootInfo.l1Head
  multiBlockVkey := proposer.rangeVkey
  proverAddress := proposer.proverAddress

section Sent
variable {Header Proof Vk : Type} {p : Prover Header Proof Vk}

/-- The stdin starts with the inputs. -/
theorem getAggProofStdin_inputs {proofs : List (AggregationHost.SP1Proof Proof)}
    {headers : List Header} {bootInfo : BootInfoStruct} {stdin : AggregationHost.SP1Stdin Proof Vk}
    (hhonest : p.Honest proposer)
    (h : AggregationHost.getAggProofStdin p.host p.rangeVk proofs [bootInfo] headers bootInfo.l1Head
      proposer.proverAddress = .ok stdin) :
    ∃ buffer rest, stdin.buffer = buffer :: rest ∧
      p.rt.decodeInputs buffer = some (proposer.inputs bootInfo) := by
  simp only [AggregationHost.getAggProofStdin, bind_ok_iff, pure_ok_iff] at h
  obtain ⟨_, -, buffer, hbuffer, headersBytes, -, rfl⟩ := h
  obtain ⟨bytes, hserialize, hdecode⟩ := hhonest.codecs.inputs (proposer.inputs bootInfo)
  rw [OPSuccinctProposer.inputs] at hserialize
  rw [hhonest.rangeVkey, hserialize] at hbuffer
  obtain rfl := Except.ok.inj hbuffer
  exact ⟨bytes, [headersBytes], rfl, hdecode⟩

theorem spawnGameProvingTask_ok_iff {range : UInt64 × UInt64}
    {outcome : Except DefenseError Bytes} :
    spawnGameProvingTask keccak256 proposer l2 p args = .ok (range, outcome) ↔
      provingRange proposer args = .ok range ∧
        proveGame keccak256 proposer l2 p args = outcome := by
  rw [spawnGameProvingTask, bind_ok_iff]
  constructor
  · rintro ⟨range', hrange, h⟩
    obtain ⟨rfl, rfl⟩ := Prod.mk.inj (pure_ok_iff.mp h)
    exact ⟨mapError_ok_iff.mp hrange, rfl⟩
  · rintro ⟨hrange, rfl⟩
    exact ⟨range, mapError_ok_iff.mpr hrange, rfl⟩

/-- **What a sent proof commits**: the outputs for the boot info of the host arguments. -/
theorem proveGame_ok (hhonest : p.Honest proposer) {sent : Bytes}
    (hrange : provingRange proposer args = .ok (startBlock, endBlock))
    (h : proveGame keccak256 proposer l2 p args = .ok sent) :
    ∃ hostArgs, getHostArgs keccak256 l2 startBlock endBlock (FaultGame.l1Head args) =
      .ok hostArgs ∧ sent = (Aggregation.finalOutputs
        (proposer.inputs (hostArgs.bootInfo proposer.rollupConfigHash))
        (hostArgs.bootInfo proposer.rollupConfigHash)
        (hostArgs.bootInfo proposer.rollupConfigHash)).abiEncode := by
  simp only [proveGame, bind_ok_iff, mapError_ok_iff, called_ok_iff, hrange] at h
  obtain ⟨_, heq, hostArgs, hargs, rangeProof, hproof, bootInfo, hboot, headers, -, stdin, hstdin,
    hmain⟩ := h
  obtain rfl := Except.ok.inj heq
  obtain rfl := hhonest.range hostArgs rangeProof bootInfo hproof hboot
  obtain ⟨buffer, rest, hbuffer, hinputs⟩ := getAggProofStdin_inputs hhonest hstdin
  obtain ⟨buffer', _, _, inputs, _, _, _, first, last, hbuffer', hinputs', -, -, -, -, -, -, hfirst,
    hlast, hcommit⟩ := AggregationHost.mainOn_ok_iff.mp hmain
  obtain ⟨rfl, -⟩ := List.cons.inj (hbuffer.symm.trans hbuffer')
  obtain rfl := Option.some.inj (hinputs.symm.trans hinputs')
  obtain rfl := Option.some.inj hfirst
  obtain rfl := Option.some.inj hlast
  exact ⟨hostArgs, hargs, hcommit.symm⟩

end Sent

/-! ## An honest prover

Every range that the chain has can be proven: the L1 chain below is a single block, whose
hash is the L1 head of the game. -/

/-- The runtime whose only header has the given hash. -/
def singleHeaderRuntime (l1Head : Bytes32) : Runtime Nat :=
  { AggregationHost.exampleRuntime with hashSlow := fun _ => l1Head }

theorem singleHeader_number (n : Nat) (_ : n ≤ 0) : id n = n := rfl

theorem singleHeader_parentHash (l1Head : Bytes32) (n : Nat) (h : n < 0) :
    (singleHeaderRuntime l1Head).parentHash (id (n + 1)) =
      (singleHeaderRuntime l1Head).hashSlow (id n) := absurd h (Nat.not_lt_zero n)

theorem singleHeader_byHash (n : Nat) (h : n ≤ 0) : some 0 = some (id n) :=
  congrArg some (Nat.le_zero.mp h).symm

theorem singleHeader_head_lt : 0 < 2 ^ 64 - 1 := by decide

def singleHeaderChain (l1Head : Bytes32) : L1Chain (singleHeaderRuntime l1Head) where
  number := id
  head := 0
  header := id
  byHash := fun _ => some 0
  head_lt := singleHeader_head_lt
  number_header := singleHeader_number
  parentHash_header := singleHeader_parentHash l1Head
  byHash_header := singleHeader_byHash

/-- A prover that proves what it is asked for, over a game's L1 head. -/
def honestProver (proposer : OPSuccinctProposer) (l1Head : Bytes32) : Prover Nat Bytes32 Unit where
  rt := singleHeaderRuntime l1Head
  l1 := singleHeaderChain l1Head
  host := { AggregationHost.exampleHost with hashU32 := fun _ => proposer.rangeVkey }
  vm := ⟨fun _ _ _ _ => true⟩
  rangeVk := ()
  rangeProof := fun hostArgs => some ⟨.compressed 0,
    AggregationHost.exampleBytes (hostArgs.bootInfo proposer.rollupConfigHash)⟩

theorem honestProver_honest (l1Head : Bytes32) :
    (honestProver proposer l1Head).Honest proposer where
  codecs := ⟨AggregationHost.exampleCodecs.inputs, AggregationHost.exampleCodecs.headers,
    AggregationHost.exampleCodecs.bootInfo⟩
  rangeVkey := rfl
  range := by
    intro hostArgs rangeProof bootInfo hproof hread
    obtain rfl := Option.some.inj hproof
    exact Option.some.inj (hread.symm.trans (AggregationHost.exampleOfBytes_bytes _))

/-- The program accepts one attested boot info under the single header. -/
theorem honestProver_mainOn (proposer : OPSuccinctProposer) (bootInfo : BootInfoStruct) :
    ∃ sent, AggregationHost.mainOn (singleHeaderRuntime bootInfo.l1Head)
      (honestProver proposer bootInfo.l1Head).vm
      ⟨[AggregationHost.exampleBytes (proposer.inputs bootInfo), AggregationHost.exampleBytes [0]],
        [(0, ())]⟩ = .ok sent := by
  have hlinked : Aggregation.Linked (singleHeaderRuntime bootInfo.l1Head) bootInfo.l1Head [0] :=
    ⟨rfl, trivial⟩
  have hhead : ∀ b ∈ [bootInfo],
      b.l1Head ∈ List.map (singleHeaderRuntime bootInfo.l1Head).hashSlow [0] := by
    intro b hb
    obtain rfl := List.mem_singleton.mp hb
    exact List.mem_singleton_self _
  obtain ⟨found, hwalk, hfound⟩ := Aggregation.walkHeaders_finds hlinked hhead
  exact ⟨_, AggregationHost.mainOn_ok_iff.mpr ⟨_, _, [], proposer.inputs bootInfo, [0], [], found,
    bootInfo, bootInfo, rfl, AggregationHost.exampleOfBytes_bytes _,
    AggregationHost.exampleOfBytes_bytes _, List.cons_ne_nil _ _, rfl, rfl, hwalk, hfound, rfl, rfl,
    rfl⟩⟩

/-- **A range of the chain is proven** by the honest prover. -/
theorem honestProver_sends {hostArgs : SingleChainHost}
    (hrange : provingRange proposer args = .ok (startBlock, endBlock))
    (hargs : getHostArgs keccak256 l2 startBlock endBlock (FaultGame.l1Head args) = .ok hostArgs) :
    ∃ sent, proveGame keccak256 proposer l2 (honestProver proposer (FaultGame.l1Head args)) args =
      .ok sent := by
  have hl1Head : (hostArgs.bootInfo proposer.rollupConfigHash).l1Head = FaultGame.l1Head args := by
    obtain ⟨-, -, -, rfl⟩ := getHostArgs_ok_iff.mp hargs
    rfl
  obtain ⟨sent, hmain⟩ :=
    honestProver_mainOn proposer (hostArgs.bootInfo proposer.rollupConfigHash)
  rw [hl1Head] at hmain
  have hheads : ∀ b ∈ [hostArgs.bootInfo proposer.rollupConfigHash],
      ∃ n, (singleHeaderChain (FaultGame.l1Head args)).HeadAt n b := by
    intro b hb
    obtain rfl := List.mem_singleton.mp hb
    exact ⟨0, Nat.le_refl 0, hl1Head⟩
  obtain ⟨start, hheaders, hstart⟩ := L1Chain.getHeaderPreimages_ok (List.cons_ne_nil _ _) hheads
    (Nat.le_refl 0)
  obtain ⟨n, hn, hle⟩ := hstart _ List.mem_cons_self
  obtain rfl : start = 0 := Nat.le_zero.mp (Nat.le_trans hle hn.1)
  simp only [proveGame, bind_ok_iff, mapError_ok_iff, called_ok_iff, hrange]
  exact ⟨sent, _, rfl, hostArgs, hargs, _, rfl, _, AggregationHost.exampleOfBytes_bytes _, _,
    hl1Head ▸ hheaders, _, rfl, hmain⟩

/-! ## When a defence proves its game -/

/-- The public values of a canonical range are the game's exactly when the proposer matches
the deployment. -/
theorem sent_eq_publicValues_iff {hostArgs : SingleChainHost}
    (hclaim : l2.Canonical keccak256 (FaultGame.l2BlockNumber args) (FaultGame.rootClaim args))
    (hroot : l2.Canonical keccak256 g.startingOutputRoot.l2BlockNumber g.startingOutputRoot.root)
    (hargs : getHostArgs keccak256 l2 startBlock endBlock (FaultGame.l1Head args) = .ok hostArgs)
    (hstart : startBlock.toNat = g.startingOutputRoot.l2BlockNumber)
    (hend : endBlock.toNat = FaultGame.l2BlockNumber args) :
    (Aggregation.finalOutputs (proposer.inputs (hostArgs.bootInfo proposer.rollupConfigHash))
        (hostArgs.bootInfo proposer.rollupConfigHash)
        (hostArgs.bootInfo proposer.rollupConfigHash)).abiEncode =
      (FaultGame.publicValues im args g proposer.signer).abiEncode ↔
    MatchesDeployment proposer im := by
  obtain ⟨-, -, -, rfl⟩ := getHostArgs_ok_iff.mp hargs
  have hblock : (FaultGame.publicValues im args g proposer.signer).claimBlockNum < 2 ^ 256 :=
    Aggregation.l2BlockNumber_lt args
  rw [Aggregation.finalOutputs_abiEncode_eq_iff hblock]
  constructor
  · intro hfields
    exact ⟨hfields.proverAddress, hfields.rollupConfigHash,
      Aggregation.b256_u32ToU8_eq_iff.mpr hfields.rangeVkeyCommitment⟩
  · intro hmatches
    refine ⟨rfl, ?_, ?_, hend, hmatches.rollupConfigHash,
      Aggregation.b256_u32ToU8_eq_iff.mp hmatches.rangeVkey, hmatches.sender⟩
    · show l2.outputRoot keccak256 startBlock.toNat = g.startingOutputRoot.root
      rw [hstart]
      exact hroot.2
    · show l2.outputRoot keccak256 endBlock.toNat = FaultGame.rootClaim args
      rw [hend]
      exact hclaim.2

/-- A game starts below its block. -/
theorem starts_below {w : FaultGame.World} {m : Msg} {g₀ : FaultGame.Game}
    {trace : List FaultGame.Op} (hcreated : FaultGame.Created im args w m g₀)
    (hrun : Run (FaultGame.GameStep im args) g₀ trace g) :
    g.startingOutputRoot.l2BlockNumber < FaultGame.l2BlockNumber args := by
  obtain ⟨balance, hinit⟩ := hcreated
  obtain ⟨-, -, -, -, start, -, hlt, -, -, rfl⟩ := FaultGame.initializeGame_ok_iff.mp hinit
  refine (hrun.invariant (I := fun g => g.initialized = true ∧
    g.startingOutputRoot.l2BlockNumber < FaultGame.l2BlockNumber args) ?_ ⟨rfl, hlt⟩).2
  intro g op g' h hstep
  obtain ⟨hinitialized, hstart, -⟩ := hstep.origin_eq h.1
  exact ⟨hinitialized, hstart ▸ h.2⟩

/-- **A defence proves the game it defends**: for every game the scan can return, created
under any parent and any interval, exactly when the configured interval is the distance from
the game's starting block to its block and, if the chain has the starting root, the proposer
matches the deployment. -/
theorem defence_proves_game_iff {address : Address} {w : FaultGame.World} {m : Msg}
    {g₀ : FaultGame.Game} {trace : List FaultGame.Op}
    (hscan : getOldestDefensibleGameAddress keccak256 factory proposer.maxGamesToCheckForDefense
      l2 = .ok (some address))
    (hgame : ⟨address, .opSuccinct args g⟩ ∈ factory.games)
    (hcreated : FaultGame.Created im args w m g₀)
    (hrun : Run (FaultGame.GameStep im args) g₀ trace g) :
    ProvesItsGame keccak256 proposer l2 im args g ↔
      g.startingOutputRoot.l2BlockNumber + proposer.config.proposalIntervalInBlocks.toNat =
        FaultGame.l2BlockNumber args ∧
      (l2.Canonical keccak256 g.startingOutputRoot.l2BlockNumber g.startingOutputRoot.root →
        MatchesDeployment proposer im) := by
  have hclaim := defensible_canonical hscan hgame
  have hblock : FaultGame.l2BlockNumber args < 2 ^ 64 := Nat.lt_of_le_of_lt hclaim.1 l2.head_lt
  have hbelow := starts_below hcreated hrun
  constructor
  · intro hproves
    have hinterval := (range_iff hblock).mp ⟨hproves.noUnderflow, hproves.range⟩
    refine ⟨hinterval, fun hroot => ?_⟩
    obtain ⟨startBlock, endBlock, hrange, hstart, hend⟩ := hproves.range
    have hlt : startBlock < endBlock := UInt64.lt_iff_toNat_lt.mpr (by omega)
    obtain ⟨hostArgs, hargs⟩ : ∃ hostArgs, getHostArgs keccak256 l2 startBlock endBlock
        (FaultGame.l1Head args) = .ok hostArgs :=
      ⟨_, getHostArgs_ok_iff.mpr ⟨hlt, hstart ▸ hroot.1, hend ▸ hclaim.1, rfl⟩⟩
    obtain ⟨sent, hsent⟩ := honestProver_sends hrange hargs
    obtain ⟨_, hargs, hcommit⟩ := proveGame_ok (honestProver_honest _) hrange hsent
    have hspawn := spawnGameProvingTask_ok_iff.mpr ⟨hrange, hsent⟩
    obtain ⟨_, -, -, hvalues⟩ := hproves.proof hroot _ (honestProver_honest _) _ _ hspawn
    exact (sent_eq_publicValues_iff hclaim hroot hargs hstart hend).mp (hcommit.symm.trans hvalues)
  · rintro ⟨hinterval, hmatches⟩
    obtain ⟨hle, startBlock, endBlock, hrange, hstart, hend⟩ := (range_iff hblock).mpr hinterval
    refine ⟨hle, ⟨startBlock, endBlock, hrange, hstart, hend⟩, ?_⟩
    intro hroot Header Proof Vk p hhonest range sent hspawn
    obtain ⟨-, hsent⟩ := spawnGameProvingTask_ok_iff.mp hspawn
    obtain ⟨hostArgs, hargs, hcommit⟩ := proveGame_ok hhonest hrange hsent
    have hvalues := (sent_eq_publicValues_iff hclaim hroot hargs hstart hend).mpr (hmatches hroot)
    refine ⟨_, hcommit, ?_, hcommit.trans hvalues⟩
    obtain ⟨-, -, -, rfl⟩ := getHostArgs_ok_iff.mp hargs
    show l2.outputRoot keccak256 startBlock.toNat = g.startingOutputRoot.root
    rw [hstart]
    exact hroot.2

/-! ### A game of another interval

The challenged game at block 20 over block 10, on a chain that has both roots.  The game is
the factory's only one. -/

/-- A hash that gives every block its state root. -/
def stateRootKeccak (bytes : Bytes) : Bytes32 := b256 ((bytes.drop 32).take 32)

def exampleDefendedHeader (n : Nat) : L2Header :=
  ⟨0, if n = 20 then 0xC1A1 else if n = 10 then 0x9007 else 0, 1000 + n⟩

theorem exampleDefendedChain_head_lt : 30 < 2 ^ 64 := by decide

def exampleDefendedChain : L2Chain where
  head := 30
  head_lt := exampleDefendedChain_head_lt
  header := exampleDefendedHeader
  storageHash := fun _ _ => 0

theorem exampleDefended_nodup :
    ([⟨0xA0, .opSuccinct FaultGame.exampleArgs FaultGame.exampleChallenged⟩].map
      FactoryGame.proxy).Nodup := List.nodup_singleton _

def exampleDefendedFactory : Factory where
  games := [⟨0xA0, .opSuccinct FaultGame.exampleArgs FaultGame.exampleChallenged⟩]
  proxies_nodup := exampleDefended_nodup

/-- A proposer for the deployment of the game. -/
def exampleDefender (interval : UInt64) : OPSuccinctProposer where
  config := ⟨42, interval, 4⟩
  maxGamesToCheckForDefense := 100
  proverAddress := 0x9409
  signer := 0x9409
  rangeVkey := #v[0, 0, 0, 0, 0, 0, 0, 3]
  rollupConfigHash := 1

theorem exampleDefended_scan (interval : UInt64) :
    getOldestDefensibleGameAddress stateRootKeccak exampleDefendedFactory
      (exampleDefender interval).maxGamesToCheckForDefense exampleDefendedChain =
        .ok (some 0xA0) := by
  show getOldestDefensibleGameAddress stateRootKeccak exampleDefendedFactory 100
    exampleDefendedChain = _
  decide +kernel

theorem exampleDefended_run :
    Run (FaultGame.GameStep FaultGame.exampleImmutables FaultGame.exampleArgs)
      FaultGame.exampleGame
      [.challenge (FaultGame.exampleWorld .inProgress) FaultGame.exampleChallenge]
      FaultGame.exampleChallenged :=
  .single FaultGame.exampleGame_challenged

theorem exampleArgs_block : FaultGame.l2BlockNumber FaultGame.exampleArgs = 20 :=
  FaultGame.l2BlockNumber_packArgs (by decide)

theorem defence_proves_game_iff_example :
    ProvesItsGame stateRootKeccak (exampleDefender 10) exampleDefendedChain
      FaultGame.exampleImmutables FaultGame.exampleArgs FaultGame.exampleChallenged :=
  (defence_proves_game_iff (exampleDefended_scan 10) List.mem_cons_self
    FaultGame.exampleGame_created exampleDefended_run).mpr
    ⟨exampleArgs_block.symm, fun _ => ⟨rfl, rfl, by decide +kernel⟩⟩

/-- **The failing input.**  A proposer with an interval of 5 is to prove the game, which
starts at block 10; it proves the blocks from 15. -/
theorem defence_starts_elsewhere :
    getOldestDefensibleGameAddress stateRootKeccak exampleDefendedFactory
      (exampleDefender 5).maxGamesToCheckForDefense exampleDefendedChain = .ok (some 0xA0) ∧
    FaultGame.exampleChallenged.startingOutputRoot.l2BlockNumber = 10 ∧
    exampleDefendedChain.Canonical stateRootKeccak 10
      FaultGame.exampleChallenged.startingOutputRoot.root ∧
    provingRange (exampleDefender 5) FaultGame.exampleArgs = .ok (15, 20) ∧
    ¬ ProvesItsGame stateRootKeccak (exampleDefender 5) exampleDefendedChain
      FaultGame.exampleImmutables FaultGame.exampleArgs FaultGame.exampleChallenged := by
  have hblock : FaultGame.l2BlockNumber FaultGame.exampleArgs < 2 ^ 64 := by
    rw [exampleArgs_block]
    decide
  refine ⟨exampleDefended_scan 5, rfl, ⟨by decide, by decide +kernel⟩, ?_, fun hproves => ?_⟩
  · rw [provingRange_eq hblock, exampleArgs_block]
    rfl
  · have hinterval := (range_iff hblock).mp ⟨hproves.noUnderflow, hproves.range⟩
    rw [exampleArgs_block] at hinterval
    exact absurd hinterval (by decide)

end OpSuccinct.FaultProof
