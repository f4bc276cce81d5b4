import OpSuccinct.MadeProofs
import OpSuccinct.ProposerRanges
import OpSuccinct.PublicValues
import OpSuccinct.ValidityGames

/-! # What is relayed with a proof

`relay_aggregation_proof` takes the arguments of a proposal from three places: the end
block, the L1 block number and the proof from the request, the output root from the
node, and the prover address from the running configuration.  The proof was made from
the request alone, with the prover address of the request.

All versions of a request agree on what its proof is made from, and every proof that is
stored was made for its request (`Inv`).  So in every run, with any configuration after
each restart, the values the oracle rebuilds from the arguments are those the aggregation
program committed, on both paths, exactly when the running prover address is the one of
the request and the range proofs that were aggregated end at its end block
(`relayed_values_match_iff`).
-/
namespace OpSuccinct.Proving

open AggregationHost OutputOracle Transition
open Aggregation (finalOutputs AggregationInputs Runtime)
open Clones (Clone cloneCalldata ArgsFit calldataClone calldataClone_readsArgs)
open Validity (Request Sys asI64 SameInputs Writes)

/-! ## `relay_aggregation_proof` -/

/-- The arguments of `proposeL2Output` in the validity mode. -/
structure Proposal where
  configName : Bytes32
  outputRoot : Bytes32
  l2BlockNumber : Nat
  l1BlockNumber : Nat
  proof : Bytes
  proverAddress : Address
  deriving DecidableEq

inductive RelayTx
  /-- `create(gameType, rootClaim, extraData)` of the dispute game factory. -/
  | create (gameType : Nat) (rootClaim : Bytes32) (extraData : Bytes)
  | proposeL2Output (proposal : Proposal)
  deriving DecidableEq

/-- `OP_SUCCINCT_VALIDITY_DISPUTE_GAME_TYPE`. -/
def opSuccinctValidityDisputeGameType : Nat := 6

/-- **`relay_aggregation_proof`**, up to its transaction; the node answers `outputRoot`. -/
def relayAggregationProof (cfg : RelayConfig) (outputRoot : Nat → Bytes32)
    (completedAggProof : Request) : Option RelayTx := do
  let output := outputRoot (asU64 completedAggProof.endBlock)
  let l1BlockNumber ← completedAggProof.checkpointedL1BlockNumber
  let proof ← completedAggProof.proof
  if cfg.dgfAddress ≠ zeroAddress then
    return .create opSuccinctValidityDisputeGameType output
      (relayExtraData (asU64 completedAggProof.endBlock) (asU64 l1BlockNumber) cfg.proverAddress
        cfg.opSuccinctConfigNameHash proof)
  else
    let l2BlockNumber ← u256OfI64 completedAggProof.endBlock
    let l1BlockNumber ← u256OfI64 l1BlockNumber
    return .proposeL2Output
      { configName := cfg.opSuccinctConfigNameHash
        outputRoot := output
        l2BlockNumber := l2BlockNumber
        l1BlockNumber := l1BlockNumber
        proof := proof
        proverAddress := cfg.proverAddress }

/-! ## What the oracle gets -/

/-- The proposal a validity game makes when it is initialized. -/
def gameProposal (clone : Clone) (g : DisputeGame.Game) : Proposal where
  configName := DisputeGame.configName clone g.calldata
  outputRoot := DisputeGame.rootClaim clone g.calldata
  l2BlockNumber := DisputeGame.l2BlockNumber clone g.calldata
  l1BlockNumber := DisputeGame.l1BlockNumber clone g.calldata
  proof := DisputeGame.proof clone g.calldata
  proverAddress := DisputeGame.proverAddress clone g.calldata

/-- `proposeL2Output` with the arguments. -/
def Proposal.propose (p : Proposal) (env : Env) (s : Oracle) : Except OracleError Oracle :=
  proposeL2Output env s p.configName p.outputRoot p.l2BlockNumber p.l1BlockNumber p.proof
    p.proverAddress

/-- `initialize()` of a validity game proposes to the oracle. -/
theorem initializeGame_proposes (clone : Clone) (env : Env) (s : Oracle) (g : DisputeGame.Game) :
    DisputeGame.initializeGame clone env s g =
      ((gameProposal clone g).propose env s).mapError .oracle >>= fun s' =>
        DisputeGame.resolveBody env { g with
          createdAt := toUint64 env.msg.timestamp
          status := .inProgress
          wasRespectedGameTypeWhenCreated := true } >>= fun g' => pure (s', g') := rfl

/-- The proposal a transaction makes.  The factory gives the game any creator and L1 head;
the code of a clone, and so its arguments, has a bounded size. -/
def RelayTx.Makes (clone : Clone) : RelayTx → Proposal → Prop
  | .create _ rootClaim extraData, p => ∃ args : GameArgs, args.rootClaim = rootClaim ∧
      args.extraData = extraData ∧ ArgsFit args.bytes ∧
      p = gameProposal clone (DisputeGame.Game.fresh args)
  | .proposeL2Output proposal, p => p = proposal

/-- The public values the oracle rebuilds, for the output root on top of its list. -/
def Proposal.publicValues (p : Proposal) (s : Oracle) : OpSuccinct.AggregationOutputs :=
  OutputOracle.publicValues (s.historicBlockHashes p.l1BlockNumber)
    (s.l2OutputsSlot (s.l2OutputsLength - 1)).outputRoot p.outputRoot p.l2BlockNumber
    (s.opSuccinctConfigs p.configName) p.proverAddress

/-- **The rebuilt values are the committed ones**, as far as they come from the arguments. -/
structure RebuildsCommitted (s : Oracle) (p : Proposal)
    (committed : Aggregation.AggregationOutputs) : Prop where
  claimBlockNum : (p.publicValues s).claimBlockNum = committed.l2BlockNumber.toNat
  claimRoot : (p.publicValues s).claimRoot = committed.l2PostRoot
  l1Head : (p.publicValues s).l1Head = committed.l1Head
  proverAddress : (p.publicValues s).proverAddress = committed.proverAddress

theorem asU64_lt (n : Int) : asU64 n < 2 ^ 64 := by
  rw [asU64]
  omega

theorem asU64_asI64 {n : Nat} (h : n < 2 ^ 64) : asU64 (asI64 n) = n := by
  rw [asU64, asI64]
  split <;> omega

theorem u256OfI64_some {n : Int} {m : Nat} (h : u256OfI64 n = some m) : m = asU64 n := by
  obtain ⟨-, h⟩ := Option.ite_none_right_eq_some.mp h
  exact (Option.some.inj h).symm

/-- **Both paths make the same proposal**, in what the oracle rebuilds. -/
theorem proposal_of_relay {clone : Clone} {cfg : RelayConfig} {outputRoot : Nat → Bytes32}
    {request : Request} {tx : RelayTx} {p : Proposal} (hclone : clone.ReadsArgs)
    (htx : relayAggregationProof cfg outputRoot request = some tx) (hmakes : tx.Makes clone p) :
    ∃ l1BlockNumber, request.checkpointedL1BlockNumber = some l1BlockNumber ∧
      p.outputRoot = outputRoot (asU64 request.endBlock) ∧
      p.l2BlockNumber = asU64 request.endBlock ∧ p.l1BlockNumber = asU64 l1BlockNumber ∧
      p.proverAddress = cfg.proverAddress ∧ some p.proof = request.proof := by
  simp only [relayAggregationProof, Option.bind_eq_bind, Option.bind_eq_some_iff] at htx
  obtain ⟨l1BlockNumber, hnumber, proof, hproof, htx⟩ := htx
  refine ⟨l1BlockNumber, hnumber, ?_⟩
  split at htx
  · obtain rfl := Option.some.inj htx
    obtain ⟨args, hroot, hextra, hfit, rfl⟩ := hmakes
    have hlt := asU64_lt request.endBlock
    have hlt' := asU64_lt l1BlockNumber
    have hreads : DisputeGame.ReadsBack clone (DisputeGame.Game.fresh args).calldata
        (asU64 request.endBlock) (asU64 l1BlockNumber) cfg.proverAddress
        cfg.opSuccinctConfigNameHash proof :=
      DisputeGame.readsBack_relay hclone hfit hextra (by omega) (by omega)
    refine ⟨?_, hreads.l2BlockNumber, hreads.l1BlockNumber, hreads.proverAddress, ?_⟩
    · have hlength := args.length_bytes
      show DisputeGame.rootClaim clone (cloneCalldata _ args.bytes) = _
      rw [DisputeGame.rootClaim, hclone.bytes32 _ _ _ hfit (by omega), args.slice_rootClaim,
        ofBytesBE_bytes32, hroot]
    · rw [hproof]
      exact congrArg some hreads.proof
  · obtain ⟨l2, hl2, htx⟩ := Option.bind_eq_some_iff.mp htx
    obtain ⟨l1, hl1, htx⟩ := Option.bind_eq_some_iff.mp htx
    obtain rfl := Option.some.inj htx
    obtain rfl := hmakes
    exact ⟨rfl, u256OfI64_some hl2, u256OfI64_some hl1, rfl, hproof.symm⟩

/-! ## What the program committed -/

section Committed
variable {Header Proof Vk : Type} {W : World Header Proof Vk} {s : State Proof Vk}
  {request : Request} {rows : List Request} {stdin : SP1Stdin Proof Vk}

/-- What a traversal returns, element by element. -/
theorem forall₂_of_mapM_ok {ε α β : Type} {f : α → Except ε β} {xs : List α} {ys : List β}
    (h : xs.mapM f = .ok ys) : List.Forall₂ (fun x y => f x = .ok y) xs ys := by
  induction xs generalizing ys with
  | nil =>
    cases h
    exact .nil
  | cons x xs ih =>
    rw [List.mapM_cons, bind_ok_iff] at h
    obtain ⟨y, hy, h⟩ := h
    obtain ⟨ys, hys, h⟩ := bind_ok_iff.mp h
    cases h
    exact .cons hy (ih hys)

theorem getLast_of_forall₂ {α β : Type} {R : α → β → Prop} {xs : List α} {ys : List β} {y : β}
    (h : List.Forall₂ R xs ys) (hy : ys.getLast? = some y) : ∃ x, xs.getLast? = some x ∧ R x y := by
  induction h with
  | nil => cases hy
  | @cons x y' xs ys hxy hrest ih =>
    cases hrest with
    | nil =>
      obtain rfl := Option.some.inj hy
      exact ⟨x, rfl, hxy⟩
    | @cons x' y'' xs ys hxy' hrest =>
      obtain ⟨last, hlast, hR⟩ := ih hy
      exact ⟨last, hlast, hR⟩

theorem orFail_ok {α : Type} {e : HostError} {x : Option α} {a : α} (h : orFail e x = .ok a) :
    x = some a := by
  cases x with
  | none => cases h
  | some b =>
    obtain rfl := Except.ok.inj h
    rfl

/-- A row that stores a proof of its blocks is read with their boot info. -/
theorem read_of_proves {r : Request} {proof : Bytes} {l1Head : Nat} (hproof : r.proof = some proof)
    (hproves : (Job.range r.startBlock r.endBlock l1Head : Job Proof Vk).proves W proof = true) :
    ∃ read, readRangeProof W.host r = .ok read ∧
      read.1 = W.bootInfo r.startBlock r.endBlock l1Head := by
  dsimp only [Job.proves] at hproves
  rw [readRangeProof, hproof]
  cases hdeserialize : W.host.deserializeProof proof with
  | none =>
    rw [hdeserialize] at hproves
    cases hproves
  | some proofWithPv =>
    rw [hdeserialize] at hproves
    have hbootInfo := of_decide_eq_true hproves
    refine ⟨(W.bootInfo r.startBlock r.endBlock l1Head, proofWithPv.proof), ?_, rfl⟩
    have hread : orFail .proofNotDeserialized (W.host.deserializeProof proof) =
        .ok proofWithPv := by
      rw [hdeserialize]
      rfl
    have hvalues : orFail .publicValuesNotRead (W.host.readBootInfo proofWithPv.publicValues) =
        .ok (W.bootInfo r.startBlock r.endBlock l1Head) := by
      rw [hbootInfo]
      rfl
    exact bind_ok_iff.mpr ⟨proof, rfl, bind_ok_iff.mpr ⟨proofWithPv, hread,
      bind_ok_iff.mpr ⟨_, hvalues, rfl⟩⟩⟩

/-- The committed values of an aggregation proof, in terms of its request and the last of
its rows. -/
structure CommittedFor (W : World Header Proof Vk) (request last : Request)
    (committed : Aggregation.AggregationOutputs) : Prop where
  l1Head : request.checkpointedL1BlockHash = some committed.l1Head
  l2PostRoot : committed.l2PostRoot = W.outputRoot (asU64 last.endBlock)
  l2BlockNumber : committed.l2BlockNumber.toNat = asU64 last.endBlock
  proverAddress : request.proverAddress = some committed.proverAddress

/-- **What the program commits on the stdin of a request.** -/
theorem committed_of_job {proof : Bytes} (hjob : JobFor W request (.aggregation rows stdin))
    (hproves : (Job.aggregation rows stdin).proves W proof = true) :
    ∃ committed : Aggregation.AggregationOutputs, ∃ last,
      mainOn W.rt W.vm stdin = .ok committed.abiEncode ∧ rows.getLast? = some last ∧
      CommittedFor W request last committed := by
  obtain ⟨-, ⟨commitments, hstdin⟩, hrows⟩ := hjob
  obtain ⟨bytes, hmain⟩ : ∃ bytes, mainOn W.rt W.vm stdin = .ok bytes := by
    dsimp only [Job.proves] at hproves
    cases hmain : mainOn W.rt W.vm stdin with
    | ok bytes => exact ⟨bytes, rfl⟩
    | error e => rw [hmain] at hproves; cases hproves
  -- The stdin holds the inputs made from the request and its rows.
  simp only [generateAggProofStdin, aggProofWitnessgen, getAggProofStdin, bind_ok_iff,
    pure_ok_iff] at hstdin
  obtain ⟨hash, hhash, prover, hprover, read, hread, headers, -, proofs, -, inputsBytes, hinputs,
    headersBytes, -, rfl⟩ := hstdin
  obtain ⟨buffer, headersBytes', rest, inputs, headers', unread, found, first, last, hbuffer,
    hdecode, -, -, -, -, -, -, -, hlast, rfl⟩ := mainOn_ok_iff.mp hmain
  cases hbuffer
  have hserialized := W.decodeInputs_serialize _ _ (orFail_ok hinputs)
  cases hserialized.symm.trans hdecode
  obtain ⟨lastRead, hlastRead, rfl⟩ : ∃ lastRead, read.getLast? = some lastRead ∧
    lastRead.1 = last := by
    rw [List.getLast?_map] at hlast
    exact Option.map_eq_some_iff.mp hlast
  obtain ⟨lastRow, hlastRow, hreadRow⟩ := getLast_of_forall₂ (forall₂_of_mapM_ok hread) hlastRead
  obtain ⟨proof, l1Head, hproof, hrowProves⟩ := hrows lastRow (List.mem_of_getLast? hlastRow)
  obtain ⟨read', hread', hbootInfo⟩ := read_of_proves hproof hrowProves
  cases hread'.symm.trans hreadRow
  refine ⟨_, lastRow, hmain, hlastRow, orFail_ok hhash, ?_, ?_, orFail_ok hprover⟩
  · show lastRead.1.l2PostRoot = _
    rw [hbootInfo]
    rfl
  · show lastRead.1.l2BlockNumber.toNat = _
    rw [hbootInfo]
    exact UInt64.toNat_ofNat_of_lt' (asU64_lt _)

end Committed

/-! ## What is relayed -/

section Relayed
variable {Header Proof Vk : Type} {W : World Header Proof Vk} {s t : State Proof Vk}
  {request : Request}

/-- The proof of the request was made on the stdin that was built from the rows. -/
def ProofOf (s : State Proof Vk) (request : Request) (rows : List Request)
    (stdin : SP1Stdin Proof Vk) : Prop :=
  ∃ made ∈ s.proofs, made.id = request.id ∧ request.proof = some made.proof ∧
    made.job = .aggregation rows stdin

/-- **The proposal matches the proof**: the oracle rebuilds what the aggregation program
committed in the proof of the request. -/
structure RelayMatches (W : World Header Proof Vk) (s : State Proof Vk) (request : Request)
    (p : Proposal) : Prop where
  made : ∃ rows stdin, ProofOf s request rows stdin
  proof : some p.proof = request.proof
  values : ∀ rows stdin, ProofOf s request rows stdin →
    ∃ committed : Aggregation.AggregationOutputs,
      mainOn W.rt W.vm stdin = .ok committed.abiEncode ∧ RebuildsCommitted s.oracle p committed

/-- **The condition**: the running prover address is the one of the request, and the range
proofs that were aggregated end at its end block. -/
structure RelayCondition (s : State Proof Vk) (request : Request) : Prop where
  proverAddress : request.proverAddress = some s.cfg.proverAddress
  endBlock : ∀ rows stdin, ProofOf s request rows stdin →
    ∃ last, rows.getLast? = some last ∧ asU64 last.endBlock = asU64 request.endBlock

theorem submitsCompleted_run {cfg : RelayConfig} {latest : Nat} {oracle : Oracle}
    {trace : List Label} (h : Run (stepOf (step W)) (State.start cfg latest oracle) trace s) :
    s.sys.SubmitsCompleted := by
  refine h.invariant (I := fun u : State Proof Vk => u.sys.SubmitsCompleted) ?_
    fun _ hsubmitted => by cases hsubmitted
  intro u label v hu hstep
  rcases step_cases hstep with ⟨act, w, -, ha, hlift⟩ | haside
  · obtain ⟨sys, hsys, rfl⟩ := lift_some hlift
    rw [ha.keeps.1] at hsys
    exact Validity.submitsCompleted_step hu hsys
  · cases haside <;> exact hu

/-- A proof of a request was made on a stdin for it. -/
theorem Recorded.job_of_proofOf (hs : Recorded W s) (hversion : s.sys.Version request)
    {rows : List Request} {stdin : SP1Stdin Proof Vk} (h : ProofOf s request rows stdin) :
    JobFor W request (.aggregation rows stdin) ∧
      ∃ proof, (Job.aggregation rows stdin).proves W proof = true := by
  obtain ⟨made, hmem, hid, -, hjob⟩ := h
  obtain ⟨hproves, hfor⟩ := hs.made made hmem
  rw [← hjob]
  exact ⟨hfor request hversion hid.symm, made.proof, hproves⟩

/-- A completed aggregation request has a proof. -/
theorem Recorded.exists_proofOf (hs : Recorded W s) (hversion : s.sys.Version request)
    (htype : request.reqType = .aggregation) (hstatus : request.status = .complete) :
    ∃ rows stdin, ProofOf s request rows stdin := by
  obtain ⟨made, hmem, hid, hproof⟩ := (hs.sound request hversion).complete hstatus
  have hfor := (hs.made made hmem).2 request hversion hid.symm
  cases hjob : made.job with
  | range startBlock endBlock l1Head =>
    rw [hjob] at hfor
    cases htype.symm.trans hfor.1
  | aggregation rows stdin => exact ⟨rows, stdin, made, hmem, hid, hproof, hjob⟩

/-- What is submitted matches the proof exactly under the condition, where all versions of
the request agree. -/
theorem Recorded.relayMatches_iff {clone : Clone} {tx : RelayTx} {p : Proposal}
    (hs : Recorded W s) (hsubmits : s.sys.SubmitsCompleted) (hclone : clone.ReadsArgs)
    (hmain : s.sys.main = .submit (.relay request))
    (htx : relayAggregationProof s.cfg W.outputRoot request = some tx) (hmakes : tx.Makes clone p) :
    RelayMatches W s request p ↔ RelayCondition s request := by
  obtain ⟨htype, hstatus⟩ := hsubmits request (by rw [hmain]; rfl)
  have hversion : s.sys.Version request := by
    refine .inr (.inl ?_)
    rw [hmain]
    exact List.mem_singleton_self _
  have hmade := hs.exists_proofOf hversion htype hstatus
  obtain ⟨number, hash, hnumber, hhash, n, hn, rfl, rfl, hstored⟩ :=
    (hs.sound request hversion).checkpoint htype
  obtain ⟨l1BlockNumber, hl1, hroot, hblock, hl1Block, hprover, hproof⟩ :=
    proposal_of_relay hclone htx hmakes
  obtain rfl := Option.some.inj (hnumber.symm.trans hl1)
  have hhead := W.l1.head_lt
  rw [asU64_asI64 (by omega)] at hl1Block
  constructor
  · intro hmatches
    -- What was committed is determined by the stdin.
    have hcommitted {rows : List Request} {stdin : SP1Stdin Proof Vk}
        (h : ProofOf s request rows stdin) : ∃ last committed, rows.getLast? = some last ∧
          CommittedFor W request last committed ∧ RebuildsCommitted s.oracle p committed := by
      obtain ⟨hjob, proof, hproves⟩ := hs.job_of_proofOf hversion h
      obtain ⟨committed, last, hcommit, hlast, hfor⟩ := committed_of_job hjob hproves
      obtain ⟨committed', hcommit', hrebuilds⟩ := hmatches.values _ _ h
      have heq := Except.ok.inj (hcommit.symm.trans hcommit')
      obtain rfl := Aggregation.AggregationOutputs.abiEncode_inj.mp heq
      exact ⟨last, committed, hlast, hfor, hrebuilds⟩
    refine ⟨?_, fun rows stdin h => ?_⟩
    · obtain ⟨rows, stdin, h⟩ := hmade
      obtain ⟨last, committed, -, hfor, hrebuilds⟩ := hcommitted h
      rw [hfor.proverAddress, ← hrebuilds.proverAddress, ← hprover]
      rfl
    · obtain ⟨last, committed, hlast, hfor, hrebuilds⟩ := hcommitted h
      refine ⟨last, hlast, ?_⟩
      rw [← hfor.l2BlockNumber, ← hrebuilds.claimBlockNum, ← hblock]
      rfl
  · intro hcondition
    refine ⟨hmade, hproof, fun rows stdin h => ?_⟩
    obtain ⟨hjob, proof, hproves⟩ := hs.job_of_proofOf hversion h
    obtain ⟨committed, last, hcommit, hlast, hfor⟩ := committed_of_job hjob hproves
    obtain ⟨last', hlast', hend⟩ := hcondition.endBlock rows stdin h
    obtain rfl := Option.some.inj (hlast.symm.trans hlast')
    refine ⟨committed, hcommit, ?_, ?_, ?_, ?_⟩
    · show p.l2BlockNumber = _
      rw [hblock, hfor.l2BlockNumber, hend]
    · show p.outputRoot = _
      rw [hroot, hfor.l2PostRoot, hend]
    · show s.oracle.historicBlockHashes p.l1BlockNumber = _
      rw [hl1Block, hstored]
      exact Option.some.inj (hhash.symm.trans hfor.l1Head)
    · show p.proverAddress = _
      rw [hprover]
      exact Option.some.inj (hcondition.proverAddress.symm.trans hfor.proverAddress)

/-- **When what is relayed matches the proof.**  In every run, with any restarts and
configurations, whenever a completed aggregation request is submitted, on either path: the
oracle rebuilds the values the aggregation program committed exactly when the running prover
address is the one of the request and the aggregated range proofs end at its end block. -/
theorem relayed_values_match_iff {cfg : RelayConfig} {latest : Nat} {oracle : Oracle}
    {trace : List Label} {clone : Clone} {tx : RelayTx} {p : Proposal} (hclone : clone.ReadsArgs)
    (hrun : Run (stepOf (step W)) (State.start cfg latest oracle) trace s)
    (hmain : s.sys.main = .submit (.relay request))
    (htx : relayAggregationProof s.cfg W.outputRoot request = some tx) (hmakes : tx.Makes clone p) :
    RelayMatches W s request p ↔ RelayCondition s request :=
  (recorded_run hrun).relayMatches_iff (submitsCompleted_run hrun) hclone hmain htx hmakes

end Relayed

/-! ### A restart with another prover address

The blocks 0 to 100 are proved in one range, under L1 block 5, and aggregated under the
checkpointed L1 block 9 for the prover `0xA`.  An L1 header is its number, and the output
root of a block as well; a boot info is stored as five bytes. -/

/-- The boot info of the blocks 0 to 100. -/
def exampleBlocks : BootInfoStruct := ⟨5, 0, 100, 100, 3⟩

/-- What is on stdin. -/
def exampleStdinInputs : AggregationInputs where
  bootInfos := [exampleBlocks]
  latestL1CheckpointHead := 9
  multiBlockVkey := Aggregation.exampleInputs.multiBlockVkey
  proverAddress := 0xA

def exampleProgram : Runtime Nat where
  decodeInputs := fun _ => some exampleStdinInputs
  fromCbor := fun bytes => some (bytes.map UInt8.toNat)
  parentHash := fun header => BitVec.ofNat 256 (header - 1)
  hashSlow := BitVec.ofNat 256
  bincodeSerialize := fun b => some [UInt8.ofNat b.l1Head.toNat, UInt8.ofNat b.l2PreRoot.toNat,
    UInt8.ofNat b.l2PostRoot.toNat, b.l2BlockNumber.toUInt8, UInt8.ofNat b.rollupConfigHash.toNat]
  sha256 := b256
  attested := fun _ _ => true

def exampleReadBootInfo : Bytes → Option BootInfoStruct
  | [l1Head, pre, post, block, config] =>
    some ⟨BitVec.ofNat 256 l1Head.toNat, BitVec.ofNat 256 pre.toNat, BitVec.ofNat 256 post.toNat,
      block.toUInt64, BitVec.ofNat 256 config.toNat⟩
  | _ => none

/-- The one serialization that is needed. -/
def exampleSerializeInputs (inputs : AggregationInputs) : Option Bytes :=
  if inputs.bootInfos = exampleStdinInputs.bootInfos ∧
      inputs.latestL1CheckpointHead = exampleStdinInputs.latestL1CheckpointHead ∧
      inputs.multiBlockVkey = exampleStdinInputs.multiBlockVkey ∧
      inputs.proverAddress = exampleStdinInputs.proverAddress then some []
  else none

theorem exampleDecodeInputs_serialize (inputs : AggregationInputs) (bytes : Bytes)
    (h : exampleSerializeInputs inputs = some bytes) :
    exampleProgram.decodeInputs bytes = some inputs := by
  obtain ⟨hinputs, -⟩ := Option.ite_none_right_eq_some.mp h
  cases inputs with
  | mk bootInfos checkpoint vkey prover =>
    obtain ⟨rfl, rfl, rfl, rfl⟩ := hinputs
    rfl

def exampleLibraries : Host Nat Bytes32 Unit where
  deserializeProof := fun bytes => some ⟨.compressed (b256 bytes), bytes⟩
  readBootInfo := exampleReadBootInfo
  serializeInputs := exampleSerializeInputs
  toCbor := fun headers => some (headers.map UInt8.ofNat)
  hashU32 := fun _ => exampleStdinInputs.multiBlockVkey

theorem exampleNumber_header (n : Nat) (_ : n ≤ 12) : id (id n) = n := rfl

theorem exampleParentHash_header (n : Nat) (_ : n < 12) :
    exampleProgram.parentHash (id (n + 1)) = exampleProgram.hashSlow (id n) := rfl

def exampleCanonicalL1 : L1Chain exampleProgram where
  number := id
  head := 12
  header := id
  byHash := fun hash => some hash.toNat
  head_lt := exampleL1_head_lt
  number_header := exampleNumber_header
  parentHash_header := exampleParentHash_header
  byHash_header := exampleL1_byHash

theorem exampleBlockHash_eq (n : Nat) (_ : n ≤ 12) :
    BitVec.ofNat 256 n = exampleProgram.hashSlow (exampleCanonicalL1.header n) := rfl

def exampleWorld : World Nat Bytes32 Unit where
  rt := exampleProgram
  vm := exampleZkvm
  host := exampleLibraries
  rangeVk := ()
  l1 := exampleCanonicalL1
  chain := ⟨BitVec.ofNat 256, 0x6E⟩
  outputRoot := BitVec.ofNat 256
  rollupConfigHash := 3
  decodeInputs_serialize := exampleDecodeInputs_serialize
  blockHash_eq := exampleBlockHash_eq

/-- The proposer runs without a dispute game factory. -/
def exampleRelayConfig : RelayConfig where
  toConfig := Validity.exampleConfig
  dgfAddress := zeroAddress
  opSuccinctConfigNameHash := 0xC0

/-- A transaction in the L1 block after the checkpointed one. -/
def exampleCheckpointEnv : Env := { exampleEnv 1000 with blockNumber := 10 }

/-- The range request, when its proof is there, and the aggregation request. -/
def exampleRange : Request :=
  { Validity.exampleProving with status := .complete, proof := some [5, 0, 100, 100, 3] }

def exampleAggregation : Request :=
  { Validity.newAggRequest Validity.exampleConfig.scope .real 0 100 9 9 0xA with id := 2 }

def exampleAggregationProving : Request :=
  { exampleAggregation with status := .prove, proofRequestId := some 6 }

def exampleAggregationComplete : Request :=
  { exampleAggregationProving with status := .complete, proof := some [1, 2, 3] }

/-- The range request is proved over the network. -/
def untilRangeProved : List Label :=
  Validity.firstSelection.map .proposer ++
    [.l1 9 5, .proposer (.task 0 .startWitnessGeneration), .generateProofStdin 0 [] 5,
      .proposer (.task 0 (.prove 5)),
      .proposer (.start .handleOngoingTasks), .proposer (.call (.completed [1])),
      .proposer (.call .ok), .proposer (.call .ok),
      .proposer (.start .handleProvingRequests),
      .proposer (.call (.rows [Validity.exampleProving])), .proposer (.call (.proofStatus
        ⟨0, 1, false, .fulfilled, some (.compressed [5, 0, 100, 100, 3])⟩)),
      .proposer (.call .ok)]

/-- The aggregation request is created, and its task spawned. -/
def untilAggregationSpawned : List Label :=
  [.proposer (.start .createAggregationProofs), .proposer (.call .ok), .proposer (.call .ok),
    .proposer (.call (.ranges [(0, 100)])), .proposer (.call (.submissionInterval 100)),
    .proposer (.call (.row none)), .getL1Header, .checkpoint exampleCheckpointEnv,
    .proposer (.call .ok),
    .proposer (.start .requestQueuedProofs), .proposer (.call .ok), .proposer (.call .ok),
    .proposer (.call .ok), .proposer (.call .ok),
    .proposer (.call (.row (some exampleAggregation))),
    .proposer (.call (.rows [exampleRange])), .proposer (.call .ok), .proposer (.call .ok)]

/-- The aggregation request is proved over the network. -/
def untilAggregationProved : List Label :=
  [.proposer (.task 1 .startWitnessGeneration), .generateProofStdin 1 [exampleRange] 0,
    .proposer (.task 1 (.prove 6)),
    .proposer (.start .handleOngoingTasks), .proposer (.call (.completed [2])),
    .proposer (.call .ok), .proposer (.call .ok),
    .proposer (.start .handleProvingRequests),
    .proposer (.call (.rows [exampleAggregationProving])),
    .proposer (.call (.proofStatus ⟨0, 1, false, .fulfilled, some (.groth16 [1, 2, 3])⟩)),
    .proposer (.call .ok)]

/-- `submit_agg_proofs` up to the relay. -/
def untilRelayed : List Label :=
  [.proposer (.start .submitAggProofs), .proposer (.call .ok),
    .proposer (.call (.row (some exampleAggregationComplete)))]

/-- The proposer is started with another prover address. -/
def restartsWith (proverAddress : Address) : List Label :=
  [.restart { exampleRelayConfig with
      toConfig := { Validity.exampleConfig with proverAddress := proverAddress } },
    .proposer (.call .ok), .proposer (.call .ok)]

def untilProved : List Label :=
  untilRangeProved ++ untilAggregationSpawned ++ untilAggregationProved

def exampleFirst : State Bytes32 Unit := State.start exampleRelayConfig 0 Oracle.fresh

/-- The aggregation request is relayed with the prover address it was made with. -/
def relayedByProver : State Bytes32 Unit :=
  endOf (step exampleWorld) exampleFirst (untilProved ++ untilRelayed)

/-- The aggregation request is relayed after the restart. -/
def relayedByOther : State Bytes32 Unit :=
  endOf (step exampleWorld) exampleFirst (untilProved ++ restartsWith 0xB ++ untilRelayed)

def exampleProposal (proverAddress : Address) : Proposal where
  configName := 0xC0
  outputRoot := 100
  l2BlockNumber := 100
  l1BlockNumber := 9
  proof := [1, 2, 3]
  proverAddress := proverAddress

/-- The request that is relayed. -/
def State.relaying (s : State Bytes32 Unit) : Option Request :=
  match s.sys.main with
  | .submit (.relay request) => some request
  | _ => none

theorem main_of_relaying {s : State Bytes32 Unit} {request : Request}
    (h : s.relaying = some request) : s.sys.main = .submit (.relay request) := by
  unfold State.relaying at h
  split at h
  · rename_i hmain
    rw [hmain, Option.some.inj h]
  · cases h

/-- The rows an aggregation proof was made from end at block 100. -/
def endsAt100 (made : Made Bytes32 Unit) : Bool :=
  match made.job with
  | .range _ _ _ => true
  | .aggregation rows _ => rows.getLast?.any fun last => decide (asU64 last.endBlock = 100)

theorem relayCondition_relayedByProver :
    RelayCondition relayedByProver exampleAggregationComplete where
  proverAddress := by decide +kernel
  endBlock rows stdin h := by
    obtain ⟨made, hmem, -, -, hjob⟩ := h
    have hall : relayedByProver.proofs.all endsAt100 = true := by decide +kernel
    have hends := List.all_eq_true.mp hall made hmem
    rw [endsAt100, hjob] at hends
    obtain ⟨last, hlast, hend⟩ := (Option.any_eq_true _ _).mp hends
    exact ⟨last, hlast, of_decide_eq_true hend⟩

theorem relayed_values_match_iff_example :
    RelayMatches exampleWorld relayedByProver exampleAggregationComplete (exampleProposal 0xA) := by
  have hrun : Run (stepOf (step exampleWorld)) exampleFirst (untilProved ++ untilRelayed)
      relayedByProver := run_endOf (by decide +kernel)
  have hmain := main_of_relaying
    (show relayedByProver.relaying = some exampleAggregationComplete by decide +kernel)
  have htx : relayAggregationProof relayedByProver.cfg exampleWorld.outputRoot
      exampleAggregationComplete = some (.proposeL2Output (exampleProposal 0xA)) := by
    decide +kernel
  exact (relayed_values_match_iff calldataClone_readsArgs hrun hmain htx rfl).mpr
    relayCondition_relayedByProver

/-- **After a restart with another prover address the oracle rebuilds other values** than
the ones the proof of the request commits. -/
theorem relayed_for_other_prover :
    Run (stepOf (step exampleWorld)) exampleFirst (untilProved ++ restartsWith 0xB ++ untilRelayed)
        relayedByOther ∧
      relayedByOther.sys.main = .submit (.relay exampleAggregationComplete) ∧
      relayAggregationProof relayedByOther.cfg exampleWorld.outputRoot
        exampleAggregationComplete = some (.proposeL2Output (exampleProposal 0xB)) ∧
      ¬ RelayMatches exampleWorld relayedByOther exampleAggregationComplete
        (exampleProposal 0xB) := by
  have hrun : Run (stepOf (step exampleWorld)) exampleFirst
      (untilProved ++ restartsWith 0xB ++ untilRelayed) relayedByOther :=
    run_endOf (by decide +kernel)
  have hmain := main_of_relaying
    (show relayedByOther.relaying = some exampleAggregationComplete by decide +kernel)
  have htx : relayAggregationProof relayedByOther.cfg exampleWorld.outputRoot
      exampleAggregationComplete = some (.proposeL2Output (exampleProposal 0xB)) := by
    decide +kernel
  refine ⟨hrun, hmain, htx, fun hmatches => ?_⟩
  have hcondition := ((recorded_run hrun).relayMatches_iff (submitsCompleted_run hrun)
    calldataClone_readsArgs hmain htx rfl).mp hmatches
  have hprover : exampleAggregationComplete.proverAddress ≠
      some relayedByOther.cfg.proverAddress := by
    decide +kernel
  exact hprover hcondition.proverAddress

end OpSuccinct.Proving
