import Mathlib.Data.List.Induction
import OpSuccinct.L2OutputOracle
import OpSuccinct.TransitionRuns

/-! # The proof chain of the L2 output oracle

Every stored output after the first is tied to the call that pushed it.  The
calls accepted in a run, with the storage before and after each (`Event`), give
the list of events that pushed the elements now stored (`pushersOf`): a push adds
its event, and a deletion drops the events of the elements it removes.

An element pushed by the validity mode was accepted with a proof from the output
root stored below it to its own root and block, whatever was deleted and proposed
again since (`proof_chain`): an element below the top is only replaced after
everything above it was deleted.
-/
namespace OpSuccinct.OutputOracle

open Transition

variable {chain : Chain} {env : Env} {s s' : Oracle}

/-! ## What an accepted call does -/

theorem initializeOracle_ok_iff {version : Nat} {params : InitParams} :
    initializeOracle chain env s version params = .ok s' ↔
      s.initializedVersion < version ∧ 0 < params.submissionInterval ∧ 0 < params.l2BlockTime ∧
      params.startingTimestamp ≤ env.msg.timestamp ∧
      { pushStarting s params with
        initializedVersion := version
        submissionInterval := params.submissionInterval
        l2BlockTime := params.l2BlockTime
        challenger := params.challenger
        finalizationPeriodSeconds := params.finalizationPeriodSeconds
        approvedProposers := Function.update s.approvedProposers params.proposer true
        fallbackTimeout := params.fallbackTimeout
        opSuccinctConfigs := Function.update s.opSuccinctConfigs chain.genesisConfigName
          ⟨params.aggregationVkey, params.rangeVkeyCommitment, params.rollupConfigHash⟩
        verifier := params.verifier
        owner := params.owner } = s' := by
  simp [initializeOracle, bind_ok_iff]

theorem deleteL2Outputs_ok_iff {l2OutputIndex : Nat} :
    deleteL2Outputs env s l2OutputIndex = .ok s' ↔
      env.msg.sender = s.challenger ∧ l2OutputIndex < s.l2OutputsLength ∧
      (s.l2OutputsSlot l2OutputIndex).timestamp ≤ env.msg.timestamp ∧
      env.msg.timestamp - (s.l2OutputsSlot l2OutputIndex).timestamp < s.finalizationPeriodSeconds ∧
      { s with l2OutputsLength := l2OutputIndex } = s' := by
  simp [deleteL2Outputs, bind_ok_iff, and_assoc]

theorem computeL2Timestamp_ok_iff {n t : Nat} :
    computeL2Timestamp s n = .ok t ↔
      s.startingBlockNumber ≤ n ∧ (n - s.startingBlockNumber) * s.l2BlockTime < 2 ^ 256 ∧
      s.startingTimestamp + (n - s.startingBlockNumber) * s.l2BlockTime < 2 ^ 256 ∧
      s.startingTimestamp + (n - s.startingBlockNumber) * s.l2BlockTime = t := by
  simp [computeL2Timestamp, bind_ok_iff, and_assoc]

/-- **An accepted validity proposal** extends the list by the claimed output, and a
proof for the output root on top of the list was verified. -/
theorem proposeL2Output_ok {configName outputRoot : Bytes32} {l2BlockNumber l1BlockNumber : Nat}
    {proof : Bytes} {proverAddress : Address}
    (h : proposeL2Output env s configName outputRoot l2BlockNumber l1BlockNumber proof
      proverAddress = .ok s') :
    s.optimisticMode = false ∧
    (∃ t, computeL2Timestamp s l2BlockNumber = .ok t ∧ t < env.msg.timestamp) ∧
    isValidOpSuccinctConfig (s.opSuccinctConfigs configName) = true ∧
    s.historicBlockHashes l1BlockNumber ≠ 0 ∧ 0 < s.l2OutputsLength ∧
    env.verifyProof s.verifier (s.opSuccinctConfigs configName).aggregationVkey
      (publicValues (s.historicBlockHashes l1BlockNumber)
        (s.l2OutputsSlot (s.l2OutputsLength - 1)).outputRoot outputRoot l2BlockNumber
        (s.opSuccinctConfigs configName) proverAddress).abiEncode proof = true ∧
    s' = s.push ⟨outputRoot, toUint128 env.msg.timestamp, toUint128 l2BlockNumber⟩ := by
  simp only [proposeL2Output, whenNotOptimistic, latestOutputIndex, bind_ok_iff, require_ok_iff,
    checkedSub_ok_iff, pure_ok_iff] at h
  obtain ⟨_, hmode, _, -, _, -, _, -, t, ht, _, hlt, _, -, _, hconfig, _, hhash, _, ⟨hlen, rfl⟩, _,
    hproof, rfl⟩ := h
  exact ⟨hmode, ⟨t, ht, hlt⟩, hconfig, hhash, hlen, hproof, rfl⟩

/-- An accepted optimistic proposal extends the list in optimistic mode. -/
theorem proposeL2OutputOptimistic_ok {outputRoot l1BlockHash : Bytes32}
    {l2BlockNumber l1BlockNumber : Nat}
    (h : proposeL2OutputOptimistic chain env s outputRoot l2BlockNumber l1BlockHash l1BlockNumber =
      .ok s') :
    s.optimisticMode = true ∧
    s' = s.push ⟨outputRoot, toUint128 env.msg.timestamp, toUint128 l2BlockNumber⟩ := by
  simp only [proposeL2OutputOptimistic, whenOptimistic, bind_ok_iff, require_ok_iff,
    pure_ok_iff] at h
  obtain ⟨_, hmode, _, -, _, -, _, -, _, -, _, -, _, -, _, -, rfl⟩ := h
  exact ⟨hmode, rfl⟩

theorem checkpointBlockHash_ok_iff {n : Nat} :
    checkpointBlockHash chain env s n = .ok s' ↔
      blockhash chain env n ≠ 0 ∧
      { s with
        historicBlockHashes := Function.update s.historicBlockHashes n (blockhash chain env n) } =
        s' := by
  simp [checkpointBlockHash]

theorem asOwner_ok_iff {t : Oracle} :
    asOwner env s t = .ok s' ↔ env.msg.sender = s.owner ∧ t = s' := by
  simp [asOwner, onlyOwner]

/-- What every operation of the owner has in common: the owner makes it, and the
outputs, the L2 clock and the checkpoints stay. -/
structure OwnerEffect (env : Env) (s s' : Oracle) : Prop where
  sender : env.msg.sender = s.owner
  length : s'.l2OutputsLength = s.l2OutputsLength
  slot : s'.l2OutputsSlot = s.l2OutputsSlot
  blockTime : s'.l2BlockTime = s.l2BlockTime
  startingBlock : s'.startingBlockNumber = s.startingBlockNumber
  hashes : s'.historicBlockHashes = s.historicBlockHashes

/-- Every accepted call is an initialization, a deletion, a proposal, a checkpoint or
an operation of the owner. -/
theorem dispatch_cases {call : Call} (h : dispatch chain env s call = .ok s') :
    (∃ version params, call = .initializeOracle version params ∧
      initializeOracle chain env s version params = .ok s') ∨
    (∃ i, call = .deleteL2Outputs i ∧ deleteL2Outputs env s i = .ok s') ∨
    (∃ configName outputRoot block l1Block proof prover,
      call = .proposeL2Output configName outputRoot block l1Block proof prover ∧
      proposeL2Output env s configName outputRoot block l1Block proof prover = .ok s') ∨
    (∃ outputRoot block l1Hash l1Block,
      call = .proposeL2OutputOptimistic outputRoot block l1Hash l1Block ∧
      proposeL2OutputOptimistic chain env s outputRoot block l1Hash l1Block = .ok s') ∨
    (∃ n, call = .checkpointBlockHash n ∧ checkpointBlockHash chain env s n = .ok s') ∨
    OwnerEffect env s s' := by
  cases call with
  | initializeOracle version params => exact .inl ⟨_, _, rfl, h⟩
  | deleteL2Outputs i => exact .inr (.inl ⟨_, rfl, h⟩)
  | proposeL2Output configName outputRoot block l1Block proof prover =>
    exact .inr (.inr (.inl ⟨_, _, _, _, _, _, rfl, h⟩))
  | proposeL2OutputOptimistic outputRoot block l1Hash l1Block =>
    exact .inr (.inr (.inr (.inl ⟨_, _, _, _, rfl, h⟩)))
  | checkpointBlockHash n => exact .inr (.inr (.inr (.inr (.inl ⟨_, rfl, h⟩))))
  | updateSubmissionInterval _ | deleteOpSuccinctConfig _ | transferOwnership _ | addProposer _
  | removeProposer _ =>
    obtain ⟨hsender, rfl⟩ := asOwner_ok_iff.mp h
    exact .inr (.inr (.inr (.inr (.inr ⟨hsender, rfl, rfl, rfl, rfl, rfl⟩))))
  | addOpSuccinctConfig _ _ _ _ =>
    simp only [dispatch, addOpSuccinctConfig, onlyOwner, bind_ok_iff, require_ok_iff,
      pure_ok_iff] at h
    obtain ⟨_, hsender, _, -, _, -, _, -, rfl⟩ := h
    exact .inr (.inr (.inr (.inr (.inr ⟨hsender, rfl, rfl, rfl, rfl, rfl⟩))))
  | enableOptimisticMode _ | disableOptimisticMode _ =>
    simp only [dispatch, enableOptimisticMode, disableOptimisticMode, onlyOwner, bind_ok_iff,
      require_ok_iff, pure_ok_iff] at h
    obtain ⟨_, hsender, _, -, rfl⟩ := h
    exact .inr (.inr (.inr (.inr (.inr ⟨hsender, rfl, rfl, rfl, rfl, rfl⟩))))

/-! ## Events and the elements they pushed -/

/-- An accepted call, with the storage before and after it. -/
structure Event where
  pre : Oracle
  env : Env
  call : Call
  post : Oracle

/-- **One step of the oracle**: an accepted call by anyone. -/
def OracleStep (chain : Chain) (s : Oracle) (e : Event) (s' : Oracle) : Prop :=
  e.pre = s ∧ e.post = s' ∧ execute chain e.env s e.call = .ok s'

/-- The events behind the stored elements after one more event: a longer list has
one more element, and a shorter one lost its last elements. -/
def track (pushers : List Event) (e : Event) : List Event :=
  if e.pre.l2OutputsLength < e.post.l2OutputsLength then pushers ++ [e]
  else pushers.take e.post.l2OutputsLength

/-- **The events that pushed the stored elements**, by index. -/
def pushersOf (tr : List Event) : List Event := tr.foldl track []

theorem pushersOf_append (tr : List Event) (e : Event) :
    pushersOf (tr ++ [e]) = track (pushersOf tr) e := by
  simp [pushersOf]

theorem pushersOf_subset (tr : List Event) : pushersOf tr ⊆ tr := by
  induction tr using List.reverseRecOn with
  | nil => exact List.Subset.refl _
  | append_singleton tr e ih =>
    intro p hp
    rw [pushersOf_append, track] at hp
    split at hp
    · rcases List.mem_append.mp hp with hp | hp
      · exact List.mem_append_left _ (ih hp)
      · exact List.mem_append_right _ hp
    · exact List.mem_append_left _ (ih (List.mem_of_mem_take hp))

/-- The event is within the ranges of the deployment: times fit 64 bits and the
first block 127 bits. -/
def Event.InRange (e : Event) : Prop :=
  e.env.msg.timestamp < 2 ^ 64 ∧
    ∀ version params, e.call = .initializeOracle version params →
      params.startingBlockNumber < 2 ^ 127

/-- **Element `i` was proven**: the event is an accepted proposal of the validity
mode, whose verified public values lead from the output root now stored below the
element to the stored element, under a valid configuration and a canonical L1 head
checkpointed before. -/
def ProvedBy (chain : Chain) (tr : List Event) (s : Oracle) (i : Nat) (e : Event) : Prop :=
  ∃ configName outputRoot block l1Block proof prover, ∃ values : AggregationOutputs,
    e.call = .proposeL2Output configName outputRoot block l1Block proof prover ∧
    e.env.verifyProof e.pre.verifier (e.pre.opSuccinctConfigs configName).aggregationVkey
      values.abiEncode proof = true ∧
    values.l2PreRoot = (s.l2OutputsSlot (i - 1)).outputRoot ∧
    values.claimRoot = (s.l2OutputsSlot i).outputRoot ∧
    values.claimBlockNum = (s.l2OutputsSlot i).l2BlockNumber ∧ values.claimBlockNum = block ∧
    values.rollupConfigHash = (e.pre.opSuccinctConfigs configName).rollupConfigHash ∧
    values.rangeVkeyCommitment = (e.pre.opSuccinctConfigs configName).rangeVkeyCommitment ∧
    isValidOpSuccinctConfig (e.pre.opSuccinctConfigs configName) = true ∧
    values.l1Head = chain.blockHash l1Block ∧ values.l1Head ≠ 0 ∧
    ∃ c ∈ tr, c.call = .checkpointBlockHash l1Block

/-- The event is an accepted proposal of the optimistic mode. -/
def OptimisticBy (e : Event) : Prop :=
  (∃ outputRoot block l1Hash l1Block,
    e.call = .proposeL2OutputOptimistic outputRoot block l1Hash l1Block) ∧
  e.pre.optimisticMode = true

/-! ## The invariant -/

/-- The configurations are usable only once the L2 clock runs: before the first
initialization the contract has no owner and no configuration. -/
def ClockSet (s : Oracle) : Prop :=
  0 < s.l2BlockTime ∨
    s.owner = zeroAddress ∧ ∀ name, isValidOpSuccinctConfig (s.opSuccinctConfigs name) = false

/-- **The invariant of the proof chain.** -/
structure Chained (chain : Chain) (tr : List Event) (s : Oracle) : Prop where
  aligned : (pushersOf tr).length = s.l2OutputsLength
  clock : ClockSet s
  startingBlock : s.startingBlockNumber < 2 ^ 127
  checkpointed : ∀ n, s.historicBlockHashes n ≠ 0 →
    s.historicBlockHashes n = chain.blockHash n ∧ ∃ c ∈ tr, c.call = .checkpointBlockHash n
  justified : ∀ i e, 1 ≤ i → (pushersOf tr)[i]? = some e →
    e.pre.l2OutputsLength = i ∧ (ProvedBy chain tr s i e ∨ OptimisticBy e)

theorem chained_fresh : Chained chain [] Oracle.fresh where
  aligned := rfl
  clock := .inr ⟨rfl, fun _ => rfl⟩
  startingBlock := by decide
  checkpointed n hn := absurd rfl hn
  justified i e _ he := by simp [pushersOf] at he

/-- The L2 clock, once set, is never zero again: nobody owns the contract before. -/
theorem ClockSet.step {call : Call} (h : ClockSet s) (hstep : dispatch chain env s call = .ok s') :
    ClockSet s' := by
  rcases dispatch_cases hstep with ⟨version, params, -, hi⟩ | ⟨i, -, hd⟩ |
    ⟨_, _, _, _, _, _, -, hp⟩ | ⟨_, _, _, _, -, hp⟩ | ⟨n, -, hc⟩ | heffect
  · obtain ⟨-, -, htime, -, rfl⟩ := initializeOracle_ok_iff.mp hi
    exact .inl htime
  · obtain ⟨-, -, -, -, rfl⟩ := deleteL2Outputs_ok_iff.mp hd
    exact h
  · obtain ⟨-, -, -, -, -, -, rfl⟩ := proposeL2Output_ok hp
    exact h
  · obtain ⟨-, rfl⟩ := proposeL2OutputOptimistic_ok hp
    exact h
  · obtain ⟨-, rfl⟩ := checkpointBlockHash_ok_iff.mp hc
    exact h
  · rcases h with htime | ⟨howner, -⟩
    · exact .inl (heffect.blockTime ▸ htime)
    · exact absurd (heffect.sender.trans howner) env.msg.sender_ne_zero

theorem pushStarting_startingBlock (s : Oracle) (params : InitParams) :
    (pushStarting s params).startingBlockNumber = s.startingBlockNumber ∨
      (pushStarting s params).startingBlockNumber = params.startingBlockNumber := by
  unfold pushStarting
  split
  · exact .inr rfl
  · exact .inl rfl

theorem startingBlock_step {call : Call} (h : s.startingBlockNumber < 2 ^ 127)
    (hstep : dispatch chain env s call = .ok s')
    (hparams : ∀ version params, call = .initializeOracle version params →
      params.startingBlockNumber < 2 ^ 127) : s'.startingBlockNumber < 2 ^ 127 := by
  rcases dispatch_cases hstep with ⟨version, params, hcall, hi⟩ | ⟨i, -, hd⟩ |
    ⟨_, _, _, _, _, _, -, hp⟩ | ⟨_, _, _, _, -, hp⟩ | ⟨n, -, hc⟩ | heffect
  · obtain ⟨-, -, -, -, rfl⟩ := initializeOracle_ok_iff.mp hi
    rcases pushStarting_startingBlock s params with heq | heq
    · exact heq ▸ h
    · exact heq ▸ hparams version params hcall
  · obtain ⟨-, -, -, -, rfl⟩ := deleteL2Outputs_ok_iff.mp hd
    exact h
  · obtain ⟨-, -, -, -, -, -, rfl⟩ := proposeL2Output_ok hp
    exact h
  · obtain ⟨-, rfl⟩ := proposeL2OutputOptimistic_ok hp
    exact h
  · obtain ⟨-, rfl⟩ := checkpointBlockHash_ok_iff.mp hc
    exact h
  · exact heffect.startingBlock ▸ h

/-- Checkpoints are hashes of the canonical chain. -/
theorem hashes_step {call : Call} (hstep : dispatch chain env s call = .ok s') (n : Nat) :
    s'.historicBlockHashes n = s.historicBlockHashes n ∨
      call = .checkpointBlockHash n ∧ s'.historicBlockHashes n = chain.blockHash n := by
  rcases dispatch_cases hstep with ⟨version, params, hcall, hi⟩ | ⟨i, -, hd⟩ |
    ⟨_, _, _, _, _, _, -, hp⟩ | ⟨_, _, _, _, -, hp⟩ | ⟨k, hcall, hc⟩ | heffect
  · obtain ⟨-, -, -, -, rfl⟩ := initializeOracle_ok_iff.mp hi
    left
    unfold pushStarting
    split <;> rfl
  · obtain ⟨-, -, -, -, rfl⟩ := deleteL2Outputs_ok_iff.mp hd
    exact .inl rfl
  · obtain ⟨-, -, -, -, -, -, rfl⟩ := proposeL2Output_ok hp
    exact .inl rfl
  · obtain ⟨-, rfl⟩ := proposeL2OutputOptimistic_ok hp
    exact .inl rfl
  · obtain ⟨hne, rfl⟩ := checkpointBlockHash_ok_iff.mp hc
    by_cases hkn : n = k
    · subst hkn
      right
      unfold blockhash at hne ⊢
      split at hne
      · exact ⟨hcall, by simp [*]⟩
      · exact absurd rfl hne
    · exact .inl (by simp [hkn])
  · exact .inl (by rw [heffect.hashes])

/-- A call keeps the slots and does not lengthen the list, or pushes one output:
the starting output on an empty list, or a proposal. -/
theorem outputs_step {call : Call} (hstep : dispatch chain env s call = .ok s') :
    (s'.l2OutputsLength ≤ s.l2OutputsLength ∧ s'.l2OutputsSlot = s.l2OutputsSlot) ∨
    (∃ output, s'.l2OutputsLength = s.l2OutputsLength + 1 ∧
      s'.l2OutputsSlot = Function.update s.l2OutputsSlot s.l2OutputsLength output) ∧
    (s.l2OutputsLength = 0 ∨
      (∃ configName outputRoot block l1Block proof prover,
        call = .proposeL2Output configName outputRoot block l1Block proof prover) ∨
      ∃ outputRoot block l1Hash l1Block,
        call = .proposeL2OutputOptimistic outputRoot block l1Hash l1Block) := by
  rcases dispatch_cases hstep with ⟨version, params, -, hi⟩ | ⟨i, -, hd⟩ |
    ⟨configName, outputRoot, block, l1Block, proof, prover, hcall, hp⟩ |
    ⟨outputRoot, block, l1Hash, l1Block, hcall, hp⟩ | ⟨k, -, hc⟩ | heffect
  · obtain ⟨-, -, -, -, rfl⟩ := initializeOracle_ok_iff.mp hi
    by_cases hempty : s.l2OutputsLength = 0
    · exact .inr ⟨⟨⟨params.startingOutputRoot, toUint128 params.startingTimestamp,
        toUint128 params.startingBlockNumber⟩, by simp [pushStarting, hempty, Oracle.push],
        by simp [pushStarting, hempty, Oracle.push]⟩, .inl hempty⟩
    · exact .inl ⟨by simp [pushStarting, hempty], by simp [pushStarting, hempty]⟩
  · obtain ⟨-, hlt, -, -, rfl⟩ := deleteL2Outputs_ok_iff.mp hd
    exact .inl ⟨Nat.le_of_lt hlt, rfl⟩
  · obtain ⟨-, -, -, -, -, -, rfl⟩ := proposeL2Output_ok hp
    exact .inr ⟨⟨_, rfl, rfl⟩, .inr (.inl ⟨_, _, _, _, _, _, hcall⟩)⟩
  · obtain ⟨-, rfl⟩ := proposeL2OutputOptimistic_ok hp
    exact .inr ⟨⟨_, rfl, rfl⟩, .inr (.inr ⟨_, _, _, _, hcall⟩)⟩
  · obtain ⟨-, rfl⟩ := checkpointBlockHash_ok_iff.mp hc
    exact .inl ⟨Nat.le_refl _, rfl⟩
  · exact .inl ⟨Nat.le_of_eq heffect.length, heffect.slot⟩

/-- A proven element stays proven while it and the element below it stay. -/
theorem ProvedBy.mono {tr tr' : List Event} {i : Nat} {e : Event} (h : ProvedBy chain tr s i e)
    (hbelow : s'.l2OutputsSlot (i - 1) = s.l2OutputsSlot (i - 1))
    (hslot : s'.l2OutputsSlot i = s.l2OutputsSlot i) (htr : ∀ c ∈ tr, c ∈ tr') :
    ProvedBy chain tr' s' i e := by
  obtain ⟨configName, outputRoot, block, l1Block, proof, prover, values, hcall, hproof, hpre, hroot,
    hnum, hblock, hrollup, hrange, hvalid, hhead, hne, c, hc, hcheck⟩ := h
  exact ⟨configName, outputRoot, block, l1Block, proof, prover, values, hcall, hproof,
    hbelow ▸ hpre, hslot ▸ hroot, hslot ▸ hnum, hblock, hrollup, hrange, hvalid, hhead, hne, c,
    htr c hc, hcheck⟩

/-- The block number of an accepted proposal fits 128 bits: the L2 clock counts at
least one second a block, and its time is in the past. -/
theorem block_lt_of_timestamp {block t : Nat} (htime : 0 < s.l2BlockTime)
    (hstart : s.startingBlockNumber < 2 ^ 127) (ht : computeL2Timestamp s block = .ok t)
    (hlt : t < 2 ^ 64) : block < 2 ^ 128 := by
  obtain ⟨-, -, -, rfl⟩ := computeL2Timestamp_ok_iff.mp ht
  have hblocks : block - s.startingBlockNumber ≤
      (block - s.startingBlockNumber) * s.l2BlockTime := Nat.le_mul_of_pos_right _ htime
  omega

/-- **A new element is justified** by the call that pushes it onto a non-empty
list. -/
theorem Chained.justify_new {tr : List Event} {e : Event} (h : Chained chain tr s)
    (hpre : e.pre = s) (hrange : e.InRange) (hstep : dispatch chain e.env s e.call = .ok s')
    (hpos : 1 ≤ s.l2OutputsLength)
    (hpush : (∃ configName outputRoot block l1Block proof prover,
        e.call = .proposeL2Output configName outputRoot block l1Block proof prover) ∨
      ∃ outputRoot block l1Hash l1Block,
        e.call = .proposeL2OutputOptimistic outputRoot block l1Hash l1Block) :
    ProvedBy chain (tr ++ [e]) s' s.l2OutputsLength e ∨ OptimisticBy e := by
  subst hpre
  rcases hpush with ⟨configName, outputRoot, block, l1Block, proof, prover, hcall⟩ |
    ⟨outputRoot, block, l1Hash, l1Block, hcall⟩
  · rw [hcall] at hstep
    obtain ⟨-, ⟨t, ht, hlt⟩, hvalid, hhash, -, hproof, rfl⟩ := proposeL2Output_ok hstep
    left
    -- a usable configuration exists only after initialization, which starts the L2 clock
    have htime : 0 < e.pre.l2BlockTime := by
      rcases h.clock with htime | ⟨-, hnone⟩
      · exact htime
      · simp [hnone configName] at hvalid
    have hblock := block_lt_of_timestamp htime h.startingBlock ht (Nat.lt_trans hlt hrange.1)
    obtain ⟨hcanonical, c, hc, hcheck⟩ := h.checkpointed l1Block hhash
    have hbelow : e.pre.l2OutputsLength - 1 ≠ e.pre.l2OutputsLength := by omega
    refine ⟨configName, outputRoot, block, l1Block, proof, prover, _, hcall, hproof, ?_, ?_, ?_,
      rfl, rfl, rfl, hvalid, hcanonical, hhash, c, List.mem_append_left _ hc, hcheck⟩
    · simp [publicValues, Oracle.push, hbelow]
    · simp [publicValues, Oracle.push]
    · simp [publicValues, Oracle.push, toUint128_of_lt hblock]
  · rw [hcall] at hstep
    obtain ⟨hmode, -⟩ := proposeL2OutputOptimistic_ok hstep
    exact .inr ⟨⟨_, _, _, _, hcall⟩, hmode⟩

/-- **One accepted call** keeps the proof chain. -/
theorem Chained.step {tr : List Event} {e : Event} (h : Chained chain tr s)
    (hrange : e.InRange) (hstep : OracleStep chain s e s') : Chained chain (tr ++ [e]) s' := by
  obtain ⟨hpre, hpost, hexec⟩ := hstep
  obtain ⟨_, -, hdispatch⟩ := bind_ok_iff.mp hexec
  have hchecked : ∀ n, s'.historicBlockHashes n ≠ 0 →
      s'.historicBlockHashes n = chain.blockHash n ∧
        ∃ c ∈ tr ++ [e], c.call = .checkpointBlockHash n := by
    intro n hn
    rcases hashes_step hdispatch n with heq | ⟨hcall, heq⟩
    · obtain ⟨hcanonical, c, hc, hcheck⟩ := h.checkpointed n (heq ▸ hn)
      exact ⟨heq.trans hcanonical, c, List.mem_append_left _ hc, hcheck⟩
    · exact ⟨heq, e, by simp, hcall⟩
  have hclock := h.clock.step hdispatch
  have hstart := startingBlock_step h.startingBlock hdispatch hrange.2
  have hmem : ∀ c ∈ tr, c ∈ tr ++ [e] := fun c hc => List.mem_append_left _ hc
  rcases outputs_step hdispatch with ⟨hlen, hslot⟩ | ⟨⟨output, hlen, hslot⟩, hpush⟩
  · have htrack : pushersOf (tr ++ [e]) = (pushersOf tr).take s'.l2OutputsLength := by
      rw [pushersOf_append, track, hpre, hpost, if_neg (by omega)]
    refine ⟨?_, hclock, hstart, hchecked, fun i e' hi he' => ?_⟩
    · rw [htrack, List.length_take, h.aligned]
      omega
    · rw [htrack, List.getElem?_take] at he'
      split at he'
      · obtain ⟨hindex, hjust⟩ := h.justified i e' hi he'
        exact ⟨hindex, hjust.imp_left fun hp => hp.mono (by rw [hslot]) (by rw [hslot]) hmem⟩
      · cases he'
  · have htrack : pushersOf (tr ++ [e]) = pushersOf tr ++ [e] := by
      rw [pushersOf_append, track, hpre, hpost, if_pos (by omega)]
    refine ⟨by simp [htrack, h.aligned, hlen], hclock, hstart, hchecked, fun i e' hi he' => ?_⟩
    rw [htrack] at he'
    rcases Nat.lt_or_ge i s.l2OutputsLength with hlt | hge
    · rw [List.getElem?_append_left (by rwa [h.aligned])] at he'
      obtain ⟨hindex, hjust⟩ := h.justified i e' hi he'
      have hbelow : i - 1 ≠ s.l2OutputsLength := by omega
      have hne : i ≠ s.l2OutputsLength := by omega
      exact ⟨hindex, hjust.imp_left fun hp => hp.mono (by simp [hslot, hbelow])
        (by simp [hslot, hne]) hmem⟩
    · obtain ⟨hbound, rfl⟩ := List.getElem?_eq_some_iff.mp he'
      simp only [List.length_append, List.length_singleton, h.aligned] at hbound
      obtain rfl : i = s.l2OutputsLength := by omega
      have hlast : (pushersOf tr ++ [e])[s.l2OutputsLength] = e := by simp [← h.aligned]
      rw [hlast]
      refine ⟨by rw [hpre], h.justify_new hpre hrange hdispatch hi ?_⟩
      rcases hpush with hzero | hpush
      · omega
      · exact hpush

/-- **The proof chain.**  In every reachable state each stored element after the
first was pushed, at its index, by an accepted call of the run: by the validity
mode with a verified proof from the output root now stored below it to its own
root and block number, or while the optimistic mode was on. -/
theorem proof_chain {tr : List Event} (hrun : Run (OracleStep chain) Oracle.fresh tr s)
    (hrange : ∀ e ∈ tr, e.InRange) :
    (pushersOf tr).length = s.l2OutputsLength ∧
    ∀ i, 1 ≤ i → i < s.l2OutputsLength → ∃ e ∈ tr, (pushersOf tr)[i]? = some e ∧
      e.pre.l2OutputsLength = i ∧ (ProvedBy chain tr s i e ∨ OptimisticBy e) := by
  have hchained : Chained chain tr s := by
    refine hrun.traceInvariant (I := fun tr s => (∀ e ∈ tr, e.InRange) → Chained chain tr s)
      ?_ (fun _ => chained_fresh) hrange
    intro tr s e s' ih hstep hrange
    exact (ih fun e' he' => hrange e' (List.mem_append_left _ he')).step (hrange e (by simp)) hstep
  refine ⟨hchained.aligned, fun i hi hlt => ?_⟩
  have hlt' : i < (pushersOf tr).length := by rwa [hchained.aligned]
  refine ⟨(pushersOf tr)[i], ?_, List.getElem?_eq_getElem hlt', hchained.justified i _ hi
    (List.getElem?_eq_getElem hlt')⟩
  exact pushersOf_subset tr (List.getElem_mem hlt')

/-! ## An oracle with one proven output -/

def exampleChain : Chain := ⟨fun n => BitVec.ofNat 256 (n + 1), 0x6E⟩

def exampleParams : InitParams where
  challenger := 0xC4A
  proposer := 0xB0B
  owner := 0x0A1
  finalizationPeriodSeconds := 3600
  l2BlockTime := 2
  aggregationVkey := 1
  rangeVkeyCommitment := 2
  rollupConfigHash := 3
  startingOutputRoot := 0x5007
  startingBlockNumber := 100
  startingTimestamp := 1000
  submissionInterval := 10
  verifier := 0x5B1
  fallbackTimeout := 600

theorem exampleProposer_ne_zero : (0xB0B : Address) ≠ zeroAddress := by decide

/-- A call by the proposer at a time, in L1 block 50, where every proof verifies. -/
def exampleEnv (timestamp : Nat) : Env where
  msg := ⟨0xB0B, 0, timestamp, exampleProposer_ne_zero⟩
  origin := 0xB0B
  blockNumber := 50
  verifyProof _ _ _ _ := true

def exampleInitialized : Oracle :=
  { pushStarting Oracle.fresh exampleParams with
    initializedVersion := initializerVersion
    submissionInterval := 10
    l2BlockTime := 2
    challenger := 0xC4A
    finalizationPeriodSeconds := 3600
    approvedProposers := Function.update (fun _ => false) 0xB0B true
    fallbackTimeout := 600
    opSuccinctConfigs := Function.update (fun _ => ⟨0, 0, 0⟩) 0x6E ⟨1, 2, 3⟩
    verifier := 0x5B1
    owner := 0x0A1 }

def exampleCheckpointed : Oracle :=
  { exampleInitialized with historicBlockHashes := Function.update (fun _ => 0) 40 41 }

def exampleProposed : Oracle := exampleCheckpointed.push ⟨0x9007, 2020, 120⟩

/-- Initialization, a checkpoint of L1 block 40, and a proven output for block 120. -/
def exampleEvents : List Event :=
  [⟨Oracle.fresh, exampleEnv 2000, .initializeOracle initializerVersion exampleParams,
      exampleInitialized⟩,
    ⟨exampleInitialized, exampleEnv 2010, .checkpointBlockHash 40, exampleCheckpointed⟩,
    ⟨exampleCheckpointed, exampleEnv 2020, .proposeL2Output 0x6E 0x9007 120 40 [] 0xB0B,
      exampleProposed⟩]

theorem exampleProposed_reached :
    Run (OracleStep exampleChain) Oracle.fresh exampleEvents exampleProposed :=
  .cons ⟨rfl, rfl, rfl⟩ (.cons ⟨rfl, rfl, rfl⟩ (.single ⟨rfl, rfl, rfl⟩))

theorem exampleEvents_inRange : ∀ e ∈ exampleEvents, e.InRange := by
  intro e he
  simp only [exampleEvents, List.mem_cons, List.not_mem_nil, or_false] at he
  rcases he with rfl | rfl | rfl
  · refine ⟨by decide, fun version params hcall => ?_⟩
    cases hcall
    decide
  · exact ⟨by decide, fun _ _ hcall => by cases hcall⟩
  · exact ⟨by decide, fun _ _ hcall => by cases hcall⟩

theorem proof_chain_example :
    ∃ e ∈ exampleEvents, (pushersOf exampleEvents)[1]? = some e ∧
      (ProvedBy exampleChain exampleEvents exampleProposed 1 e ∨ OptimisticBy e) := by
  obtain ⟨-, hchain⟩ := proof_chain exampleProposed_reached exampleEvents_inRange
  obtain ⟨e, hmem, he, -, hjust⟩ := hchain 1 (by decide) (by decide)
  exact ⟨e, hmem, he, hjust⟩

end OpSuccinct.OutputOracle
