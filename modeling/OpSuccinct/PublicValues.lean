import OpSuccinct.AggregationProgram
import OpSuccinct.FaultGame
import OpSuccinct.L2OutputChain

/-! # Public values

The aggregation program commits the encoding of its outputs, and a contract
verifies a proof for the encoding of a struct it filled in itself.  The two
structs are declared apart, in Rust (`utils/client/src/types.rs`) and in Solidity
(`src/lib/Types.sol`), with other names and other integer types.

Their encodings are equal exactly when all seven fields agree
(`abiEncode_eq_iff`), so a proof that a contract accepted is about the values the
contract filled in and about no others (`public_values_agree`).
-/
namespace OpSuccinct

/-! ## Words of the encodings -/

theorem bytes32_lt (word : Bytes32) : word.toNat < 256 ^ 32 := word.isLt

theorem address_lt (a : Address) : a.toNat < 256 ^ 32 := by
  have h := a.isLt
  omega

theorem uint64_lt (n : UInt64) : n.toNat < 256 ^ 32 := by
  have h := n.toNat_lt
  omega

/-- The seven numbers that `abi.encode` lays out. -/
def AggregationOutputs.words (o : AggregationOutputs) : List Nat :=
  [o.l1Head.toNat, o.l2PreRoot.toNat, o.claimRoot.toNat, o.claimBlockNum,
    o.rollupConfigHash.toNat, o.rangeVkeyCommitment.toNat, o.proverAddress.toNat]

theorem AggregationOutputs.abiEncode_eq (o : AggregationOutputs) :
    o.abiEncode = o.words.flatMap (toBytesBE 32) := by
  simp [AggregationOutputs.abiEncode, AggregationOutputs.words, abiWord]

theorem AggregationOutputs.words_lt {o : AggregationOutputs} (hblock : o.claimBlockNum < 2 ^ 256) :
    ∀ n ∈ o.words, n < 256 ^ 32 := by
  have hblock' : o.claimBlockNum < 256 ^ 32 := hblock
  simp only [AggregationOutputs.words, List.forall_mem_cons, List.not_mem_nil, false_implies,
    implies_true, and_true]
  exact ⟨bytes32_lt _, bytes32_lt _, bytes32_lt _, hblock', bytes32_lt _, bytes32_lt _,
    address_lt _⟩

namespace Aggregation

/-- The seven numbers that `abi_encode` lays out. -/
def AggregationOutputs.words (guest : AggregationOutputs) : List Nat :=
  [guest.l1Head.toNat, guest.l2PreRoot.toNat, guest.l2PostRoot.toNat, guest.l2BlockNumber.toNat,
    guest.rollupConfigHash.toNat, guest.multiBlockVKey.toNat, guest.proverAddress.toNat]

theorem AggregationOutputs.abiEncode_eq (guest : AggregationOutputs) :
    guest.abiEncode = guest.words.flatMap (toBytesBE 32) := by
  simp [AggregationOutputs.abiEncode, AggregationOutputs.words, abiWord]

theorem AggregationOutputs.words_lt (guest : AggregationOutputs) :
    ∀ n ∈ guest.words, n < 256 ^ 32 := by
  simp only [AggregationOutputs.words, List.forall_mem_cons, List.not_mem_nil, false_implies,
    implies_true, and_true]
  exact ⟨bytes32_lt _, bytes32_lt _, bytes32_lt _, uint64_lt _, bytes32_lt _, bytes32_lt _,
    address_lt _⟩

/-- **The encoding of the guest determines its outputs.** -/
theorem AggregationOutputs.abiEncode_inj {guest guest' : AggregationOutputs} :
    guest.abiEncode = guest'.abiEncode ↔ guest = guest' := by
  rw [guest.abiEncode_eq, guest'.abiEncode_eq,
    flatMap_toBytesBE_inj (by rfl) guest.words_lt guest'.words_lt]
  constructor
  · intro h
    simp only [AggregationOutputs.words, List.cons.injEq, and_true, BitVec.toNat_inj,
      UInt64.toNat_inj] at h
    obtain ⟨h₁, h₂, h₃, h₄, h₅, h₆, h₇⟩ := h
    cases guest
    cases guest'
    simp_all
  · rintro rfl
    rfl

/-! ## The verification key -/

/-- The word of the key, group by group: four big-endian bytes for each entry. -/
theorem b256_u32ToU8_eq_iff {vkey : Vector UInt32 8} {word : Bytes32} :
    b256 (u32ToU8 vkey) = word ↔
      ∀ i : Fin 8, wordAt 4 i (toBytesBE 32 word.toNat) = toBeBytes vkey[i] := by
  have hgroup : ∀ i : Fin 8,
      wordAt 4 i (toBytesBE 32 (b256 (u32ToU8 vkey)).toNat) = toBeBytes vkey[i] := by
    intro i
    rw [toBytesBE_b256_u32ToU8]
    exact wordAt_flatMap length_toBeBytes (by simp)
  constructor
  · rintro rfl
    exact hgroup
  · intro h
    have hbytes : toBytesBE 32 (b256 (u32ToU8 vkey)).toNat = toBytesBE 32 word.toNat := by
      have hlen : ∀ n, (toBytesBE 32 n).length = 4 * 8 := fun n => length_toBytesBE 32 n
      refine eq_of_wordAt (by omega) (hlen _) (hlen _) fun i hi => ?_
      exact (hgroup ⟨i, hi⟩).trans (h ⟨i, hi⟩).symm
    exact BitVec.eq_of_toNat_eq ((toBytesBE_inj (bytes32_lt _) (bytes32_lt _)).mp hbytes)

/-- Different keys are different words. -/
theorem b256_u32ToU8_inj {vkey vkey' : Vector UInt32 8} :
    b256 (u32ToU8 vkey) = b256 (u32ToU8 vkey') ↔ vkey = vkey' := by
  constructor
  · intro h
    have hgroup := b256_u32ToU8_eq_iff.mp h
    have hgroup' := b256_u32ToU8_eq_iff.mp (rfl : b256 (u32ToU8 vkey') = _)
    apply Vector.ext
    intro i hi
    have hbytes : toBeBytes vkey[i] = toBeBytes vkey'[i] :=
      (hgroup ⟨i, hi⟩).symm.trans (hgroup' ⟨i, hi⟩)
    exact UInt32.toNat_inj.mp ((toBytesBE_inj vkey[i].toNat_lt vkey'[i].toNat_lt).mp hbytes)
  · rintro rfl
    rfl

/-! ## Agreement of the two structs -/

/-- **All seven fields agree**: what the program outputs for its inputs and for its
first and last boot info, and the struct a contract fills in.  Block numbers agree
as integers; the entries of the key are the groups of four bytes of the
commitment, most significant byte first. -/
structure FieldsAgree (inputs : AggregationInputs) (first last : BootInfoStruct)
    (o : OpSuccinct.AggregationOutputs) : Prop where
  l1Head : inputs.latestL1CheckpointHead = o.l1Head
  l2PreRoot : first.l2PreRoot = o.l2PreRoot
  claimRoot : last.l2PostRoot = o.claimRoot
  claimBlockNum : last.l2BlockNumber.toNat = o.claimBlockNum
  rollupConfigHash : last.rollupConfigHash = o.rollupConfigHash
  rangeVkeyCommitment : ∀ i : Fin 8,
    wordAt 4 i (toBytesBE 32 o.rangeVkeyCommitment.toNat) = toBeBytes inputs.multiBlockVkey[i]
  proverAddress : inputs.proverAddress = o.proverAddress

/-- **Equal encodings are equal fields.**  The Solidity block number is any `uint256`. -/
theorem finalOutputs_abiEncode_eq_iff {inputs : AggregationInputs} {first last : BootInfoStruct}
    {o : OpSuccinct.AggregationOutputs} (hblock : o.claimBlockNum < 2 ^ 256) :
    (finalOutputs inputs first last).abiEncode = o.abiEncode ↔ FieldsAgree inputs first last o := by
  rw [AggregationOutputs.abiEncode_eq, OpSuccinct.AggregationOutputs.abiEncode_eq,
    flatMap_toBytesBE_inj (by rfl) (AggregationOutputs.words_lt _)
      (OpSuccinct.AggregationOutputs.words_lt hblock)]
  simp only [AggregationOutputs.words, OpSuccinct.AggregationOutputs.words, finalOutputs,
    List.cons.injEq, and_true, BitVec.toNat_inj, b256_u32ToU8_eq_iff]
  constructor
  · rintro ⟨h₁, h₂, h₃, h₄, h₅, h₆, h₇⟩
    exact ⟨h₁, h₂, h₃, h₄, h₅, h₆, h₇⟩
  · intro h
    exact ⟨h.l1Head, h.l2PreRoot, h.claimRoot, h.claimBlockNum, h.rollupConfigHash,
      h.rangeVkeyCommitment, h.proverAddress⟩

/-- The outputs of two executions are the same: every input they depend on is. -/
structure SameOutputs (inputs : AggregationInputs) (first last : BootInfoStruct)
    (inputs' : AggregationInputs) (first' last' : BootInfoStruct) : Prop where
  l1Head : inputs.latestL1CheckpointHead = inputs'.latestL1CheckpointHead
  l2PreRoot : first.l2PreRoot = first'.l2PreRoot
  l2PostRoot : last.l2PostRoot = last'.l2PostRoot
  l2BlockNumber : last.l2BlockNumber = last'.l2BlockNumber
  rollupConfigHash : last.rollupConfigHash = last'.rollupConfigHash
  multiBlockVkey : inputs.multiBlockVkey = inputs'.multiBlockVkey
  proverAddress : inputs.proverAddress = inputs'.proverAddress

/-- No two different guest outputs have the same public values. -/
theorem finalOutputs_abiEncode_inj {inputs inputs' : AggregationInputs}
    {first last first' last' : BootInfoStruct} :
    (finalOutputs inputs first last).abiEncode = (finalOutputs inputs' first' last').abiEncode ↔
      SameOutputs inputs first last inputs' first' last' := by
  rw [AggregationOutputs.abiEncode_inj]
  simp only [finalOutputs, AggregationOutputs.mk.injEq, b256_u32ToU8_inj]
  constructor
  · rintro ⟨h₁, h₂, h₃, h₄, h₅, h₆, h₇⟩
    exact ⟨h₁, h₂, h₃, h₄, h₅, h₆, h₇⟩
  · intro h
    exact ⟨h.l1Head, h.l2PreRoot, h.l2PostRoot, h.l2BlockNumber, h.rollupConfigHash,
      h.multiBlockVkey, h.proverAddress⟩

/-! ## Verified public values -/

section Verified
variable {Header : Type} {rt : Runtime Header} {o : OpSuccinct.AggregationOutputs}

/-- **The verifier is sound** for the program's key: it accepts a proof only for bytes
that some execution of the program commits. -/
def SoundFor (rt : Runtime Header) (verifyProof : Bytes → Bytes → Bool) : Prop :=
  ∀ publicValues proof, verifyProof publicValues proof = true →
    ∃ stdin, main rt stdin = .ok publicValues

/-- **The struct is certified**: the program has an execution that commits its encoding,
and whatever execution does so was about exactly its fields. -/
structure Certified (rt : Runtime Header) (o : OpSuccinct.AggregationOutputs) : Prop where
  committed : ∃ stdin, main rt stdin = .ok o.abiEncode
  exact_fields : ∀ stdin, main rt stdin = .ok o.abiEncode →
    ∃ buffer rest inputs first last, stdin = buffer :: rest ∧
      rt.decodeInputs buffer = some inputs ∧ inputs.bootInfos.head? = some first ∧
      inputs.bootInfos.getLast? = some last ∧ FieldsAgree inputs first last o

theorem certified_of_verified {verifyProof : Bytes → Bytes → Bool} {proof : Bytes}
    (hsound : SoundFor rt verifyProof) (hblock : o.claimBlockNum < 2 ^ 256)
    (hverified : verifyProof o.abiEncode proof = true) : Certified rt o where
  committed := hsound _ _ hverified
  exact_fields stdin hmain := by
    obtain ⟨buffer, headersBytes, rest, inputs, _, _, first, last, hstdin, hinputs, -, -, -, -, -,
      -, hfirst, hlast, hcommit⟩ := main_ok_iff.mp hmain
    exact ⟨buffer, headersBytes :: rest, inputs, first, last, hstdin, hinputs, hfirst, hlast,
      (finalOutputs_abiEncode_eq_iff hblock).mp hcommit⟩

end Verified

theorem l2BlockNumber_lt (args : Bytes) : FaultGame.l2BlockNumber args < 2 ^ 256 := by
  have hlt := ofBytesBE_lt (FaultGame.argBytes args 0x54 32)
  have hlen : (FaultGame.argBytes args 0x54 32).length ≤ 32 := by
    simp only [FaultGame.argBytes, List.length_take]
    omega
  exact Nat.lt_of_lt_of_le hlt (Nat.pow_le_pow_right (by omega) hlen)

/-- **Agreement of the public values.**  For all outputs of the program and all
structs, equal encodings are equal fields, and different outputs have different
encodings.  So a proof that the oracle or a dispute game accepted, under a sound
verifier, certifies the fields the contract filled in. -/
theorem public_values_agree :
    (∀ inputs first last, ∀ o : OpSuccinct.AggregationOutputs, o.claimBlockNum < 2 ^ 256 →
      ((finalOutputs inputs first last).abiEncode = o.abiEncode ↔
        FieldsAgree inputs first last o)) ∧
    (∀ inputs first last inputs' first' last',
      (finalOutputs inputs first last).abiEncode = (finalOutputs inputs' first' last').abiEncode ↔
        SameOutputs inputs first last inputs' first' last') ∧
    (∀ {Header : Type} (rt : Runtime Header) (env : OutputOracle.Env) (s s' : OutputOracle.Oracle)
        (configName outputRoot : Bytes32) (l2BlockNumber l1BlockNumber : Nat) (proof : Bytes)
        (proverAddress : Address), l2BlockNumber < 2 ^ 256 →
      SoundFor rt (env.verifyProof s.verifier (s.opSuccinctConfigs configName).aggregationVkey) →
      OutputOracle.proposeL2Output env s configName outputRoot l2BlockNumber l1BlockNumber proof
        proverAddress = .ok s' →
      Certified rt (OutputOracle.publicValues (s.historicBlockHashes l1BlockNumber)
        (s.l2OutputsSlot (s.l2OutputsLength - 1)).outputRoot outputRoot l2BlockNumber
        (s.opSuccinctConfigs configName) proverAddress)) ∧
    (∀ {Header : Type} (rt : Runtime Header) (im : FaultGame.Immutables) (args : Bytes)
        (w : FaultGame.World) (m : Msg) (g g' : FaultGame.Game) (proofBytes : Bytes),
      SoundFor rt (w.verifyProof im.aggregationVkey) →
      FaultGame.prove im args w m g proofBytes = .ok g' →
      Certified rt (FaultGame.publicValues im args g m.sender)) := by
  refine ⟨fun _ _ _ _ => finalOutputs_abiEncode_eq_iff,
    fun _ _ _ _ _ _ => finalOutputs_abiEncode_inj, ?_, ?_⟩
  · intro _ rt env s s' configName outputRoot l2BlockNumber l1BlockNumber proof proverAddress hblock
      hsound hpropose
    obtain ⟨-, -, -, -, -, hverified, -⟩ := OutputOracle.proposeL2Output_ok hpropose
    exact certified_of_verified hsound hblock hverified
  · intro _ rt im args w m g g' proofBytes hsound hprove
    simp only [FaultGame.prove, bind_ok_iff, require_ok_iff] at hprove
    obtain ⟨_, -, _, -, _, haccepted, -⟩ := hprove
    exact certified_of_verified hsound (l2BlockNumber_lt args) haccepted

/-! ### A certified proposal -/

/-- What the oracle fills in for the example commitment. -/
def exampleStruct : OpSuccinct.AggregationOutputs where
  l1Head := 11
  l2PreRoot := 1
  claimRoot := 3
  claimBlockNum := 200
  rollupConfigHash := 7
  rangeVkeyCommitment := 0x0000000100000002000000030000000400000005000000060000000700000008
  proverAddress := 5

/-- An oracle with output root 1, whose verifier knows the example commitment only. -/
def exampleOracle : OutputOracle.Oracle :=
  { OutputOracle.exampleInitialized with
    l2OutputsSlot := fun _ => ⟨1, 1000, 100⟩
    historicBlockHashes := fun _ => 11
    opSuccinctConfigs := fun _ => ⟨9, exampleStruct.rangeVkeyCommitment, 7⟩ }

def exampleVerifierEnv : OutputOracle.Env :=
  { OutputOracle.exampleEnv 2020 with
    verifyProof := fun _ _ values _ => decide (values = exampleStruct.abiEncode) }

theorem exampleVerifier_sound :
    SoundFor exampleRuntime (fun values _ => decide (values = exampleStruct.abiEncode)) := by
  intro publicValues proof h
  exact ⟨[[0], [1]], by rw [of_decide_eq_true h]; decide +kernel⟩

theorem exampleProposal_accepted :
    (OutputOracle.proposeL2Output exampleVerifierEnv exampleOracle 0x6E 3 200 40
      [] 5).toOption.isSome = true := by
  decide +kernel

theorem public_values_agree_example :
    FieldsAgree exampleInputs (exampleBootInfo 10 1 2 100) (exampleBootInfo 9 2 3 200)
      exampleStruct ∧
    Certified exampleRuntime exampleStruct := by
  obtain ⟨hagree, -, horacle, -⟩ := public_values_agree
  refine ⟨(hagree _ _ _ _ (by decide)).mp (by decide +kernel), ?_⟩
  obtain ⟨s', hs'⟩ := exists_ok_of_isSome exampleProposal_accepted
  exact horacle exampleRuntime exampleVerifierEnv exampleOracle s' 0x6E 3 200 40 [] 5 (by decide)
    exampleVerifier_sound hs'

end Aggregation

end OpSuccinct
