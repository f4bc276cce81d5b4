import OpSuccinct.AggregationProgram
import OpSuccinct.Proposer

/-! # The witness of an aggregation proof

What the validity proposer puts on stdin for the aggregation program: the range proofs
of the request (`agg_proof_witnessgen` in `validity/src/proof_requester.rs`), the L1
headers from the earliest L1 head of their boot infos up to the checkpointed block
(`utils/host/src/fetcher.rs`), and the order in which all this is written
(`utils/host/src/proof.rs`).

On an honest L1 node the headers are the canonical ones of a whole interval of block
numbers that ends at the checkpoint and holds every L1 head
(`L1Chain.getHeaderPreimages_ok`).
-/
namespace OpSuccinct.AggregationHost

open Aggregation (Runtime AggregationInputs)
open Validity (Request Scope CommitmentConfig)

/-! ## The L1 node -/

inductive BlockId
  | hash (hash : Bytes32)
  | number (n : Nat)

/-- **The L1 chain, as its node answers for it**: the canonical blocks up to the head are
numbered from zero, linked by their parent hashes, and found by their hashes.  Blocks off
the chain may be found by hash too.  No block has the number `u64::MAX`. -/
structure L1Chain {Header : Type} (rt : Runtime Header) where
  number : Header → Nat
  head : Nat
  header : Nat → Header
  byHash : Bytes32 → Option Header
  head_lt : head < 2 ^ 64 - 1
  number_header : ∀ n, n ≤ head → number (header n) = n
  parentHash_header : ∀ n, n < head → rt.parentHash (header (n + 1)) = rt.hashSlow (header n)
  byHash_header : ∀ n, n ≤ head → byHash (rt.hashSlow (header n)) = some (header n)

/-- Where the generation of a witness can fail. -/
inductive HostError
  | l1HeaderNotFound
  | noEarliestL1Head
  | noProof
  | proofNotDeserialized
  | publicValuesNotRead
  | notCompressed
  | inputsNotSerialized
  | headersNotSerialized
  | noCheckpointedBlock
  | noProverAddress
  deriving DecidableEq

section Fetcher
variable {Header : Type} {rt : Runtime Header} (l1 : L1Chain rt)

/-- `eth_getBlockByHash` and `eth_getBlockByNumber`. -/
def L1Chain.getBlock : BlockId → Option Header
  | .hash hash => l1.byHash hash
  | .number n => if n ≤ l1.head then some (l1.header n) else none

def getL1Header (id : BlockId) : Except HostError Header :=
  match l1.getBlock id with
  | some header => .ok header
  | none => .error .l1HeaderNotFound

/-- One turn of the search: the header is kept if its number is below the least so far. -/
def keepEarliest (earliest : Nat × Option Header) (bootInfo : BootInfoStruct) :
    Except HostError (Nat × Option Header) := do
  let l1BlockHeader ← getL1Header l1 (.hash bootInfo.l1Head)
  return if l1.number l1BlockHeader < earliest.1 then (l1.number l1BlockHeader, some l1BlockHeader)
    else earliest

/-- The search starts at `u64::MAX` without a header. -/
def getEarliestL1HeadInBatch (bootInfos : List BootInfoStruct) : Except HostError Header := do
  let earliest ← bootInfos.foldlM (keepEarliest l1) (2 ^ 64 - 1, none)
  match earliest.2 with
  | some header => return header
  | none => throw .noEarliestL1Head

/-- The headers of `start..=stop`, in this order. -/
def fetchHeadersInRange (start stop : Nat) : Except HostError (List Header) :=
  (List.range' start (stop + 1 - start)).mapM fun n => getL1Header l1 (.number n)

def getHeaderPreimages (bootInfos : List BootInfoStruct) (checkpointBlockHash : Bytes32) :
    Except HostError (List Header) := do
  let startHeader ← getEarliestL1HeadInBatch l1 bootInfos
  let latestHeader ← getL1Header l1 (.hash checkpointBlockHash)
  fetchHeadersInRange l1 (l1.number startHeader) (l1.number latestHeader)

end Fetcher

/-! ## The stdin -/

/-- `SP1Proof`; only a compressed proof is looked into. -/
inductive SP1Proof (Proof : Type)
  | core
  | compressed (proof : Proof)
  | plonk
  | groth16

structure SP1ProofWithPublicValues (Proof : Type) where
  proof : SP1Proof Proof
  publicValues : Bytes

/-- `SP1Stdin`: the buffers, and the proofs with the keys they are verified under. -/
structure SP1Stdin (Proof Vk : Type) where
  buffer : List Bytes
  proofs : List (Proof × Vk)

/-- **What the host calls**: the decoders of stored proofs, the encoders of stdin, and the
hash of a verification key. -/
structure Host (Header Proof Vk : Type) where
  deserializeProof : Bytes → Option (SP1ProofWithPublicValues Proof)
  readBootInfo : Bytes → Option BootInfoStruct
  serializeInputs : AggregationInputs → Option Bytes
  toCbor : List Header → Option Bytes
  hashU32 : Vk → Vector UInt32 8

section Witness
variable {Header Proof Vk : Type} {rt : Runtime Header} (host : Host Header Proof Vk)
  (l1 : L1Chain rt) (rangeVk : Vk)

/-- `unwrap`, `expect` and `ok_or_else`. -/
def orFail {α : Type} (e : HostError) : Option α → Except HostError α
  | some a => .ok a
  | none => .error e

def writeProof : SP1Proof Proof → Except HostError (Proof × Vk)
  | .compressed proof => .ok (proof, rangeVk)
  | .core | .plonk | .groth16 => .error .notCompressed

/-- The proofs first, then the inputs, then the headers. -/
def getAggProofStdin (proofs : List (SP1Proof Proof)) (bootInfos : List BootInfoStruct)
    (headers : List Header) (latestCheckpointHead : Bytes32) (proverAddress : Address) :
    Except HostError (SP1Stdin Proof Vk) := do
  let proofs ← proofs.mapM (writeProof rangeVk)
  let inputs ← orFail .inputsNotSerialized (host.serializeInputs
    { bootInfos := bootInfos
      latestL1CheckpointHead := latestCheckpointHead
      multiBlockVkey := host.hashU32 rangeVk
      proverAddress := proverAddress })
  let headersBytes ← orFail .headersNotSerialized (host.toCbor headers)
  return ⟨[inputs, headersBytes], proofs⟩

/-- The boot info and the proof of a range proof's row. -/
def readRangeProof (request : Request) : Except HostError (BootInfoStruct × SP1Proof Proof) := do
  let bytes ← orFail .noProof request.proof
  let proofWithPv ← orFail .proofNotDeserialized (host.deserializeProof bytes)
  let bootInfo ← orFail .publicValuesNotRead (host.readBootInfo proofWithPv.publicValues)
  return (bootInfo, proofWithPv.proof)

/-- `query` is `get_consecutive_complete_range_proofs`. -/
def aggProofWitnessgen (query : Scope → Int → Int → List Request) (commitments : CommitmentConfig)
    (startBlock endBlock : Int) (checkpointedL1BlockHash : Bytes32) (l1ChainId l2ChainId : Int)
    (proverAddress : Address) : Except HostError (SP1Stdin Proof Vk) := do
  let rangeProofs := query ⟨commitments, l1ChainId, l2ChainId⟩ startBlock endBlock
  let read ← rangeProofs.mapM (readRangeProof host)
  let bootInfos := read.map (·.1)
  let proofs := read.map (·.2)
  let headers ← getHeaderPreimages l1 bootInfos checkpointedL1BlockHash
  getAggProofStdin host rangeVk proofs bootInfos headers checkpointedL1BlockHash proverAddress

/-- `generate_proof_stdin` of an aggregation request. -/
def generateAggProofStdin (query : Scope → Int → Int → List Request)
    (commitments : CommitmentConfig) (request : Request) :
    Except HostError (SP1Stdin Proof Vk) := do
  let checkpointedL1BlockHash ← orFail .noCheckpointedBlock request.checkpointedL1BlockHash
  let proverAddress ← orFail .noProverAddress request.proverAddress
  aggProofWitnessgen host l1 rangeVk query commitments request.startBlock request.endBlock
    checkpointedL1BlockHash request.l1ChainId request.l2ChainId proverAddress

end Witness

/-! ## The headers -/

section Headers
variable {Header : Type} {rt : Runtime Header} {l1 : L1Chain rt}

/-- The canonical headers at `count` numbers from `start` on. -/
def L1Chain.headers (l1 : L1Chain rt) (start count : Nat) : List Header :=
  (List.range' start count).map l1.header

theorem L1Chain.getL1Header_hash {n : Nat} (hn : n ≤ l1.head) :
    getL1Header l1 (.hash (rt.hashSlow (l1.header n))) = .ok (l1.header n) := by
  rw [getL1Header, L1Chain.getBlock, l1.byHash_header n hn]

theorem L1Chain.getL1Header_number {n : Nat} (hn : n ≤ l1.head) :
    getL1Header l1 (.number n) = .ok (l1.header n) := by
  rw [getL1Header, L1Chain.getBlock, if_pos hn]

theorem L1Chain.fetchHeadersInRange_ok {start stop : Nat} (hstop : stop ≤ l1.head) :
    fetchHeadersInRange l1 start stop = .ok (l1.headers start (stop + 1 - start)) := by
  apply mapM_ok
  intro n hn
  rw [List.mem_range'_1] at hn
  exact l1.getL1Header_number (by omega)

/-- An L1 head is the canonical block at a number. -/
def L1Chain.HeadAt (l1 : L1Chain rt) (n : Nat) (bootInfo : BootInfoStruct) : Prop :=
  n ≤ l1.head ∧ bootInfo.l1Head = rt.hashSlow (l1.header n)

theorem L1Chain.keepEarliest_ok {earliest : Nat × Option Header} {bootInfo : BootInfoStruct}
    {n : Nat} (h : l1.HeadAt n bootInfo) :
    keepEarliest l1 earliest bootInfo =
      .ok (if n < earliest.1 then (n, some (l1.header n)) else earliest) := by
  rw [keepEarliest, h.2, l1.getL1Header_hash h.1]
  show Except.ok _ = _
  rw [l1.number_header n h.1]

/-- The search ends at a number that no L1 head is below, with the header there unless it
found nothing below the number it started from. -/
theorem L1Chain.foldlM_keepEarliest {bootInfos : List BootInfoStruct}
    (hheads : ∀ b ∈ bootInfos, ∃ n, l1.HeadAt n b) (earliest : Nat × Option Header) :
    ∃ k found, bootInfos.foldlM (keepEarliest l1) earliest = .ok (k, found) ∧
      (∀ b ∈ bootInfos, ∃ n, l1.HeadAt n b ∧ k ≤ n) ∧ k ≤ earliest.1 ∧
      ((k, found) = earliest ∨ k ≤ l1.head ∧ found = some (l1.header k)) := by
  induction bootInfos generalizing earliest with
  | nil =>
    exact ⟨earliest.1, earliest.2, rfl, fun _ hb => absurd hb List.not_mem_nil, Nat.le_refl _,
      .inl rfl⟩
  | cons b bootInfos ih =>
    obtain ⟨n, hn⟩ := hheads b List.mem_cons_self
    have hrest := ih fun b' hb' => hheads b' (List.mem_cons_of_mem b hb')
    rw [List.foldlM_cons, l1.keepEarliest_ok hn]
    by_cases hlt : n < earliest.1
    · obtain ⟨k, found, hfold, hall, hle, hfound⟩ := hrest (n, some (l1.header n))
      rw [if_pos hlt]
      refine ⟨k, found, hfold, ?_, by simp only at hle; omega, ?_⟩
      · intro b' hb'
        rcases List.mem_cons.mp hb' with rfl | hb'
        · exact ⟨n, hn, hle⟩
        · exact hall b' hb'
      · rcases hfound with heq | hfound
        · cases heq
          exact .inr ⟨hn.1, rfl⟩
        · exact .inr hfound
    · obtain ⟨k, found, hfold, hall, hle, hfound⟩ := hrest earliest
      rw [if_neg hlt]
      refine ⟨k, found, hfold, ?_, hle, hfound⟩
      intro b' hb'
      rcases List.mem_cons.mp hb' with rfl | hb'
      · exact ⟨n, hn, by omega⟩
      · exact hall b' hb'

/-- **The headers the host supplies**: the canonical ones from a number that no L1 head is
below up to the checkpoint. -/
theorem L1Chain.getHeaderPreimages_ok {bootInfos : List BootInfoStruct} {checkpoint : Nat}
    (hne : bootInfos ≠ []) (hheads : ∀ b ∈ bootInfos, ∃ n, l1.HeadAt n b)
    (hcheckpoint : checkpoint ≤ l1.head) :
    ∃ start, getHeaderPreimages l1 bootInfos (rt.hashSlow (l1.header checkpoint)) =
        .ok (l1.headers start (checkpoint + 1 - start)) ∧
      ∀ b ∈ bootInfos, ∃ n, l1.HeadAt n b ∧ start ≤ n := by
  obtain ⟨start, found, hfold, hall, -, hfound⟩ :=
    l1.foldlM_keepEarliest hheads (2 ^ 64 - 1, none)
  have hlt := l1.head_lt
  obtain ⟨b, hb⟩ := List.exists_mem_of_ne_nil _ hne
  obtain ⟨n, hn, hle⟩ := hall b hb
  rcases hfound with heq | ⟨hstart, rfl⟩
  · -- The search found some header, for every number on the chain is below its start.
    obtain rfl : start = 2 ^ 64 - 1 := congrArg Prod.fst heq
    have hnhead := hn.1
    omega
  · refine ⟨start, ?_, hall⟩
    have hearliest : getEarliestL1HeadInBatch l1 bootInfos = .ok (l1.header start) := by
      rw [getEarliestL1HeadInBatch, hfold]
      rfl
    rw [getHeaderPreimages, hearliest, l1.getL1Header_hash hcheckpoint]
    show fetchHeadersInRange l1 _ _ = _
    rw [l1.number_header start hstart, l1.number_header checkpoint hcheckpoint,
      l1.fetchHeadersInRange_ok hcheckpoint]

end Headers

end OpSuccinct.AggregationHost
