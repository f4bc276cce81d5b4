import Mathlib.Logic.Equiv.List
import OpSuccinct.AggregationHost

/-! # Host and guest agree on aggregation

The stdin of an aggregation request against the program that reads it.  The program
verifies one proof of stdin for each boot info, in order; on the host's side the
proofs, the boot infos and the headers come from three sources.

When the range proofs of a request passed `validate_aggregation_request` and each is
what it was stored as, a proof about its own blocks under an L1 head not above the
checkpoint, the program passes all its assertions on the stdin and commits the values
of the request (`aggregation_agrees`).
-/
namespace OpSuccinct.AggregationHost

open Aggregation
open Validity (Request Scope CommitmentConfig Db IsByStart validateAggregationRequest
  validateAggregationRequest_iff)

/-! ## The program on a stdin with proofs -/

/-- The zkVM's verifier of compressed proofs: a proof and its key against the digests of a
key and of public values. -/
structure Zkvm (Proof Vk : Type) where
  verifies : Proof → Vk → Vector UInt32 8 → Bytes32 → Bool

section Program
variable {Header Proof Vk : Type} (rt : Runtime Header) (vm : Zkvm Proof Vk)

/-- `verify_sp1_proof`, which takes the next proof of stdin. -/
def verifySp1Proof (vkey : Vector UInt32 8) (pvDigest : Bytes32) :
    List (Proof × Vk) → Except Panic (List (Proof × Vk))
  | [] => throw .proofNotVerified
  | (proof, vk) :: proofs => do
    require (vm.verifies proof vk vkey pvDigest = true) .proofNotVerified
    return proofs

/-- Verification of one range proof, on the proofs left on stdin. -/
def verifyNext (vkey : Vector UInt32 8) (proofs : List (Proof × Vk)) (bootInfo : BootInfoStruct) :
    Except Panic (List (Proof × Vk)) :=
  match rt.bincodeSerialize bootInfo with
  | none => throw .serializeBootInfo
  | some serialized => verifySp1Proof vm vkey (rt.sha256 serialized) proofs

/-- `main`, with its proofs on stdin. -/
def mainOn (stdin : SP1Stdin Proof Vk) : Except Panic Bytes := do
  let (inputs, rest) ← read rt stdin.buffer
  let headersBytes ← readVec rest
  let headers ← decodeHeaders rt headersBytes
  let bootInfos := inputs.bootInfos
  require (bootInfos ≠ []) .bootInfosEmpty
  (bootInfos.zip bootInfos.tail).forM checkSequential
  let _ ← bootInfos.foldlM (verifyNext rt vm inputs.multiBlockVkey) stdin.proofs
  let found ← walkHeaders rt inputs.latestL1CheckpointHead (l1HeadsMap bootInfos) headers.reverse
  checkAllFound found
  let first ← index bootInfos 0
  let last ← index bootInfos (bootInfos.length - 1)
  return (finalOutputs inputs first last).abiEncode

variable {rt vm}

/-- **The spec of the program on a stdin with proofs.** -/
theorem mainOn_ok_iff {stdin : SP1Stdin Proof Vk} {committed : Bytes} :
    mainOn rt vm stdin = .ok committed ↔
      ∃ buffer headersBytes rest inputs headers unread found first last,
        stdin.buffer = buffer :: headersBytes :: rest ∧ rt.decodeInputs buffer = some inputs ∧
        rt.fromCbor headersBytes = some headers ∧ inputs.bootInfos ≠ [] ∧
        (inputs.bootInfos.zip inputs.bootInfos.tail).forM checkSequential = .ok () ∧
        inputs.bootInfos.foldlM (verifyNext rt vm inputs.multiBlockVkey) stdin.proofs =
          .ok unread ∧
        walkHeaders rt inputs.latestL1CheckpointHead (l1HeadsMap inputs.bootInfos) headers.reverse =
          .ok found ∧ checkAllFound found = .ok () ∧
        inputs.bootInfos.head? = some first ∧ inputs.bootInfos.getLast? = some last ∧
        (finalOutputs inputs first last).abiEncode = committed := by
  simp only [mainOn, bind_ok_iff, require_ok_iff, pure_ok_iff, Prod.exists, read_ok_iff,
    readVec_ok_iff, decodeHeaders_ok_iff, index_ok_iff, List.head?_eq_getElem?,
    List.getLast?_eq_getElem?]
  constructor
  · rintro ⟨inputs, _, ⟨buffer, hbuffer, hinputs⟩, headersBytes, ⟨rest, rfl⟩, headers, hheaders, _,
      hne, _, hseq, unread, hverify, found, hwalk, _, hfound, first, hfirst, last, hlast, hcommit⟩
    exact ⟨buffer, headersBytes, rest, inputs, headers, unread, found, first, last, hbuffer,
      hinputs, hheaders, hne, hseq, hverify, hwalk, hfound, hfirst, hlast, hcommit⟩
  · rintro ⟨buffer, headersBytes, rest, inputs, headers, unread, found, first, last, hbuffer,
      hinputs, hheaders, hne, hseq, hverify, hwalk, hfound, hfirst, hlast, hcommit⟩
    exact ⟨inputs, headersBytes :: rest, ⟨buffer, hbuffer, hinputs⟩, headersBytes, ⟨rest, rfl⟩,
      headers, hheaders, (), hne, (), hseq, unread, hverify, found, hwalk, (), hfound, first,
      hfirst, last, hlast, hcommit⟩

/-- A boot info that passes is one the verifier accepted a proof for. -/
theorem verifyNext_ok {vkey : Vector UInt32 8} {proofs unread : List (Proof × Vk)}
    {bootInfo : BootInfoStruct} (h : verifyNext rt vm vkey proofs bootInfo = .ok unread) :
    ∃ serialized proof vk, rt.bincodeSerialize bootInfo = some serialized ∧
      vm.verifies proof vk vkey (rt.sha256 serialized) = true := by
  unfold verifyNext at h
  split at h
  · cases h
  · rename_i serialized hserialized
    cases proofs with
    | nil => cases h
    | cons head proofs =>
      simp only [verifySp1Proof, bind_ok_iff, require_ok_iff] at h
      obtain ⟨_, hverifies, -⟩ := h
      exact ⟨serialized, head.1, head.2, hserialized, hverifies⟩

/-- **The program on a stdin with proofs refines the program on attested digests**: what
it commits is committed there too, when the record of attested digests holds what the
verifier accepts. -/
theorem main_of_mainOn {stdin : SP1Stdin Proof Vk} {committed : Bytes}
    (hrecord : ∀ proof vk vkey digest, vm.verifies proof vk vkey digest = true →
      rt.attested vkey digest = true)
    (h : mainOn rt vm stdin = .ok committed) : main rt stdin.buffer = .ok committed := by
  obtain ⟨buffer, headersBytes, rest, inputs, headers, unread, found, first, last, hbuffer,
    hinputs, hheaders, hne, hseq, hverify, hwalk, hfound, hfirst, hlast, hcommit⟩ :=
    mainOn_ok_iff.mp h
  refine main_ok_iff.mpr ⟨buffer, headersBytes, rest, inputs, headers, found, first, last, hbuffer,
    hinputs, hheaders, hne, hseq, forM_ok_iff.mpr ?_, hwalk, hfound, hfirst, hlast, hcommit⟩
  clear hne hseq hwalk hfirst hlast hcommit
  generalize inputs.bootInfos = bootInfos at hverify
  generalize stdin.proofs = proofs at hverify
  induction bootInfos generalizing proofs with
  | nil => exact fun _ hb => absurd hb List.not_mem_nil
  | cons b bootInfos ih =>
    rw [List.foldlM_cons, bind_ok_iff] at hverify
    obtain ⟨left, hb, hrest⟩ := hverify
    intro b' hb'
    rcases List.mem_cons.mp hb' with rfl | hb'
    · obtain ⟨serialized, proof, vk, hserialized, hverifies⟩ := verifyNext_ok hb
      exact verifyBootInfo_ok_iff.mpr ⟨serialized, hserialized, hrecord _ _ _ _ hverifies⟩
    · exact ih left hrest b' hb'

end Program

/-! ## The headers are linked -/

section Headers
variable {Header : Type} {rt : Runtime Header} {l1 : L1Chain rt}

theorem L1Chain.headers_succ (l1 : L1Chain rt) (start count : Nat) :
    l1.headers start (count + 1) = l1.headers start count ++ [l1.header (start + count)] := by
  rw [L1Chain.headers, List.range'_1_concat, List.map_append]
  rfl

/-- The canonical headers below a block are linked to its hash. -/
theorem L1Chain.linked_headers {start count : Nat} (h : start + count ≤ l1.head) :
    Linked rt (rt.hashSlow (l1.header (start + count))) (l1.headers start (count + 1)).reverse := by
  induction count with
  | zero => exact ⟨rfl, trivial⟩
  | succ count ih =>
    rw [l1.headers_succ, List.reverse_append]
    refine ⟨rfl, ?_⟩
    have hparent : rt.parentHash (l1.header (start + (count + 1))) =
        rt.hashSlow (l1.header (start + count)) := l1.parentHash_header (start + count) (by omega)
    rw [hparent]
    exact ih (by omega)

/-- A canonical block is found by one number. -/
theorem L1Chain.HeadAt.unique {n n' : Nat} {b : BootInfoStruct} (h : l1.HeadAt n b)
    (h' : l1.HeadAt n' b) : n = n' := by
  have hheader : l1.header n = l1.header n' := by
    apply Option.some.inj
    rw [← l1.byHash_header n h.1, ← l1.byHash_header n' h'.1, ← h.2, ← h'.2]
  rw [← l1.number_header n h.1, ← l1.number_header n' h'.1, hheader]

theorem L1Chain.mem_headers {start count n : Nat} (hstart : start ≤ n) (hn : n < start + count) :
    l1.header n ∈ l1.headers start count :=
  List.mem_map_of_mem (List.mem_range'_1.mpr ⟨hstart, hn⟩)

end Headers

/-! ## What is stored -/

section Agreement
variable {Header Proof Vk : Type} {rt : Runtime Header}

/-- **The encoders of the host and the decoders of the program** give back what was
written. -/
structure Codecs (host : Host Header Proof Vk) (rt : Runtime Header) : Prop where
  inputs : ∀ inputs, ∃ bytes, host.serializeInputs inputs = some bytes ∧
    rt.decodeInputs bytes = some inputs
  headers : ∀ headers, ∃ bytes, host.toCbor headers = some bytes ∧
    rt.fromCbor bytes = some headers
  bootInfo : ∀ bootInfo bytes, rt.bincodeSerialize bootInfo = some bytes →
    host.readBootInfo bytes = some bootInfo

/-- The row stores a compressed proof of the range program with these public values. -/
def StoredProof (host : Host Header Proof Vk) (rt : Runtime Header) (vm : Zkvm Proof Vk)
    (rangeVk : Vk) (r : Request) (bootInfo : BootInfoStruct) (proof : Proof) : Prop :=
  ∃ bytes publicValues, r.proof = some bytes ∧
    host.deserializeProof bytes = some ⟨.compressed proof, publicValues⟩ ∧
    rt.bincodeSerialize bootInfo = some publicValues ∧
    vm.verifies proof rangeVk (host.hashU32 rangeVk) (rt.sha256 publicValues) = true

/-- **The boot info is about the row's own blocks**: their output roots, one rollup config,
and an L1 head that is canonical and not above the checkpoint. -/
structure AboutItsBlocks (l1 : L1Chain rt) (outputRoot : Int → Bytes32)
    (rollupConfigHash : Bytes32) (checkpoint : Nat) (r : Request) (bootInfo : BootInfoStruct) :
    Prop where
  l2PreRoot : bootInfo.l2PreRoot = outputRoot r.startBlock
  l2PostRoot : bootInfo.l2PostRoot = outputRoot r.endBlock
  l2BlockNumber : (bootInfo.l2BlockNumber.toNat : Int) = r.endBlock
  rollupConfigHash : bootInfo.rollupConfigHash = rollupConfigHash
  l1Head : ∃ n, n ≤ checkpoint ∧ bootInfo.l1Head = rt.hashSlow (l1.header n)

variable {host : Host Header Proof Vk} {vm : Zkvm Proof Vk} {l1 : L1Chain rt} {rangeVk : Vk}
  {rows : List Request} {bootInfo : Request → BootInfoStruct} {proof : Request → Proof}

theorem StoredProof.read {r : Request} {b : BootInfoStruct} {p : Proof}
    (h : StoredProof host rt vm rangeVk r b p) (hcodecs : Codecs host rt) :
    readRangeProof host r = .ok (b, .compressed p) := by
  obtain ⟨bytes, publicValues, hbytes, hproof, hvalues, -⟩ := h
  rw [readRangeProof, hbytes, orFail, bind_ok_iff]
  refine ⟨bytes, rfl, ?_⟩
  rw [hproof, orFail, bind_ok_iff]
  refine ⟨_, rfl, ?_⟩
  rw [hcodecs.bootInfo b publicValues hvalues]
  rfl

theorem StoredProof.verifyNext {r : Request} {b : BootInfoStruct} {p : Proof}
    (h : StoredProof host rt vm rangeVk r b p) (proofs : List (Proof × Vk)) :
    verifyNext rt vm (host.hashU32 rangeVk) ((p, rangeVk) :: proofs) b = .ok proofs := by
  obtain ⟨bytes, publicValues, -, -, hvalues, hverifies⟩ := h
  rw [AggregationHost.verifyNext, hvalues]
  show (require _ _ >>= fun _ => pure proofs) = .ok proofs
  rw [bind_ok_iff]
  exact ⟨(), require_ok_iff.mpr hverifies, rfl⟩

/-- The proofs of the rows, in the order of the rows, are those the program asks for. -/
theorem verify_rows (h : ∀ r ∈ rows, StoredProof host rt vm rangeVk r (bootInfo r) (proof r)) :
    (rows.map bootInfo).foldlM (verifyNext rt vm (host.hashU32 rangeVk))
      (rows.map fun r => (proof r, rangeVk)) = .ok [] := by
  induction rows with
  | nil => rfl
  | cons r rows ih =>
    rw [List.map_cons, List.map_cons, List.foldlM_cons,
      (h r List.mem_cons_self).verifyNext]
    exact ih fun r' hr' => h r' (List.mem_cons_of_mem r hr')

/-! ## What is validated -/

/-- Rows that continue each other have boot infos that do. -/
theorem checkSequential_rows {request : Request} {outputRoot : Int → Bytes32}
    {rollupConfigHash : Bytes32} {checkpoint : Nat}
    (hvalid : validateAggregationRequest rows request = true)
    (hblocks : ∀ r ∈ rows,
      AboutItsBlocks l1 outputRoot rollupConfigHash checkpoint r (bootInfo r)) :
    ((rows.map bootInfo).zip (rows.map bootInfo).tail).forM checkSequential = .ok () := by
  obtain ⟨_, _, -, -, -, -, hchain⟩ := validateAggregationRequest_iff.mp hvalid
  clear hvalid
  induction rows with
  | nil => rfl
  | cons r rows ih =>
    cases rows with
    | nil => rfl
    | cons r' rows =>
      obtain ⟨hlink, hrest⟩ := List.isChain_cons_cons.mp hchain
      have hr := hblocks r List.mem_cons_self
      have hr' := hblocks r' (by simp)
      show (checkSequential (bootInfo r, bootInfo r') >>= fun _ =>
        ((bootInfo r' :: rows.map bootInfo).zip (rows.map bootInfo)).forM checkSequential) = .ok ()
      rw [bind_ok_iff]
      refine ⟨(), checkSequential_ok_iff.mpr ⟨?_, ?_⟩, ?_⟩
      · show (bootInfo r).l2PostRoot = (bootInfo r').l2PreRoot
        rw [hr.l2PostRoot, hr'.l2PreRoot, hlink.1]
      · exact hr.rollupConfigHash.trans hr'.rollupConfigHash.symm
      · exact ih (fun r'' hr'' => hblocks r'' (List.mem_cons_of_mem r hr'')) hrest

/-! ## Agreement -/

/-- A stored range proof is what it was stored as. -/
def HonestRangeProof (host : Host Header Proof Vk) (vm : Zkvm Proof Vk) (l1 : L1Chain rt)
    (rangeVk : Vk) (outputRoot : Int → Bytes32) (rollupConfigHash : Bytes32) (checkpoint : Nat)
    (r : Request) : Prop :=
  ∃ bootInfo proof, StoredProof host rt vm rangeVk r bootInfo proof ∧
    AboutItsBlocks l1 outputRoot rollupConfigHash checkpoint r bootInfo

/-- The stdin the host builds from rows whose proofs it can read. -/
theorem aggProofWitnessgen_ok {query : Scope → Int → Int → List Request} {scope : Scope}
    {startBlock endBlock : Int} {outputRoot : Int → Bytes32} {rollupConfigHash : Bytes32}
    {checkpoint : Nat} (prover : Address) (hcodecs : Codecs host rt)
    (hrows : query scope startBlock endBlock = rows) (hne : rows ≠ [])
    (hstored : ∀ r ∈ rows, StoredProof host rt vm rangeVk r (bootInfo r) (proof r))
    (hblocks : ∀ r ∈ rows,
      AboutItsBlocks l1 outputRoot rollupConfigHash checkpoint r (bootInfo r))
    (hcheckpoint : checkpoint ≤ l1.head) :
    ∃ start buffer headersBytes,
      aggProofWitnessgen host l1 rangeVk query scope.commitments startBlock endBlock
        (rt.hashSlow (l1.header checkpoint)) scope.l1ChainId scope.l2ChainId prover =
          .ok ⟨[buffer, headersBytes], rows.map fun r => (proof r, rangeVk)⟩ ∧
      rt.decodeInputs buffer = some
        { bootInfos := rows.map bootInfo
          latestL1CheckpointHead := rt.hashSlow (l1.header checkpoint)
          multiBlockVkey := host.hashU32 rangeVk
          proverAddress := prover } ∧
      rt.fromCbor headersBytes = some (l1.headers start (checkpoint + 1 - start)) ∧
      ∀ r ∈ rows, ∃ n, start ≤ n ∧ n ≤ checkpoint ∧
        (bootInfo r).l1Head = rt.hashSlow (l1.header n) := by
  have hread : rows.mapM (readRangeProof host) =
      .ok (rows.map fun r => (bootInfo r, .compressed (proof r))) :=
    mapM_ok fun r hr => (hstored r hr).read hcodecs
  have hproofs : (rows.map fun r => SP1Proof.compressed (proof r)).mapM (writeProof rangeVk) =
      .ok (rows.map fun r => (proof r, rangeVk)) := by
    rw [List.mapM_map]
    exact mapM_ok fun r _ => rfl
  have hheads : ∀ b ∈ rows.map bootInfo, ∃ n, l1.HeadAt n b := by
    intro b hb
    obtain ⟨r, hr, rfl⟩ := List.mem_map.mp hb
    obtain ⟨n, hn, hhash⟩ := (hblocks r hr).l1Head
    exact ⟨n, by omega, hhash⟩
  obtain ⟨start, hheaders, hstart⟩ :=
    l1.getHeaderPreimages_ok (by simpa using hne) hheads hcheckpoint
  obtain ⟨buffer, hbuffer, hdecode⟩ := hcodecs.inputs
    { bootInfos := rows.map bootInfo
      latestL1CheckpointHead := rt.hashSlow (l1.header checkpoint)
      multiBlockVkey := host.hashU32 rangeVk
      proverAddress := prover }
  obtain ⟨headersBytes, hcbor, hfrom⟩ := hcodecs.headers (l1.headers start (checkpoint + 1 - start))
  refine ⟨start, buffer, headersBytes, ?_, hdecode, hfrom, fun r hr => ?_⟩
  · rw [aggProofWitnessgen, hrows, bind_ok_iff]
    refine ⟨_, hread, ?_⟩
    simp only [List.map_map, Function.comp_def]
    rw [hheaders]
    show getAggProofStdin host rangeVk _ _ _ _ _ = _
    rw [getAggProofStdin, hproofs, hbuffer, hcbor]
    rfl
  · obtain ⟨n, hn, hhash⟩ := (hblocks r hr).l1Head
    obtain ⟨n', hat, hle⟩ := hstart (bootInfo r) (List.mem_map_of_mem hr)
    have hat' : l1.HeadAt n (bootInfo r) := ⟨by omega, hhash⟩
    exact ⟨n, hat.unique hat' ▸ hle, hn, hhash⟩

/-- The walk from the checkpoint down to `start` finds every L1 head of the rows. -/
theorem walkHeaders_rows {start checkpoint : Nat} (hstart : start ≤ checkpoint)
    (hcheckpoint : checkpoint ≤ l1.head)
    (hheads : ∀ r ∈ rows, ∃ n, start ≤ n ∧ n ≤ checkpoint ∧
      (bootInfo r).l1Head = rt.hashSlow (l1.header n)) :
    ∃ found, walkHeaders rt (rt.hashSlow (l1.header checkpoint)) (l1HeadsMap (rows.map bootInfo))
        (l1.headers start (checkpoint + 1 - start)).reverse = .ok found ∧
      checkAllFound found = .ok () := by
  have hlinked : Linked rt (rt.hashSlow (l1.header checkpoint))
      (l1.headers start (checkpoint + 1 - start)).reverse := by
    obtain ⟨count, rfl⟩ := Nat.exists_eq_add_of_le hstart
    have hcount : start + count + 1 - start = count + 1 := by omega
    rw [hcount]
    exact l1.linked_headers hcheckpoint
  refine walkHeaders_finds hlinked fun b hb => ?_
  obtain ⟨r, hr, rfl⟩ := List.mem_map.mp hb
  obtain ⟨n, hn, hn', hl1Head⟩ := hheads r hr
  rw [hl1Head]
  exact List.mem_map_of_mem (List.mem_reverse.mpr (l1.mem_headers hn (by omega)))

/-- **Host and guest agree.**  For every request whose range proofs passed validation, each
an honest one, the host builds a stdin on which the program passes all its assertions, and
commits the output roots at the request's ends, its end block, its checkpoint and its
prover. -/
theorem aggregation_agrees {db : Db} {query : Scope → Int → Int → List Request} {scope : Scope}
    {request : Request} {outputRoot : Int → Bytes32} {rollupConfigHash : Bytes32}
    {checkpoint : Nat} {prover : Address} (hcodecs : Codecs host rt)
    (hquery : ∀ scope startBlock endBlock,
      IsByStart (db.getConsecutiveCompleteRangeProofs scope startBlock endBlock)
        (query scope startBlock endBlock))
    (hscope : request.InScope scope)
    (hvalid : validateAggregationRequest (query scope request.startBlock request.endBlock) request =
      true)
    (hstored : ∀ r ∈ db.getConsecutiveCompleteRangeProofs scope request.startBlock request.endBlock,
      HonestRangeProof host vm l1 rangeVk outputRoot rollupConfigHash checkpoint r)
    (hcheckpoint : checkpoint ≤ l1.head)
    (hhash : request.checkpointedL1BlockHash = some (rt.hashSlow (l1.header checkpoint)))
    (hprover : request.proverAddress = some prover) :
    ∃ stdin, ∃ outputs : Aggregation.AggregationOutputs,
      generateAggProofStdin host l1 rangeVk query scope.commitments request = .ok stdin ∧
      mainOn rt vm stdin = .ok outputs.abiEncode ∧
      outputs.l2PreRoot = outputRoot request.startBlock ∧
      outputs.l2PostRoot = outputRoot request.endBlock ∧
      (outputs.l2BlockNumber.toNat : Int) = request.endBlock ∧
      some outputs.l1Head = request.checkpointedL1BlockHash ∧
      some outputs.proverAddress = request.proverAddress ∧
      outputs.rollupConfigHash = rollupConfigHash ∧
      outputs.multiBlockVKey = b256 (u32ToU8 (host.hashU32 rangeVk)) := by
  obtain ⟨rows, hrows⟩ : ∃ rows, query scope request.startBlock request.endBlock = rows := ⟨_, rfl⟩
  have hperm := (hquery scope request.startBlock request.endBlock).1
  rw [hrows] at hvalid hperm
  obtain ⟨first, last, hfirst, hlast, hstart, hend, hchain⟩ :=
    validateAggregationRequest_iff.mp hvalid
  have hne : rows ≠ [] := by
    rintro rfl
    cases hfirst
  have hhonest : ∀ r ∈ rows, ∃ bootInfo proof, StoredProof host rt vm rangeVk r bootInfo proof ∧
      AboutItsBlocks l1 outputRoot rollupConfigHash checkpoint r bootInfo :=
    fun r hr => hstored r (hperm.mem_iff.mp hr)
  have hfirstMem : first ∈ rows := List.mem_of_head? hfirst
  have hlastMem : last ∈ rows := List.mem_of_getLast? hlast
  obtain ⟨someBootInfo, someProof, -⟩ := hhonest first hfirstMem
  have : Nonempty BootInfoStruct := ⟨someBootInfo⟩
  have : Nonempty Proof := ⟨someProof⟩
  choose! bootInfo proof hproof hblocks using hhonest
  obtain ⟨start, buffer, headersBytes, hstdin, hinputs, hheaders, hheads⟩ :=
    aggProofWitnessgen_ok prover hcodecs hrows hne hproof hblocks hcheckpoint
  obtain ⟨startHead, hle, hstop, -⟩ := hheads first hfirstMem
  obtain ⟨found, hwalk, hfound⟩ := walkHeaders_rows (Nat.le_trans hle hstop) hcheckpoint hheads
  have hhead : (rows.map bootInfo).head? = some (bootInfo first) := by
    rw [List.head?_map, hfirst]
    rfl
  have hgetLast : (rows.map bootInfo).getLast? = some (bootInfo last) := by
    rw [List.getLast?_map, hlast]
    rfl
  have hmain : mainOn rt vm ⟨[buffer, headersBytes], rows.map fun r => (proof r, rangeVk)⟩ =
      .ok (finalOutputs ⟨rows.map bootInfo, rt.hashSlow (l1.header checkpoint),
        host.hashU32 rangeVk, prover⟩ (bootInfo first) (bootInfo last)).abiEncode :=
    mainOn_ok_iff.mpr ⟨buffer, headersBytes, [], _, _, [], found, bootInfo first, bootInfo last,
      rfl, hinputs, hheaders, by simpa using hne, checkSequential_rows hvalid hblocks,
      verify_rows hproof, hwalk, hfound, hhead, hgetLast, rfl⟩
  have hfirstBlocks := hblocks first hfirstMem
  have hlastBlocks := hblocks last hlastMem
  refine ⟨_, _, ?_, hmain, ?_, ?_, ?_, hhash.symm, hprover.symm, hlastBlocks.rollupConfigHash, rfl⟩
  · rw [generateAggProofStdin, hhash, hprover, hscope.2.2.1, hscope.2.2.2]
    exact hstdin
  · show (bootInfo first).l2PreRoot = _
    rw [hfirstBlocks.l2PreRoot, hstart]
  · show (bootInfo last).l2PostRoot = _
    rw [hlastBlocks.l2PostRoot, hend]
  · show ((bootInfo last).l2BlockNumber.toNat : Int) = _
    rw [hlastBlocks.l2BlockNumber, hend]

end Agreement

/-! ### Two range proofs

An L1 chain of 13 blocks, each its own hash.  The range proofs of blocks 0 to 10 and 10 to
20 were made under L1 blocks 7 and 5, and the checkpoint is block 9.  What is written on
stdin is numbered, and the number written in bytes. -/

def exampleBytes {α : Type} [Encodable α] (a : α) : Bytes :=
  toBytesBE (Encodable.encode a) (Encodable.encode a)

def exampleOfBytes {α : Type} [Encodable α] (bytes : Bytes) : Option α :=
  Encodable.decode (ofBytesBE bytes)

theorem exampleOfBytes_bytes {α : Type} [Encodable α] (a : α) :
    exampleOfBytes (exampleBytes a) = some a := by
  rw [exampleOfBytes, exampleBytes, ofBytesBE_toBytesBE (Nat.lt_pow_self (by omega)),
    Encodable.encodek]

/-- The fields of a boot info. -/
def exampleFields (b : BootInfoStruct) : Nat × Nat × Nat × Nat × Nat :=
  (b.l1Head.toNat, b.l2PreRoot.toNat, b.l2PostRoot.toNat, b.l2BlockNumber.toNat,
    b.rollupConfigHash.toNat)

def exampleOfFields : Nat × Nat × Nat × Nat × Nat → BootInfoStruct
  | (l1Head, pre, post, block, config) =>
    ⟨BitVec.ofNat 256 l1Head, BitVec.ofNat 256 pre, BitVec.ofNat 256 post, UInt64.ofNat block,
      BitVec.ofNat 256 config⟩

theorem exampleOfFields_fields (b : BootInfoStruct) : exampleOfFields (exampleFields b) = b := by
  simp [exampleOfFields, exampleFields]

instance : Encodable BootInfoStruct :=
  .ofLeftInverse exampleFields exampleOfFields exampleOfFields_fields

/-- The fields of the inputs; the key as the list of its entries. -/
def exampleInputFields (inputs : AggregationInputs) :
    List BootInfoStruct × Nat × List Nat × Nat :=
  (inputs.bootInfos, inputs.latestL1CheckpointHead.toNat,
    inputs.multiBlockVkey.toList.map UInt32.toNat, inputs.proverAddress.toNat)

def exampleOfInputFields : List BootInfoStruct × Nat × List Nat × Nat → AggregationInputs
  | (bootInfos, checkpoint, vkey, prover) =>
    ⟨bootInfos, BitVec.ofNat 256 checkpoint, Vector.ofFn fun i => UInt32.ofNat (vkey.getD i 0),
      BitVec.ofNat 160 prover⟩

theorem exampleOfInputFields_fields (inputs : AggregationInputs) :
    exampleOfInputFields (exampleInputFields inputs) = inputs := by
  cases inputs with
  | mk bootInfos checkpoint vkey prover =>
    simp only [exampleOfInputFields, exampleInputFields]
    congr 1
    · simp
    · ext i hi
      simp
    · simp

instance : Encodable AggregationInputs :=
  .ofLeftInverse exampleInputFields exampleOfInputFields exampleOfInputFields_fields

/-- The header of a block is its number. -/
def exampleRuntime : Runtime Nat where
  decodeInputs := exampleOfBytes
  fromCbor := exampleOfBytes
  parentHash := fun header => BitVec.ofNat 256 (header - 1)
  hashSlow := BitVec.ofNat 256
  bincodeSerialize := fun b => some (exampleBytes b)
  sha256 := b256
  attested := fun _ _ => true

theorem exampleL1_byHash (n : Nat) (hn : n ≤ 12) :
    some (exampleRuntime.hashSlow n).toNat = some n := by
  have hlt : n < 2 ^ 256 := by omega
  show some (BitVec.ofNat 256 n).toNat = some n
  rw [BitVec.toNat_ofNat, Nat.mod_eq_of_lt hlt]

theorem exampleL1_head_lt : 12 < 2 ^ 64 - 1 := by decide

def exampleL1 : L1Chain exampleRuntime where
  number := id
  head := 12
  header := id
  byHash := fun hash => some hash.toNat
  head_lt := exampleL1_head_lt
  number_header := fun _ _ => rfl
  parentHash_header := fun _ _ => rfl
  byHash_header := exampleL1_byHash

/-- A proof is the digest it attests, and is stored with the public values. -/
def exampleHost : Host Nat Bytes32 Unit where
  deserializeProof := fun bytes => some ⟨.compressed (b256 bytes), bytes⟩
  readBootInfo := exampleOfBytes
  serializeInputs := fun inputs => some (exampleBytes inputs)
  toCbor := fun headers => some (exampleBytes headers)
  hashU32 := fun _ => exampleInputs.multiBlockVkey

def exampleZkvm : Zkvm Bytes32 Unit where
  verifies := fun proof _ _ digest => decide (proof = digest)

theorem exampleZkvm_verifies (vkey : Vector UInt32 8) (digest : Bytes32) :
    exampleZkvm.verifies digest () vkey digest = true := decide_eq_true rfl

theorem exampleCodecs : Codecs exampleHost exampleRuntime where
  inputs := fun inputs => ⟨_, rfl, exampleOfBytes_bytes inputs⟩
  headers := fun headers => ⟨_, rfl, exampleOfBytes_bytes headers⟩
  bootInfo := fun b _ h => Option.some.inj h ▸ exampleOfBytes_bytes b

def exampleScope : Scope := ⟨⟨1, 2, 3⟩, 1, 10⟩

/-- The output root of an L2 block is its number. -/
def exampleOutputRoot (block : Int) : Bytes32 := BitVec.ofInt 256 block

def exampleBootInfo (l1Head startBlock endBlock : Nat) : BootInfoStruct where
  l1Head := BitVec.ofNat 256 l1Head
  l2PreRoot := exampleOutputRoot startBlock
  l2PostRoot := exampleOutputRoot endBlock
  l2BlockNumber := UInt64.ofNat endBlock
  rollupConfigHash := 3

/-- A complete range request with its proof. -/
def exampleRow (l1Head startBlock endBlock : Nat) : Request :=
  { Validity.newRangeRequest exampleScope .real startBlock endBlock with
    status := .complete
    proof := some (exampleBytes (exampleBootInfo l1Head startBlock endBlock)) }

/-- The later range was requested first. -/
def exampleDb : Db := (Db.empty.insert (exampleRow 5 10 20)).insert (exampleRow 7 0 10)

def exampleRequest : Request :=
  Validity.newAggRequest exampleScope .real 0 20 9 (exampleRuntime.hashSlow 9) 5

theorem exampleDb_rows : exampleDb.getConsecutiveCompleteRangeProofs exampleScope 0 20 =
    [{ exampleRow 7 0 10 with id := 2 }, { exampleRow 5 10 20 with id := 1 }] := by
  rfl

theorem exampleRow_honest {l1Head startBlock endBlock : Nat} (id : Nat) (hl1 : l1Head ≤ 9)
    (hend : endBlock < 2 ^ 64) :
    HonestRangeProof exampleHost exampleZkvm exampleL1 () exampleOutputRoot 3 9
      { exampleRow l1Head startBlock endBlock with id := id } := by
  have hstored : StoredProof exampleHost exampleRuntime exampleZkvm ()
      { exampleRow l1Head startBlock endBlock with id := id }
      (exampleBootInfo l1Head startBlock endBlock)
      (b256 (exampleBytes (exampleBootInfo l1Head startBlock endBlock))) :=
    ⟨_, _, rfl, rfl, rfl, exampleZkvm_verifies _ _⟩
  have hblock : ((UInt64.ofNat endBlock).toNat : Int) = endBlock := by
    rw [UInt64.toNat_ofNat_of_lt' hend]
  exact ⟨_, _, hstored, rfl, rfl, hblock, rfl, l1Head, hl1, rfl⟩

theorem aggregation_agrees_example :
    ∃ stdin, ∃ outputs : Aggregation.AggregationOutputs,
      generateAggProofStdin exampleHost exampleL1 () exampleDb.getConsecutiveCompleteRangeProofs
        exampleScope.commitments exampleRequest = .ok stdin ∧
      mainOn exampleRuntime exampleZkvm stdin = .ok outputs.abiEncode ∧
      outputs.l2PreRoot = exampleOutputRoot 0 ∧ outputs.l2PostRoot = exampleOutputRoot 20 := by
  have hquery : ∀ scope startBlock endBlock,
      IsByStart (exampleDb.getConsecutiveCompleteRangeProofs scope startBlock endBlock)
        (exampleDb.getConsecutiveCompleteRangeProofs scope startBlock endBlock) :=
    fun _ _ _ => ⟨.refl _, List.pairwise_insertionSort _ _⟩
  have hscope : exampleRequest.InScope exampleScope := ⟨rfl, rfl, rfl, rfl⟩
  have hvalid : validateAggregationRequest (exampleDb.getConsecutiveCompleteRangeProofs exampleScope
      exampleRequest.startBlock exampleRequest.endBlock) exampleRequest = true := by
    show validateAggregationRequest
      (exampleDb.getConsecutiveCompleteRangeProofs exampleScope 0 20) exampleRequest = true
    rw [exampleDb_rows]
    rfl
  have hstored : ∀ r ∈ exampleDb.getConsecutiveCompleteRangeProofs exampleScope
      exampleRequest.startBlock exampleRequest.endBlock,
      HonestRangeProof exampleHost exampleZkvm exampleL1 () exampleOutputRoot 3 9 r := by
    show ∀ r ∈ exampleDb.getConsecutiveCompleteRangeProofs exampleScope 0 20, _
    rw [exampleDb_rows]
    simp only [List.forall_mem_cons, List.not_mem_nil, false_implies, implies_true, and_true]
    exact ⟨exampleRow_honest 2 (by decide) (by decide), exampleRow_honest 1 (by decide) (by decide)⟩
  have hcheckpoint : 9 ≤ exampleL1.head := by decide
  obtain ⟨stdin, outputs, hstdin, hmain, hpre, hpost, -⟩ :=
    aggregation_agrees exampleCodecs hquery hscope hvalid hstored hcheckpoint rfl rfl
  exact ⟨stdin, outputs, hstdin, hmain, hpre, hpost⟩

end OpSuccinct.AggregationHost
