import Mathlib.Data.List.AList
import Mathlib.Logic.Relation
import OpSuccinct.BootInfo
import OpSuccinct.CheckedArith

/-! # The aggregation program

The zkVM program that turns a list of verified range proofs into one commitment
(`programs/aggregation/src/main.rs`).  A failed `assert!`, a failed `unwrap` and
an unattested proof end the execution without a commitment, so the program is an
`Except` computation of the committed bytes.

Whatever the host puts on stdin, a commitment is reached only for boot infos that
were all attested, that are linked root to root under one rollup config, and
whose L1 heads lie on the parent chain of the committed L1 head (`main_sound`).
-/
namespace OpSuccinct.Aggregation

/-! ## Data -/

structure AggregationInputs where
  bootInfos : List BootInfoStruct
  latestL1CheckpointHead : Bytes32
  multiBlockVkey : Vector UInt32 8
  proverAddress : Address

/-- The committed public values (`utils/client/src/types.rs`). -/
structure AggregationOutputs where
  l1Head : Bytes32
  l2PreRoot : Bytes32
  l2PostRoot : Bytes32
  l2BlockNumber : UInt64
  rollupConfigHash : Bytes32
  multiBlockVKey : Bytes32
  proverAddress : Address

/-- `abi_encode` of the struct: its seven static fields, one word each. -/
def AggregationOutputs.abiEncode (o : AggregationOutputs) : Bytes :=
  abiWord o.l1Head.toNat ++ abiWord o.l2PreRoot.toNat ++ abiWord o.l2PostRoot.toNat ++
    abiWord o.l2BlockNumber.toNat ++ abiWord o.rollupConfigHash.toNat ++
    abiWord o.multiBlockVKey.toNat ++ abiWord o.proverAddress.toNat

/-- Where an execution of the program can end without a commitment. -/
inductive Panic
  | readInputs
  | readHeaders
  | decodeHeaders
  | bootInfosEmpty
  | l2RootMismatch
  | rollupConfigMismatch
  | serializeBootInfo
  | proofNotVerified
  | headerHashMismatch
  | l1HeadNotFound (l1Head : Bytes32)
  | indexOutOfBounds
  deriving DecidableEq

/-- **What the program calls**: the decoders of stdin, the header type with its
hash, the digest of the range program's public values, and the zkVM's record of
which digests are attested by a proof under a verification key. -/
structure Runtime (Header : Type) where
  decodeInputs : Bytes → Option AggregationInputs
  fromCbor : Bytes → Option (List Header)
  parentHash : Header → Bytes32
  hashSlow : Header → Bytes32
  bincodeSerialize : BootInfoStruct → Option Bytes
  sha256 : Bytes → Bytes32
  attested : Vector UInt32 8 → Bytes32 → Bool

variable {Header : Type} (rt : Runtime Header)

/-! ## The verification key as bytes -/

/-- `output[start..start + bytes.len()].copy_from_slice(bytes)`. -/
def copyFromSlice (output : Bytes) (start : Nat) (bytes : Bytes) : Bytes :=
  output.take start ++ bytes ++ output.drop (start + bytes.length)

/-- `value.to_be_bytes()` of a `u32`. -/
def toBeBytes (value : UInt32) : Bytes := toBytesBE 4 value.toNat

/-- Converts a u32 array to a u8 array, four bytes for each entry. -/
def u32ToU8 (input : Vector UInt32 8) : Bytes :=
  input.toList.zipIdx.foldl
    (fun output (value, i) => copyFromSlice output (i * 4) (toBeBytes value))
    (List.replicate 32 0)

/-! ## The program -/

/-- `sp1_zkvm::io::read`: the next buffer of stdin, decoded. -/
def read : List Bytes → Except Panic (AggregationInputs × List Bytes)
  | [] => throw .readInputs
  | buffer :: rest =>
    match rt.decodeInputs buffer with
    | none => throw .readInputs
    | some inputs => pure (inputs, rest)

/-- `sp1_zkvm::io::read_vec`: the next buffer of stdin. -/
def readVec : List Bytes → Except Panic Bytes
  | [] => throw .readHeaders
  | buffer :: _ => pure buffer

/-- `serde_cbor::from_slice(&headers_bytes).unwrap()`. -/
def decodeHeaders (headersBytes : Bytes) : Except Panic (List Header) :=
  match rt.fromCbor headersBytes with
  | none => throw .decodeHeaders
  | some headers => pure headers

def checkSequential (pair : BootInfoStruct × BootInfoStruct) : Except Panic Unit := do
  require (pair.1.l2PostRoot = pair.2.l2PreRoot) .l2RootMismatch
  require (pair.1.rollupConfigHash = pair.2.rollupConfigHash) .rollupConfigMismatch

def verifyBootInfo (vkey : Vector UInt32 8) (bootInfo : BootInfoStruct) : Except Panic Unit :=
  match rt.bincodeSerialize bootInfo with
  | none => throw .serializeBootInfo
  | some serialized =>
    -- An unattested digest halts the machine.
    require (rt.attested vkey (rt.sha256 serialized) = true) .proofNotVerified

/-- The L1 heads of the boot infos, each with whether it was found. -/
abbrev L1HeadsMap := AList fun _ : Bytes32 => Bool

def l1HeadsMap (bootInfos : List BootInfoStruct) : L1HeadsMap :=
  bootInfos.foldl (fun m bootInfo => m.insert bootInfo.l1Head false) ∅

def markFound (m : L1HeadsMap) (hash : Bytes32) : L1HeadsMap :=
  if hash ∈ m then m.insert hash true else m

/-- The loop over the headers in reverse order. -/
def walkHeaders (currentHash : Bytes32) (m : L1HeadsMap) : List Header → Except Panic L1HeadsMap
  | [] => pure m
  | header :: headers => do
    require (currentHash = rt.hashSlow header) .headerHashMismatch
    walkHeaders (rt.parentHash header) (markFound m currentHash) headers

def checkAllFound (m : L1HeadsMap) : Except Panic Unit :=
  m.entries.forM fun entry => require (entry.2 = true) (.l1HeadNotFound entry.1)

/-- The outputs for the first and last boot info. -/
def finalOutputs (inputs : AggregationInputs) (first last : BootInfoStruct) :
    AggregationOutputs where
  l1Head := inputs.latestL1CheckpointHead
  l2PreRoot := first.l2PreRoot
  l2PostRoot := last.l2PostRoot
  l2BlockNumber := last.l2BlockNumber
  rollupConfigHash := last.rollupConfigHash
  multiBlockVKey := b256 (u32ToU8 inputs.multiBlockVkey)
  proverAddress := inputs.proverAddress

/-- `xs[i]`, which panics out of bounds. -/
def index {α : Type} (xs : List α) (i : Nat) : Except Panic α :=
  match xs[i]? with
  | none => throw .indexOutOfBounds
  | some x => pure x

/-- `main`, up to the bytes it commits. -/
def main (stdin : List Bytes) : Except Panic Bytes := do
  let (inputs, rest) ← read rt stdin
  let headersBytes ← readVec rest
  let headers ← decodeHeaders rt headersBytes
  let bootInfos := inputs.bootInfos
  require (bootInfos ≠ []) .bootInfosEmpty
  -- `windows(2)`
  (bootInfos.zip bootInfos.tail).forM checkSequential
  bootInfos.forM (verifyBootInfo rt inputs.multiBlockVkey)
  let found ← walkHeaders rt inputs.latestL1CheckpointHead (l1HeadsMap bootInfos) headers.reverse
  checkAllFound found
  let first ← index bootInfos 0
  let last ← index bootInfos (bootInfos.length - 1)
  return (finalOutputs inputs first last).abiEncode

variable {rt}

/-! ## The verification key -/

@[simp] theorem length_toBeBytes (value : UInt32) : (toBeBytes value).length = 4 :=
  length_toBytesBE 4 _

/-- Writing the values one after the other fills the slice that starts at the first
index and leaves the bytes around it. -/
theorem foldl_copyFromSlice (values : List UInt32) (k : Nat) (output : Bytes)
    (h : (k + values.length) * 4 ≤ output.length) :
    (values.zipIdx k).foldl
        (fun output (value, i) => copyFromSlice output (i * 4) (toBeBytes value)) output =
      output.take (k * 4) ++ values.flatMap toBeBytes ++
        output.drop ((k + values.length) * 4) := by
  induction values generalizing k output with
  | nil => simp
  | cons value values ih =>
    have hk : k * 4 ≤ output.length := by simp at h; omega
    have hlen : (copyFromSlice output (k * 4) (toBeBytes value)).length = output.length := by
      simp [copyFromSlice] at h ⊢
      omega
    rw [List.zipIdx_cons, List.foldl_cons, ih (k + 1) _ (by simp [hlen] at h ⊢; omega)]
    -- The slice written at `k` is the first part kept by the writes after it.
    have htake : (copyFromSlice output (k * 4) (toBeBytes value)).take ((k + 1) * 4) =
        output.take (k * 4) ++ toBeBytes value := by
      rw [copyFromSlice, List.take_append_of_le_length (by simp; omega),
        List.take_of_length_le (by simp; omega)]
    have hdrop : (copyFromSlice output (k * 4) (toBeBytes value)).drop
        ((k + 1 + values.length) * 4) = output.drop ((k + (value :: values).length) * 4) := by
      rw [copyFromSlice, List.drop_append, List.drop_eq_nil_of_le (by simp; omega), List.nil_append,
        List.drop_drop]
      congr 1
      simp
      omega
    rw [htake, hdrop, List.flatMap_cons]
    simp

theorem u32ToU8_eq_flatMap (input : Vector UInt32 8) :
    u32ToU8 input = input.toList.flatMap toBeBytes := by
  have h := foldl_copyFromSlice input.toList 0 (List.replicate 32 0) (by simp)
  simpa [u32ToU8] using h

theorem length_u32ToU8 (input : Vector UInt32 8) : (u32ToU8 input).length = 32 := by
  simp [u32ToU8_eq_flatMap, List.length_flatMap]

/-- The word of the key spells the big-endian bytes of its entries. -/
theorem toBytesBE_b256_u32ToU8 (input : Vector UInt32 8) :
    toBytesBE 32 (b256 (u32ToU8 input)).toNat = input.toList.flatMap toBeBytes := by
  have hlt : ofBytesBE (u32ToU8 input) < 2 ^ 256 := by
    have h := ofBytesBE_lt (u32ToU8 input)
    rw [length_u32ToU8] at h
    exact h
  have hround := toBytesBE_ofBytesBE (u32ToU8 input)
  rw [length_u32ToU8] at hround
  rw [b256, BitVec.toNat_ofNat, Nat.mod_eq_of_lt hlt, hround, u32ToU8_eq_flatMap]

/-! ## What a passed check says -/

theorem read_ok_iff {stdin rest : List Bytes} {inputs : AggregationInputs} :
    read rt stdin = .ok (inputs, rest) ↔
      ∃ buffer, stdin = buffer :: rest ∧ rt.decodeInputs buffer = some inputs := by
  unfold read
  split
  · simp
  · split <;> simp_all [and_comm]

theorem readVec_ok_iff {stdin : List Bytes} {buffer : Bytes} :
    readVec stdin = .ok buffer ↔ ∃ rest, stdin = buffer :: rest := by
  cases stdin <;> simp [readVec]

theorem decodeHeaders_ok_iff {buffer : Bytes} {headers : List Header} :
    decodeHeaders rt buffer = .ok headers ↔ rt.fromCbor buffer = some headers := by
  unfold decodeHeaders
  split <;> simp_all

theorem checkSequential_ok_iff {pair : BootInfoStruct × BootInfoStruct} {u : Unit} :
    checkSequential pair = .ok u ↔
      pair.1.l2PostRoot = pair.2.l2PreRoot ∧ pair.1.rollupConfigHash = pair.2.rollupConfigHash := by
  simp [checkSequential, bind_ok_iff]

theorem index_ok_iff {α : Type} {xs : List α} {i : Nat} {x : α} :
    index xs i = .ok x ↔ xs[i]? = some x := by
  unfold index
  split <;> simp_all

/-- **A boot info is attested**: a proof under the key was verified for the digest of
its serialization. -/
def Attested (rt : Runtime Header) (vkey : Vector UInt32 8) (bootInfo : BootInfoStruct) : Prop :=
  ∃ serialized, rt.bincodeSerialize bootInfo = some serialized ∧
    rt.attested vkey (rt.sha256 serialized) = true

theorem verifyBootInfo_ok_iff {vkey : Vector UInt32 8} {bootInfo : BootInfoStruct} {u : Unit} :
    verifyBootInfo rt vkey bootInfo = .ok u ↔ Attested rt vkey bootInfo := by
  unfold verifyBootInfo Attested
  split <;> simp_all

/-! ## The map of L1 heads -/

theorem lookup_foldl_insert (bootInfos : List BootInfoStruct) (m : L1HeadsMap) (hash : Bytes32) :
    (bootInfos.foldl (fun m bootInfo => m.insert bootInfo.l1Head false) m).lookup hash =
      if hash ∈ bootInfos.map (·.l1Head) then some false else m.lookup hash := by
  induction bootInfos generalizing m with
  | nil => simp
  | cons bootInfo bootInfos ih =>
    rw [List.foldl_cons, ih]
    by_cases hlater : hash ∈ bootInfos.map (·.l1Head)
    · rw [if_pos hlater, List.map_cons, if_pos (List.mem_cons_of_mem _ hlater)]
    · by_cases hnow : hash = bootInfo.l1Head
      · subst hnow
        simp [hlater]
      · rw [AList.lookup_insert_ne hnow]
        simp [hlater, hnow]

theorem lookup_l1HeadsMap (bootInfos : List BootInfoStruct) (hash : Bytes32) :
    (l1HeadsMap bootInfos).lookup hash =
      if hash ∈ bootInfos.map (·.l1Head) then some false else none :=
  lookup_foldl_insert bootInfos ∅ hash

theorem lookup_markFound (m : L1HeadsMap) (hash hash' : Bytes32) :
    (markFound m hash).lookup hash' =
      if hash' = hash ∧ hash' ∈ m then some true else m.lookup hash' := by
  unfold markFound
  by_cases heq : hash' = hash
  · subst heq
    by_cases hmem : hash' ∈ m <;> simp [hmem]
  · split <;> simp [heq, AList.lookup_insert_ne heq]

theorem mem_markFound {m : L1HeadsMap} {hash hash' : Bytes32} :
    hash' ∈ markFound m hash ↔ hash' ∈ m := by
  unfold markFound
  split
  · rename_i hmem
    rw [AList.mem_insert]
    exact ⟨fun h => h.elim (fun heq => heq ▸ hmem) id, .inr⟩
  · rfl

theorem checkAllFound_ok_iff {m : L1HeadsMap} {u : Unit} :
    checkAllFound m = .ok u ↔ ∀ hash found, m.lookup hash = some found → found = true := by
  rw [checkAllFound, forM_ok_iff]
  constructor
  · intro h hash found hlookup
    have hmem : (⟨hash, found⟩ : Sigma fun _ : Bytes32 => Bool) ∈ m.entries :=
      AList.mem_lookup_iff.mp hlookup
    exact require_ok_iff.mp (h _ hmem)
  · intro h entry hmem
    exact require_ok_iff.mpr (h entry.1 entry.2 (AList.mem_lookup_iff.mpr hmem))

/-! ## The walk over the headers -/

/-- Each header is the one its child's parent hash, or the start, names. -/
def Linked (rt : Runtime Header) : Bytes32 → List Header → Prop
  | _, [] => True
  | hash, header :: headers => hash = rt.hashSlow header ∧ Linked rt (rt.parentHash header) headers

/-- **The spec of the walk.**  The headers it accepts are linked, and it marks exactly
the L1 heads that are hashes of its headers. -/
theorem walkHeaders_ok {headers : List Header} {currentHash : Bytes32} {m m' : L1HeadsMap}
    (h : walkHeaders rt currentHash m headers = .ok m') :
    Linked rt currentHash headers ∧ ∀ hash, m'.lookup hash =
      if hash ∈ headers.map rt.hashSlow ∧ hash ∈ m then some true else m.lookup hash := by
  induction headers generalizing currentHash m with
  | nil =>
    cases h
    simp [Linked]
  | cons header headers ih =>
    simp only [walkHeaders, bind_ok_iff, require_ok_iff] at h
    obtain ⟨_, rfl, h⟩ := h
    obtain ⟨hlinked, hlookup⟩ := ih h
    refine ⟨⟨rfl, hlinked⟩, fun hash => ?_⟩
    simp only [hlookup, mem_markFound, lookup_markFound]
    by_cases hmem : hash ∈ m
    · by_cases hnow : hash = rt.hashSlow header
      · subst hnow
        simp [hmem]
      · simp [hmem, hnow]
    · simp [hmem]

/-- A walk over linked headers goes through. -/
theorem walkHeaders_of_linked {headers : List Header} {currentHash : Bytes32}
    (h : Linked rt currentHash headers) (m : L1HeadsMap) :
    ∃ m', walkHeaders rt currentHash m headers = .ok m' := by
  induction headers generalizing currentHash m with
  | nil => exact ⟨m, rfl⟩
  | cons header headers ih =>
    obtain ⟨m', hm'⟩ := ih h.2 (markFound m currentHash)
    refine ⟨m', ?_⟩
    rw [walkHeaders, bind_ok_iff]
    exact ⟨(), require_ok_iff.mpr h.1, hm'⟩

/-- **The headers suffice**: on linked headers that hold every L1 head, the walk goes
through and finds all of them. -/
theorem walkHeaders_finds {headers : List Header} {currentHash : Bytes32}
    {bootInfos : List BootInfoStruct} (hlinked : Linked rt currentHash headers)
    (hheads : ∀ b ∈ bootInfos, b.l1Head ∈ headers.map rt.hashSlow) :
    ∃ found, walkHeaders rt currentHash (l1HeadsMap bootInfos) headers = .ok found ∧
      checkAllFound found = .ok () := by
  obtain ⟨found, hwalk⟩ := walkHeaders_of_linked hlinked (l1HeadsMap bootInfos)
  refine ⟨found, hwalk, checkAllFound_ok_iff.mpr fun hash marked hlookup => ?_⟩
  rw [(walkHeaders_ok hwalk).2] at hlookup
  split at hlookup
  · exact (Option.some.inj hlookup).symm
  · rename_i hunmarked
    -- A key of the map is an L1 head, so the walk met it.
    have hkey : hash ∈ l1HeadsMap bootInfos := by
      rw [← AList.lookup_isSome, hlookup]
      rfl
    rw [lookup_l1HeadsMap] at hlookup
    split at hlookup
    · rename_i hmem
      obtain ⟨b, hb, rfl⟩ := List.mem_map.mp hmem
      exact absurd ⟨hheads b hb, hkey⟩ hunmarked
    · cases hlookup

/-! ## Soundness -/

/-- `parent` is the header the parent hash of `child` names. -/
def ParentOf (rt : Runtime Header) (child parent : Header) : Prop :=
  rt.parentHash child = rt.hashSlow parent

/-- A header or one of its ancestors along the parent hashes. -/
def Ancestor (rt : Runtime Header) : Header → Header → Prop := Relation.ReflTransGen (ParentOf rt)

theorem Linked.ancestor {header : Header} {headers : List Header} {hash : Bytes32}
    (h : Linked rt hash (header :: headers)) :
    ∀ a ∈ header :: headers, Ancestor rt header a := by
  induction headers generalizing header hash with
  | nil =>
    intro a ha
    rw [List.mem_singleton.mp ha]
    exact .refl
  | cons next headers ih =>
    intro a ha
    rcases List.mem_cons.mp ha with rfl | ha
    · exact .refl
    · exact .head h.2.1 (ih h.2 a ha)

/-- No header has the hash of another one that the host supplied. -/
def CollisionFree (rt : Runtime Header) (headers : List Header) : Prop :=
  ∀ h ∈ headers, ∀ h', rt.hashSlow h = rt.hashSlow h' → h = h'

/-- **What a commitment stands for**, given the inputs and headers it was made from. -/
structure Sound (rt : Runtime Header) (inputs : AggregationInputs) (headers : List Header)
    (outputs : AggregationOutputs) : Prop where
  bootInfos_ne_nil : inputs.bootInfos ≠ []
  /-- Every boot info was attested under the range program's key. -/
  attested : ∀ b ∈ inputs.bootInfos, Attested rt inputs.multiBlockVkey b
  /-- Consecutive boot infos continue each other on one chain. -/
  sequential : ∀ i b b', inputs.bootInfos[i]? = some b → inputs.bootInfos[i + 1]? = some b' →
    b.l2PostRoot = b'.l2PreRoot ∧ b.rollupConfigHash = b'.rollupConfigHash
  /-- The host supplied the checkpointed header and, for every boot info, the ancestor
  its L1 head is the hash of. -/
  supplied : ∃ head ∈ headers, rt.hashSlow head = inputs.latestL1CheckpointHead ∧
    ∀ b ∈ inputs.bootInfos, ∃ h ∈ headers, Ancestor rt head h ∧ rt.hashSlow h = b.l1Head
  /-- Without collisions these are ancestors of *the* header with the checkpointed hash. -/
  ancestors : CollisionFree rt headers →
    ∀ head, rt.hashSlow head = inputs.latestL1CheckpointHead →
      ∀ b ∈ inputs.bootInfos, ∃ h, Ancestor rt head h ∧ rt.hashSlow h = b.l1Head
  /-- The outputs span the first to the last boot info. -/
  outputs_span : ∃ first last, inputs.bootInfos.head? = some first ∧
    inputs.bootInfos.getLast? = some last ∧ outputs.l2PreRoot = first.l2PreRoot ∧
    outputs.l2PostRoot = last.l2PostRoot ∧ outputs.l2BlockNumber = last.l2BlockNumber ∧
    outputs.rollupConfigHash = last.rollupConfigHash
  l1Head : outputs.l1Head = inputs.latestL1CheckpointHead
  multiBlockVKey : toBytesBE 32 outputs.multiBlockVKey.toNat =
    inputs.multiBlockVkey.toList.flatMap toBeBytes
  proverAddress : outputs.proverAddress = inputs.proverAddress

/-- Every L1 head was met on the walk, so it is the hash of a supplied header. -/
theorem l1Head_mem_headers {inputs : AggregationInputs} {headers : List Header} {m : L1HeadsMap}
    {u : Unit}
    (hwalk : walkHeaders rt inputs.latestL1CheckpointHead (l1HeadsMap inputs.bootInfos) headers =
      .ok m)
    (hfound : checkAllFound m = .ok u) {b : BootInfoStruct} (hb : b ∈ inputs.bootInfos) :
    b.l1Head ∈ headers.map rt.hashSlow := by
  have hkey : (l1HeadsMap inputs.bootInfos).lookup b.l1Head = some false := by
    rw [lookup_l1HeadsMap, if_pos (List.mem_map_of_mem hb)]
  by_contra hnot
  have hunmarked : m.lookup b.l1Head = some false := by
    rw [(walkHeaders_ok hwalk).2, if_neg (fun h => hnot h.1), hkey]
  exact Bool.false_ne_true (checkAllFound_ok_iff.mp hfound _ _ hunmarked)

/-- The headers of an accepted walk, latest first, start at the checkpointed header and
hold an ancestor of it for every L1 head. -/
theorem checkpoint_ancestors {inputs : AggregationInputs} {headers : List Header} {m : L1HeadsMap}
    {u : Unit} (hne : inputs.bootInfos ≠ [])
    (hwalk : walkHeaders rt inputs.latestL1CheckpointHead (l1HeadsMap inputs.bootInfos) headers =
      .ok m)
    (hfound : checkAllFound m = .ok u) :
    ∃ head ∈ headers, rt.hashSlow head = inputs.latestL1CheckpointHead ∧
      ∀ b ∈ inputs.bootInfos, ∃ h ∈ headers, Ancestor rt head h ∧ rt.hashSlow h = b.l1Head := by
  have hmet : ∀ b ∈ inputs.bootInfos, b.l1Head ∈ headers.map rt.hashSlow :=
    fun b hb => l1Head_mem_headers hwalk hfound hb
  have hlinked := (walkHeaders_ok hwalk).1
  cases headers with
  | nil =>
    obtain ⟨b, hb⟩ := List.exists_mem_of_ne_nil _ hne
    simpa using hmet b hb
  | cons head headers =>
    refine ⟨head, List.mem_cons_self, hlinked.1.symm, fun b hb => ?_⟩
    obtain ⟨h, hmem, hhash⟩ := List.mem_map.mp (hmet b hb)
    exact ⟨h, hmem, hlinked.ancestor h hmem, hhash⟩

theorem sequential_of_zip {bootInfos : List BootInfoStruct} {u : Unit}
    (h : (bootInfos.zip bootInfos.tail).forM checkSequential = .ok u) {i : Nat}
    {b b' : BootInfoStruct} (hb : bootInfos[i]? = some b) (hb' : bootInfos[i + 1]? = some b') :
    b.l2PostRoot = b'.l2PreRoot ∧ b.rollupConfigHash = b'.rollupConfigHash := by
  have hpair : (bootInfos.zip bootInfos.tail)[i]? = some (b, b') := by
    rw [List.getElem?_zip_eq_some]
    exact ⟨hb, by rwa [List.getElem?_tail]⟩
  exact checkSequential_ok_iff.mp (forM_ok_iff.mp h _ (List.mem_of_getElem? hpair))

/-- **The spec of the program**: what is on stdin, the assertions passed, and the
outputs committed. -/
theorem main_ok_iff {stdin : List Bytes} {committed : Bytes} :
    main rt stdin = .ok committed ↔
      ∃ buffer headersBytes rest inputs headers found first last,
        stdin = buffer :: headersBytes :: rest ∧ rt.decodeInputs buffer = some inputs ∧
        rt.fromCbor headersBytes = some headers ∧ inputs.bootInfos ≠ [] ∧
        (inputs.bootInfos.zip inputs.bootInfos.tail).forM checkSequential = .ok () ∧
        inputs.bootInfos.forM (verifyBootInfo rt inputs.multiBlockVkey) = .ok () ∧
        walkHeaders rt inputs.latestL1CheckpointHead (l1HeadsMap inputs.bootInfos) headers.reverse =
          .ok found ∧ checkAllFound found = .ok () ∧
        inputs.bootInfos.head? = some first ∧ inputs.bootInfos.getLast? = some last ∧
        (finalOutputs inputs first last).abiEncode = committed := by
  simp only [main, bind_ok_iff, require_ok_iff, pure_ok_iff, Prod.exists, read_ok_iff,
    readVec_ok_iff, decodeHeaders_ok_iff, index_ok_iff, List.head?_eq_getElem?,
    List.getLast?_eq_getElem?]
  constructor
  · rintro ⟨inputs, _, ⟨buffer, rfl, hinputs⟩, headersBytes, ⟨rest, rfl⟩, headers, hheaders, _, hne,
      _, hseq, _, hverify, found, hwalk, _, hfound, first, hfirst, last, hlast, hcommit⟩
    exact ⟨buffer, headersBytes, rest, inputs, headers, found, first, last, rfl, hinputs, hheaders,
      hne, hseq, hverify, hwalk, hfound, hfirst, hlast, hcommit⟩
  · rintro ⟨buffer, headersBytes, rest, inputs, headers, found, first, last, rfl, hinputs, hheaders,
      hne, hseq, hverify, hwalk, hfound, hfirst, hlast, hcommit⟩
    exact ⟨inputs, headersBytes :: rest, ⟨buffer, rfl, hinputs⟩, headersBytes, ⟨rest, rfl⟩, headers,
      hheaders, (), hne, (), hseq, (), hverify, found, hwalk, (), hfound, first, hfirst, last,
      hlast, hcommit⟩

/-- **Soundness of the aggregation program.**  Whatever is on stdin, a commitment is
the encoding of outputs that stand for attested, linked boot infos whose L1 heads
are ancestors of the committed one. -/
theorem main_sound {stdin : List Bytes} {committed : Bytes} (h : main rt stdin = .ok committed) :
    ∃ inputs headers outputs,
      (∃ buffer headersBytes rest, stdin = buffer :: headersBytes :: rest ∧
        rt.decodeInputs buffer = some inputs ∧ rt.fromCbor headersBytes = some headers) ∧
      committed = outputs.abiEncode ∧ Sound rt inputs headers outputs := by
  obtain ⟨buffer, headersBytes, rest, inputs, headers, m, first, last, hstdin, hinputs, hheaders,
    hne, hseq, hverify, hwalk, hfound, hfirst, hlast, rfl⟩ := main_ok_iff.mp h
  obtain ⟨head, hmem, hhead, hheads⟩ := checkpoint_ancestors hne hwalk hfound
  refine ⟨inputs, headers, finalOutputs inputs first last,
    ⟨buffer, headersBytes, rest, hstdin, hinputs, hheaders⟩, rfl, ?_⟩
  have hsupplied : head ∈ headers := List.mem_reverse.mp hmem
  refine
    { bootInfos_ne_nil := hne
      attested := fun b hb => verifyBootInfo_ok_iff.mp (forM_ok_iff.mp hverify b hb)
      sequential := fun i b b' hb hb' => sequential_of_zip hseq hb hb'
      supplied := ⟨head, hsupplied, hhead, fun b hb => ?_⟩
      ancestors := fun hfree head' hhead' b hb => ?_
      outputs_span := ⟨first, last, hfirst, hlast, rfl, rfl, rfl, rfl⟩
      l1Head := rfl
      multiBlockVKey := toBytesBE_b256_u32ToU8 _
      proverAddress := rfl }
  · obtain ⟨h, hh, hanc, hhash⟩ := hheads b hb
    exact ⟨h, List.mem_reverse.mp hh, hanc, hhash⟩
  · -- The header with the checkpointed hash is the one the host supplied.
    obtain rfl : head = head' := hfree head hsupplied head' (hhead.trans hhead'.symm)
    obtain ⟨h, -, hanc, hhash⟩ := hheads b hb
    exact ⟨h, hanc, hhash⟩

/-! ### A commitment

Headers are their own hashes, and the parent of a header is the number before it. -/

def exampleBootInfo (l1Head pre post : Bytes32) (block : UInt64) : BootInfoStruct where
  l1Head := l1Head
  l2PreRoot := pre
  l2PostRoot := post
  l2BlockNumber := block
  rollupConfigHash := 7

def exampleInputs : AggregationInputs where
  bootInfos := [exampleBootInfo 10 1 2 100, exampleBootInfo 9 2 3 200]
  latestL1CheckpointHead := 11
  multiBlockVkey := #v[1, 2, 3, 4, 5, 6, 7, 8]
  proverAddress := 5

def exampleRuntime : Runtime Bytes32 where
  decodeInputs := fun buffer => if buffer = [0] then some exampleInputs else none
  fromCbor := fun buffer => if buffer = [1] then some [9, 10, 11] else none
  parentHash := fun header => header - 1
  hashSlow := id
  bincodeSerialize := fun b => some (toBytesBE 4 b.l2PostRoot.toNat)
  sha256 := b256
  attested := fun _ digest => digest = 2 ∨ digest = 3

/-- Two range proofs under L1 heads one and two blocks below the checkpoint. -/
theorem main_sound_example :
    ∃ committed, main exampleRuntime [[0], [1]] = .ok committed ∧
      ∃ inputs headers outputs,
        (∃ buffer headersBytes rest, [[0], [1]] = buffer :: headersBytes :: rest ∧
          exampleRuntime.decodeInputs buffer = some inputs ∧
          exampleRuntime.fromCbor headersBytes = some headers) ∧
        committed = outputs.abiEncode ∧ Sound exampleRuntime inputs headers outputs :=
  ⟨_, rfl, main_sound rfl⟩

end OpSuccinct.Aggregation
