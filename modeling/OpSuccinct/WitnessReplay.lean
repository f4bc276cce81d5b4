import Mathlib.Data.List.AList
import OpSuccinct.CheckedArith
import OpSuccinct.Evm

/-! # The witness of a range program

The host runs the client once with an oracle and a blob provider that record what they
answer (`record`); the zkVM runs it again with the recorded preimages and blobs
(`replay`).  A preimage is found by its key, however often it was asked for.  The blobs
are kept in three parallel lists, from which `BlobStore::from` makes a stack, and every
requested hash takes one blob off it.

Whatever the upstream oracle answers, `save_preimage` only records matching preimages and
one for each key.  So the client that made its calls without an error gets the same
answers again, if the upstream provider delivers the blobs of the hashes it is asked for
(`witness_replays`).
-/
namespace OpSuccinct.Witness

/-! ## Preimages -/

inductive PreimageKeyType
  | localKey
  | keccak256
  | globalGeneric
  | sha256
  | blob
  | precompile
  deriving DecidableEq

/-- `PreimageKey`: all bytes of a hash but the first, and the type. -/
structure PreimageKey where
  data : BitVec 248
  keyType : PreimageKeyType
  deriving DecidableEq

def PreimageKey.new (hash : Bytes32) (keyType : PreimageKeyType) : PreimageKey :=
  ⟨hash.setWidth 248, keyType⟩

abbrev Blob := Vector UInt8 131072

abbrev Bytes48 := Vector UInt8 48

/-- The hash functions, and KZG commitments with the trusted setup. -/
structure Crypto where
  keccak256 : Bytes → Bytes32
  sha256 : Bytes → Bytes32
  blobToKzgCommitment : Blob → Option Bytes48
  computeBlobKzgProof : Blob → Bytes48 → Option Bytes48
  kzgToVersionedHash : Bytes48 → Bytes32
  verifyBlobKzgProofBatch : List Blob → List Bytes48 → List Bytes48 → Option Bool

/-- Errors and panics. -/
inductive Failure
  | invalidPreimageKey
  | bufferLength
  /-- "Invalid preimage" -/
  | invalidPreimage
  /-- "Cannot overwrite key" -/
  | overwrite
  /-- "Precompile not supported in zkVM" -/
  | precompileKey
  /-- "Blob keys validated in blob witness" -/
  | blobKey
  | kzg
  /-- "Failed to verify blob KZG proofs." -/
  | blobBatch
  | emptyPop
  | upstream
  deriving DecidableEq

variable (c : Crypto)

/-- `check_preimage`. -/
def checkPreimage (key : PreimageKey) (value : Bytes) : Except Failure Unit :=
  match key.keyType with
  | .keccak256 =>
    require (key = PreimageKey.new (c.keccak256 value) key.keyType) .invalidPreimageKey
  | .sha256 => require (key = PreimageKey.new (c.sha256 value) key.keyType) .invalidPreimageKey
  | .localKey | .globalGeneric => .ok ()
  | .precompile => .error .precompileKey
  | .blob => .error .blobKey

structure PreimageStore where
  preimageMap : AList fun _ : PreimageKey => Bytes

namespace PreimageStore

def empty : PreimageStore := ⟨∅⟩

/-- `check_preimages`. -/
def checkPreimages (store : PreimageStore) : Except Failure Unit :=
  store.preimageMap.entries.forM fun entry => checkPreimage c entry.1 entry.2

/-- `expect("Invalid preimage")`. -/
def expectValid : Failure → Failure
  | .invalidPreimageKey => .invalidPreimage
  | failure => failure

/-- `save_preimage`. -/
def savePreimage (store : PreimageStore) (key : PreimageKey) (value : Bytes) :
    Except Failure PreimageStore := do
  (checkPreimage c key value).mapError expectValid
  match store.preimageMap.lookup key with
  | some old => require (old = value) .overwrite
  | none => pure ()
  return ⟨store.preimageMap.insert key value⟩

/-- `get`. -/
def get (store : PreimageStore) (key : PreimageKey) : Except Failure Bytes :=
  match store.preimageMap.lookup key with
  | some value => .ok value
  | none => .error .invalidPreimageKey

/-- `get_exact` into a buffer of a length. -/
def getExact (store : PreimageStore) (key : PreimageKey) (len : Nat) : Except Failure Bytes := do
  let value ← store.get key
  require (value.length = len) .bufferLength
  return value

end PreimageStore

/-! ## Blobs -/

structure BlobData where
  blobs : List Blob
  commitments : List Bytes48
  proofs : List Bytes48

/-- `get_blob_data`, pushed to the three lists. -/
def BlobData.push (data : BlobData) (blob : Blob) : Except Failure BlobData :=
  match c.blobToKzgCommitment blob with
  | none => .error .kzg
  | some commitment =>
    match c.computeBlobKzgProof blob commitment with
    | none => .error .kzg
    | some proof => .ok ⟨data.blobs ++ [blob], data.commitments ++ [commitment],
      data.proofs ++ [proof]⟩

structure BlobStore where
  versionedBlobs : List (Bytes32 × Blob)

namespace BlobStore

/-- `BlobStore::from`.  Only an error of the batch check is a panic, a negative answer of
it is not looked at. -/
def ofBlobData (value : BlobData) : Except Failure BlobStore :=
  let versionedBlobs :=
    ((value.commitments.map c.kzgToVersionedHash).zip value.blobs).reverse
  match c.verifyBlobKzgProofBatch value.blobs value.commitments value.proofs with
  | some _ => .ok ⟨versionedBlobs⟩
  | none => .error .blobBatch

/-- `Vec::pop`. -/
def pop (store : BlobStore) : Option ((Bytes32 × Blob) × BlobStore) :=
  store.versionedBlobs.getLast?.map fun last => (last, ⟨store.versionedBlobs.dropLast⟩)

/-- `get_blobs`: every hash takes one blob off the stack, and blobs of another hash are
dropped. -/
def getBlobs (store : BlobStore) : List Bytes32 → Except Failure (List Blob × BlobStore)
  | [] => .ok ([], store)
  | hash :: hashes =>
    match store.pop with
    | none => .error .emptyPop
    | some ((blobHash, blob), store) => do
      let (blobs, store) ← store.getBlobs hashes
      return (if hash = blobHash then blob :: blobs else blobs, store)

end BlobStore

/-! ## Recording and replaying -/

/-- A call of the client. -/
inductive Call
  | get (key : PreimageKey)
  | getExact (key : PreimageKey) (len : Nat)
  | getBlobs (blobHashes : List Bytes32)

/-- What a call returns; for `get_exact`, the buffer it filled. -/
inductive Answer
  | value (value : Bytes)
  | blobs (blobs : List Blob)

/-- `DefaultWitnessData`. -/
structure WitnessData where
  preimageStore : PreimageStore
  blobData : BlobData

def WitnessData.empty : WitnessData := ⟨.empty, ⟨[], [], []⟩⟩

/-- A call of `PreimageWitnessCollector` or `OnlineBlobStore`, with what the upstream
oracle or provider answered. -/
def record (witness : WitnessData) : Call × Answer → Except Failure WitnessData
  | (.get key, .value value) => do
    let store ← witness.preimageStore.savePreimage c key value
    return { witness with preimageStore := store }
  | (.getExact key len, .value value) => do
    require (value.length = len) .bufferLength
    let store ← witness.preimageStore.savePreimage c key value
    return { witness with preimageStore := store }
  | (.getBlobs _, .blobs blobs) => do
    let data ← blobs.foldlM (BlobData.push c) witness.blobData
    return { witness with blobData := data }
  | _ => .error .upstream

/-- The witness of the calls a client makes online. -/
def recordAll (witness : WitnessData) (calls : List (Call × Answer)) : Except Failure WitnessData :=
  calls.foldlM (record c) witness

/-- What the client runs with in the zkVM. -/
structure Replayer where
  oracle : PreimageStore
  beacon : BlobStore

/-- A call of `PreimageStore` or `BlobStore`. -/
def Replayer.replay (replayer : Replayer) : Call → Except Failure (Answer × Replayer)
  | .get key => do
    let value ← replayer.oracle.get key
    return (.value value, replayer)
  | .getExact key len => do
    let value ← replayer.oracle.getExact key len
    return (.value value, replayer)
  | .getBlobs blobHashes => do
    let (blobs, beacon) ← replayer.beacon.getBlobs blobHashes
    return (.blobs blobs, { replayer with beacon })

/-- The answers to a sequence of calls. -/
def Replayer.replayAll (replayer : Replayer) : List Call → Except Failure (List Answer × Replayer)
  | [] => .ok ([], replayer)
  | call :: calls => do
    let (answer, replayer) ← replayer.replay call
    let (answers, replayer) ← replayer.replayAll calls
    return (answer :: answers, replayer)

/-- `get_oracle_and_blob_provider`. -/
def WitnessData.getOracleAndBlobProvider (witness : WitnessData) : Except Failure Replayer := do
  witness.preimageStore.checkPreimages c
  let beacon ← BlobStore.ofBlobData c witness.blobData
  return ⟨witness.preimageStore, beacon⟩

variable {c}

/-! ## The preimages that are recorded -/

/-- Every preimage of the first store is in the second. -/
def PreimageStore.Extends (store store' : PreimageStore) : Prop :=
  ∀ key value, store.preimageMap.lookup key = some value →
    store'.preimageMap.lookup key = some value

theorem PreimageStore.Extends.refl (store : PreimageStore) : store.Extends store :=
  fun _ _ h => h

theorem PreimageStore.Extends.trans {store₁ store₂ store₃ : PreimageStore}
    (h : store₁.Extends store₂) (h' : store₂.Extends store₃) : store₁.Extends store₃ :=
  fun key value hlookup => h' key value (h key value hlookup)

/-- All preimages match their keys. -/
def PreimageStore.Matching (c : Crypto) (store : PreimageStore) : Prop :=
  ∀ key value, store.preimageMap.lookup key = some value → checkPreimage c key value = .ok ()

variable {store store' : PreimageStore} {key : PreimageKey} {value : Bytes}

theorem PreimageStore.checkPreimages_ok (h : store.Matching c) :
    store.checkPreimages c = .ok () :=
  forM_ok_iff.mpr fun entry hmem => h entry.1 entry.2 (AList.mem_lookup_iff.mpr hmem)

/-- **What `save_preimage` records**: a matching preimage, and no other one for a key. -/
theorem PreimageStore.savePreimage_ok (h : store.savePreimage c key value = .ok store') :
    checkPreimage c key value = .ok () ∧ store.Extends store' ∧
      store'.preimageMap.lookup key = some value ∧ (store.Matching c → store'.Matching c) := by
  obtain ⟨⟨⟩, hcheck, h⟩ := bind_ok_iff.mp h
  rw [mapError_ok_iff] at hcheck
  have hnew : (∀ old, store.preimageMap.lookup key = some old → old = value) ∧
      ⟨store.preimageMap.insert key value⟩ = store' := by
    dsimp only at h
    cases hlookup : store.preimageMap.lookup key with
    | none =>
      rw [hlookup] at h
      refine ⟨fun old hnone => ?_, pure_ok_iff.mp h⟩
      cases hnone
    | some old =>
      rw [hlookup] at h
      obtain ⟨u, hsame, h⟩ := bind_ok_iff.mp h
      refine ⟨fun old' heq => ?_, pure_ok_iff.mp h⟩
      rw [← Option.some.inj heq]
      exact require_ok_iff.mp hsame
  obtain ⟨hold, rfl⟩ := hnew
  have hlookup (key' : PreimageKey) : (store.preimageMap.insert key value).lookup key' =
      if key' = key then some value else store.preimageMap.lookup key' := by
    by_cases heq : key' = key
    · subst heq
      rw [if_pos rfl, AList.lookup_insert]
    · rw [if_neg heq, AList.lookup_insert_ne heq]
  refine ⟨hcheck, fun key' value' hfound => ?_, ?_, fun hmatching key' value' hfound => ?_⟩
  · rw [hlookup]
    by_cases heq : key' = key
    · subst heq
      rw [if_pos rfl, hold value' hfound]
    · rw [if_neg heq, hfound]
  · rw [hlookup, if_pos rfl]
  · rw [hlookup] at hfound
    by_cases heq : key' = key
    · subst heq
      rw [if_pos rfl] at hfound
      obtain rfl := Option.some.inj hfound
      exact hcheck
    · rw [if_neg heq] at hfound
      exact hmatching key' value' hfound

theorem PreimageStore.get_of_lookup (h : store.preimageMap.lookup key = some value) :
    store.get key = .ok value := by
  rw [PreimageStore.get, h]

theorem PreimageStore.getExact_of_lookup {len : Nat}
    (h : store.preimageMap.lookup key = some value) (hlen : value.length = len) :
    store.getExact key len = .ok value := by
  rw [PreimageStore.getExact, PreimageStore.get_of_lookup h]
  exact bind_ok_iff.mpr ⟨value, rfl, bind_ok_iff.mpr ⟨(), require_ok_iff.mpr hlen, rfl⟩⟩

/-! ## The blobs that are recorded -/

/-- A recorded blob. -/
structure BlobEntry where
  blob : Blob
  commitment : Bytes48
  proof : Bytes48

/-- The commitment and the proof are the blob's own. -/
def BlobEntry.Honest (c : Crypto) (e : BlobEntry) : Prop :=
  c.blobToKzgCommitment e.blob = some e.commitment ∧
    c.computeBlobKzgProof e.blob e.commitment = some e.proof

/-- The three parallel lists. -/
def BlobData.ofEntries (entries : List BlobEntry) : BlobData :=
  ⟨entries.map BlobEntry.blob, entries.map BlobEntry.commitment, entries.map BlobEntry.proof⟩

/-- The stack, with the first entry on top. -/
def BlobStore.ofEntries (c : Crypto) (entries : List BlobEntry) : BlobStore :=
  ⟨(entries.map fun e => (c.kzgToVersionedHash e.commitment, e.blob)).reverse⟩

variable {entries : List BlobEntry} {data : BlobData} {blobs : List Blob}
  {blobHashes : List Bytes32}

/-- The blobs of a call are pushed with what belongs to them. -/
theorem pushAll_ok (h : blobs.foldlM (BlobData.push c) (BlobData.ofEntries entries) = .ok data) :
    ∃ new, data = BlobData.ofEntries (entries ++ new) ∧ new.map BlobEntry.blob = blobs ∧
      ∀ e ∈ new, e.Honest c := by
  induction blobs generalizing entries with
  | nil =>
    obtain rfl := pure_ok_iff.mp h
    exact ⟨[], by rw [List.append_nil], rfl, fun e he => absurd he List.not_mem_nil⟩
  | cons blob blobs ih =>
    obtain ⟨pushed, hpush, h⟩ := bind_ok_iff.mp h
    unfold BlobData.push at hpush
    split at hpush
    · cases hpush
    · rename_i commitment hcommitment
      split at hpush
      · cases hpush
      · rename_i proof hproof
        have hentry : pushed = BlobData.ofEntries (entries ++ [⟨blob, commitment, proof⟩]) := by
          rw [← Except.ok.inj hpush]
          simp only [BlobData.ofEntries, List.map_append, List.map_cons, List.map_nil]
        rw [hentry] at h
        obtain ⟨new, hdata, hblobs, hnew⟩ := ih h
        refine ⟨⟨blob, commitment, proof⟩ :: new, ?_, ?_, fun e he => ?_⟩
        · rw [hdata, List.append_assoc, List.singleton_append]
        · rw [List.map_cons, hblobs]
        · rcases List.mem_cons.mp he with rfl | he
          · exact ⟨hcommitment, hproof⟩
          · exact hnew e he

theorem BlobStore.pop_ofEntries (e : BlobEntry) (rest : List BlobEntry) :
    (BlobStore.ofEntries c (e :: rest)).pop =
      some ((c.kzgToVersionedHash e.commitment, e.blob), BlobStore.ofEntries c rest) := by
  simp [BlobStore.pop, BlobStore.ofEntries]

/-- **The stack gives the blobs of a call back** when their hashes are asked for. -/
theorem BlobStore.getBlobs_ofEntries {new rest : List BlobEntry}
    (h : new.map (fun e => c.kzgToVersionedHash e.commitment) = blobHashes) :
    (BlobStore.ofEntries c (new ++ rest)).getBlobs blobHashes =
      .ok (new.map BlobEntry.blob, BlobStore.ofEntries c rest) := by
  induction new generalizing blobHashes with
  | nil =>
    obtain rfl : [] = blobHashes := h
    rfl
  | cons e new ih =>
    obtain rfl : _ :: _ = blobHashes := h
    rw [BlobStore.getBlobs, List.cons_append, BlobStore.pop_ofEntries]
    dsimp only
    rw [ih rfl]
    show Except.ok _ = _
    rw [if_pos rfl]
    rfl

/-- The witness data makes this stack. -/
theorem BlobStore.ofBlobData_ofEntries
    (hbatch : c.verifyBlobKzgProofBatch (BlobData.ofEntries entries).blobs
      (BlobData.ofEntries entries).commitments (BlobData.ofEntries entries).proofs = some true) :
    BlobStore.ofBlobData c (BlobData.ofEntries entries) = .ok (BlobStore.ofEntries c entries) := by
  rw [BlobStore.ofBlobData, hbatch]
  simp only [BlobData.ofEntries, BlobStore.ofEntries, List.map_map]
  rw [List.zip_map']
  rfl

/-! ## Runs of the client -/

/-- **The upstream provider delivers**: exactly one blob for each hash, in order, with
this versioned hash. -/
def Delivers (c : Crypto) : Call × Answer → Prop
  | (.getBlobs blobHashes, .blobs blobs) =>
    List.Forall₂ (fun blob hash => ∃ commitment, c.blobToKzgCommitment blob = some commitment ∧
      c.kzgToVersionedHash commitment = hash) blobs blobHashes
  | _ => True

/-- The batch check accepts blobs with their own commitments and proofs. -/
def Crypto.Complete (c : Crypto) : Prop :=
  ∀ entries : List BlobEntry, (∀ e ∈ entries, e.Honest c) →
    c.verifyBlobKzgProofBatch (entries.map BlobEntry.blob) (entries.map BlobEntry.commitment)
      (entries.map BlobEntry.proof) = some true

/-- Blobs that were delivered are recorded under the hashes they were requested by. -/
theorem hashes_of_delivers {new : List BlobEntry} (hnew : ∀ e ∈ new, e.Honest c)
    (h : Delivers c (.getBlobs blobHashes, .blobs (new.map BlobEntry.blob))) :
    new.map (fun e => c.kzgToVersionedHash e.commitment) = blobHashes := by
  replace h : List.Forall₂ _ (new.map BlobEntry.blob) blobHashes := h
  induction new generalizing blobHashes with
  | nil =>
    cases h
    rfl
  | cons e new ih =>
    rw [List.map_cons] at h
    cases h with
    | cons hfirst hrest =>
      obtain ⟨commitment, hcommitment, rfl⟩ := hfirst
      have hsame : e.commitment = commitment :=
        Option.some.inj ((hnew e List.mem_cons_self).1.symm.trans hcommitment)
      rw [List.map_cons, hsame, ih (fun e he => hnew e (List.mem_cons_of_mem _ he)) hrest]

/-- What is known of a recorded call: the store grew, the blobs of the call were added,
and on every store with its preimages and every stack with its blobs on top it is
replayed. -/
structure Recorded (c : Crypto) (witness witness' : WitnessData) (entries new : List BlobEntry)
    (calls : List (Call × Answer)) : Prop where
  blobData : witness'.blobData = BlobData.ofEntries (entries ++ new)
  honest : ∀ e ∈ new, e.Honest c
  extend : witness.preimageStore.Extends witness'.preimageStore
  matching : witness.preimageStore.Matching c → witness'.preimageStore.Matching c
  replayed : ∀ store rest, witness'.preimageStore.Extends store →
    Replayer.replayAll ⟨store, BlobStore.ofEntries c (new ++ rest)⟩ (calls.map Prod.fst) =
      .ok (calls.map Prod.snd, ⟨store, BlobStore.ofEntries c rest⟩)

variable {witness witness' : WitnessData} {call : Call × Answer} {calls : List (Call × Answer)}

/-- A single call is replayed. -/
theorem replayAll_single {replayer replayer' : Replayer} {answer : Answer} {call : Call}
    (h : replayer.replay call = .ok (answer, replayer')) :
    replayer.replayAll [call] = .ok ([answer], replayer') := by
  rw [Replayer.replayAll, h]
  rfl

/-- A recorded preimage. -/
theorem recorded_preimage (hdata : witness.blobData = BlobData.ofEntries entries)
    (hsave : witness.preimageStore.savePreimage c key value = .ok store)
    (hreplay : ∀ replayer : Replayer, replayer.oracle.preimageMap.lookup key = some value →
      replayer.replay call.1 = .ok (call.2, replayer)) :
    Recorded c witness { witness with preimageStore := store } entries [] [call] := by
  obtain ⟨-, hextend, hlookup, hmatching⟩ := PreimageStore.savePreimage_ok hsave
  refine ⟨?_, fun e he => absurd he List.not_mem_nil, hextend, hmatching,
    fun store' rest hstore => ?_⟩
  · rw [List.append_nil]
    exact hdata
  · exact replayAll_single (hreplay ⟨store', _⟩ (hstore key value hlookup))

/-- **One call**, recorded and replayed. -/
theorem record_ok (hdata : witness.blobData = BlobData.ofEntries entries)
    (hdelivers : Delivers c call) (h : record c witness call = .ok witness') :
    ∃ new, Recorded c witness witness' entries new [call] := by
  unfold record at h
  split at h
  · rename_i key value
    obtain ⟨store, hsave, h⟩ := bind_ok_iff.mp h
    obtain rfl := pure_ok_iff.mp h
    refine ⟨[], recorded_preimage hdata hsave fun replayer hlookup => ?_⟩
    rw [Replayer.replay, PreimageStore.get_of_lookup hlookup]
    rfl
  · rename_i key len value
    obtain ⟨_, hlen, h⟩ := bind_ok_iff.mp h
    obtain ⟨store, hsave, h⟩ := bind_ok_iff.mp h
    obtain rfl := pure_ok_iff.mp h
    refine ⟨[], recorded_preimage hdata hsave fun replayer hlookup => ?_⟩
    rw [Replayer.replay, PreimageStore.getExact_of_lookup hlookup (require_ok_iff.mp hlen)]
    rfl
  · rename_i blobHashes blobs
    obtain ⟨data, hpush, h⟩ := bind_ok_iff.mp h
    obtain rfl := pure_ok_iff.mp h
    rw [hdata] at hpush
    obtain ⟨new, hdata', rfl, hhonest⟩ := pushAll_ok hpush
    refine ⟨new, hdata', hhonest, .refl _, fun h => h, fun store rest _ => replayAll_single ?_⟩
    rw [Replayer.replay, BlobStore.getBlobs_ofEntries (hashes_of_delivers hhonest hdelivers)]
    rfl
  · cases h

theorem Recorded.nil (hdata : witness.blobData = BlobData.ofEntries entries) :
    Recorded c witness witness entries [] [] :=
  ⟨by rw [List.append_nil, hdata], fun _ he => absurd he List.not_mem_nil, .refl _, fun h => h,
    fun _ _ _ => rfl⟩

/-- Calls one after the other: the later blobs lie below the earlier ones. -/
theorem Recorded.append {witness'' : WitnessData} {new new' : List BlobEntry}
    (h : Recorded c witness witness' entries new [call])
    (h' : Recorded c witness' witness'' (entries ++ new) new' calls) :
    Recorded c witness witness'' entries (new ++ new') (call :: calls) := by
  refine ⟨?_, fun e he => ?_, h.extend.trans h'.extend, fun hm => h'.matching (h.matching hm),
    fun store rest hstore => ?_⟩
  · rw [h'.blobData, List.append_assoc]
  · rcases List.mem_append.mp he with he | he
    · exact h.honest e he
    · exact h'.honest e he
  · have hfirst := h.replayed store (new' ++ rest) (h'.extend.trans hstore)
    have hrest := h'.replayed store rest hstore
    rw [List.map_cons, List.map_cons, List.map_nil, List.map_nil, Replayer.replayAll] at hfirst
    obtain ⟨⟨answer, replayer⟩, hcall, hnil⟩ := bind_ok_iff.mp hfirst
    obtain ⟨hanswer, hreplayer⟩ := Prod.mk.inj (Except.ok.inj hnil)
    rw [List.append_assoc, List.map_cons, List.map_cons, Replayer.replayAll, hcall]
    obtain rfl : answer = call.2 := (List.cons.inj hanswer).1
    obtain rfl : replayer = _ := hreplayer
    show (Replayer.replayAll _ _ >>= fun _ => _) = _
    rw [hrest]
    rfl

/-- **A run of calls**, recorded and replayed. -/
theorem recordAll_ok (hdata : witness.blobData = BlobData.ofEntries entries)
    (hdelivers : ∀ call ∈ calls, Delivers c call)
    (h : recordAll c witness calls = .ok witness') :
    ∃ new, Recorded c witness witness' entries new calls := by
  induction calls generalizing witness entries with
  | nil =>
    obtain rfl := pure_ok_iff.mp h
    exact ⟨[], .nil hdata⟩
  | cons call calls ih =>
    obtain ⟨next, hcall, h⟩ := bind_ok_iff.mp h
    obtain ⟨new, hnew⟩ := record_ok hdata (hdelivers call List.mem_cons_self) hcall
    obtain ⟨new', hnew'⟩ :=
      ih hnew.blobData (fun call hmem => hdelivers call (List.mem_cons_of_mem _ hmem)) h
    exact ⟨new ++ new', hnew.append hnew'⟩

/-- **A witness that agrees with the calls it was recorded by**: its checks accept it, and
the same calls return the same values, and use up its blobs. -/
structure Agrees (c : Crypto) (witness : WitnessData) (calls : List (Call × Answer)) : Prop where
  batch : c.verifyBlobKzgProofBatch witness.blobData.blobs witness.blobData.commitments
    witness.blobData.proofs = some true
  replayed : ∃ replayer, witness.getOracleAndBlobProvider c = .ok replayer ∧
    replayer.replayAll (calls.map Prod.fst) = .ok (calls.map Prod.snd, ⟨replayer.oracle, ⟨[]⟩⟩)

/-- **Witness record and replay agree**: for all calls a client made online without an
error. -/
theorem witness_replays (hkzg : c.Complete) (hdelivers : ∀ call ∈ calls, Delivers c call)
    (h : recordAll c .empty calls = .ok witness) : Agrees c witness calls := by
  have hdata : WitnessData.empty.blobData = BlobData.ofEntries [] := rfl
  obtain ⟨entries, hrecorded⟩ := recordAll_ok hdata hdelivers h
  have hdata : witness.blobData = BlobData.ofEntries entries := hrecorded.blobData
  have hbatch := hkzg entries hrecorded.honest
  refine ⟨hdata ▸ hbatch, ⟨witness.preimageStore, BlobStore.ofEntries c entries⟩, ?_, ?_⟩
  · have hmatching : witness.preimageStore.Matching c :=
      hrecorded.matching fun key value hlookup => by cases hlookup
    rw [WitnessData.getOracleAndBlobProvider, PreimageStore.checkPreimages_ok hmatching, hdata,
      BlobStore.ofBlobData_ofEntries hbatch]
    rfl
  · have hreplayed := hrecorded.replayed witness.preimageStore [] (.refl _)
    rw [List.append_nil] at hreplayed
    exact hreplayed

/-! ### A blob asked for twice

The client reads a preimage into a buffer and as a whole, and asks for no blob, for two
blobs, and for one of them again. -/

/-- The blob with the byte everywhere. -/
def exampleBlob (byte : UInt8) : Blob := Vector.replicate 131072 byte

/-- Hashes of one byte, and commitments that show the first byte of the blob. -/
def exampleCrypto : Crypto where
  keccak256 value := value.length
  sha256 value := value.length
  blobToKzgCommitment blob := some (Vector.replicate 48 blob[0])
  computeBlobKzgProof blob _ := some (Vector.replicate 48 blob[1])
  kzgToVersionedHash commitment := commitment[0].toNat
  verifyBlobKzgProofBatch blobs commitments _ :=
    some (commitments == blobs.map fun blob => Vector.replicate 48 blob[0])

def exampleCalls : List (Call × Answer) :=
  [(.getExact (PreimageKey.new 3 .keccak256) 3, .value [1, 2, 3]),
    (.getBlobs [], .blobs []),
    (.getBlobs [7, 8], .blobs [exampleBlob 7, exampleBlob 8]),
    (.get (PreimageKey.new 3 .keccak256), .value [1, 2, 3]),
    (.getBlobs [7], .blobs [exampleBlob 7])]

theorem exampleCrypto_complete : exampleCrypto.Complete := by
  intro entries hhonest
  have hcommitments : entries.map BlobEntry.commitment =
      (entries.map BlobEntry.blob).map fun blob => Vector.replicate 48 blob[0] := by
    rw [List.map_map]
    refine List.map_congr_left fun e he => ?_
    exact (Option.some.inj (hhonest e he).1).symm
  show some (entries.map BlobEntry.commitment == _) = some true
  rw [hcommitments, beq_self_eq_true]

theorem exampleBlob_delivered (byte : UInt8) :
    ∃ commitment, exampleCrypto.blobToKzgCommitment (exampleBlob byte) = some commitment ∧
      exampleCrypto.kzgToVersionedHash commitment = BitVec.ofNat 256 byte.toNat := by
  refine ⟨_, rfl, ?_⟩
  simp [exampleCrypto, exampleBlob]

theorem exampleCalls_delivered : ∀ call ∈ exampleCalls, Delivers exampleCrypto call := by
  have hseven := exampleBlob_delivered 7
  have height := exampleBlob_delivered 8
  intro call hmem
  simp only [exampleCalls, List.mem_cons, List.not_mem_nil, or_false] at hmem
  rcases hmem with rfl | rfl | rfl | rfl | rfl
  · trivial
  · exact .nil
  · exact .cons hseven (.cons height .nil)
  · trivial
  · exact .cons hseven .nil

theorem witness_replays_example :
    ∃ witness, recordAll exampleCrypto .empty exampleCalls = .ok witness ∧
      Agrees exampleCrypto witness exampleCalls := by
  have hrecord : ∃ witness, recordAll exampleCrypto .empty exampleCalls = .ok witness :=
    exists_ok_of_isSome (by rfl)
  obtain ⟨witness, hrecord⟩ := hrecord
  exact ⟨witness, hrecord, witness_replays exampleCrypto_complete exampleCalls_delivered hrecord⟩

end OpSuccinct.Witness
