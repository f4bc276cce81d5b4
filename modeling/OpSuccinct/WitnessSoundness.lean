import OpSuccinct.WitnessReplay

/-! # What a host can do with a witness

`WitnessReplay` is about a host that records what it was answered.  Here the host is free: it
hands the zkVM any witness data, and the client runs on what `get_oracle_and_blob_provider`
makes of it.  `check_preimages` ties every preimage to its key, but for the local inputs, and
the batch check ties every blob to its commitment, where it answers yes.

So two accepted witnesses with the same local inputs lead a client to the same result, whatever
it computes and asks for next, unless a call goes unanswered or the two contain a collision
(`accepted_witnesses_agree`).  That the batch check answers yes is not checked: where it answers
no, `BlobStore::from` serves the host's blobs all the same (`unverified_blob_served`).
-/
namespace OpSuccinct.Witness

/-! ## Clients -/

/-- **A client**, by what it asks for next, depending on all answers so far.  It sees that a
preimage is missing (`none`). -/
inductive Program (R : Type)
  | done (result : R)
  | ask (call : Call) (next : Option Answer → Program R)

/-- The client in the zkVM, unless it panics. -/
def Program.run {R : Type} : Program R → Replayer → Option R
  | .done result, _ => some result
  | .ask call next, replayer =>
    match replayer.replay call with
    | .ok (answer, replayer) => (next (some answer)).run replayer
    | .error .invalidPreimageKey => (next none).run replayer
    | .error _ => none

/-- The answer to a call, in full: blobs for all hashes that were asked for. -/
def InFull : Call → Answer → Prop
  | .getBlobs blobHashes, .blobs blobs => blobs.length = blobHashes.length
  | _, _ => True

/-- Every call of a run is answered in full. -/
def Program.Answered {R : Type} : Program R → Replayer → Prop
  | .done _, _ => True
  | .ask call next, replayer => ∃ answer replayer', replayer.replay call = .ok (answer, replayer') ∧
      InFull call answer ∧ (next (some answer)).Answered replayer'

/-! ## Accepted witnesses -/

/-- A key whose preimage is the host's to choose: only its first byte tells what it is. -/
def PreimageKey.IsInput (key : PreimageKey) : Prop :=
  key.keyType = .localKey ∨ key.keyType = .globalGeneric

/-- Two witnesses with the same inputs. -/
def SameInputs (witness witness' : WitnessData) : Prop :=
  ∀ key : PreimageKey, key.IsInput →
    witness.preimageStore.preimageMap.lookup key = witness'.preimageStore.preimageMap.lookup key

/-- The batch check answers yes. -/
def WitnessData.BlobsVerified (c : Crypto) (witness : WitnessData) : Prop :=
  c.verifyBlobKzgProofBatch witness.blobData.blobs witness.blobData.commitments
    witness.blobData.proofs = some true

/-- **KZG is sound**: blobs that the batch check accepts have the commitments they are given. -/
def Crypto.BatchSound (c : Crypto) : Prop :=
  ∀ blobs commitments proofs, c.verifyBlobKzgProofBatch blobs commitments proofs = some true →
    ∀ entry ∈ commitments.zip blobs, c.blobToKzgCommitment entry.2 = some entry.1

/-- Two different preimages of one key, which keeps 31 bytes of a hash. -/
def PreimageCollision (c : Crypto) (witness witness' : WitnessData) : Prop :=
  ∃ key key' : PreimageKey, ∃ value value',
    witness.preimageStore.preimageMap.lookup key = some value ∧
    witness'.preimageStore.preimageMap.lookup key' = some value' ∧ value ≠ value' ∧
    (PreimageKey.new (c.keccak256 value) .keccak256 =
        PreimageKey.new (c.keccak256 value') .keccak256 ∨
      PreimageKey.new (c.sha256 value) .sha256 = PreimageKey.new (c.sha256 value') .sha256)

/-- Two blobs of one versioned hash. -/
def BlobCollision (c : Crypto) (witness witness' : WitnessData) : Prop :=
  ∃ blob ∈ witness.blobData.blobs, ∃ blob' ∈ witness'.blobData.blobs, blob ≠ blob' ∧
    (c.blobToKzgCommitment blob).map c.kzgToVersionedHash =
      (c.blobToKzgCommitment blob').map c.kzgToVersionedHash

variable {c : Crypto} {witness witness' : WitnessData} {replayer replayer' : Replayer}

/-- The preimages of an accepted witness match their keys. -/
theorem matching_of_accepted (h : witness.getOracleAndBlobProvider c = .ok replayer) :
    replayer.oracle = witness.preimageStore ∧ witness.preimageStore.Matching c := by
  obtain ⟨u, hcheck, h⟩ := bind_ok_iff.mp h
  obtain ⟨beacon, -, h⟩ := bind_ok_iff.mp h
  obtain rfl := pure_ok_iff.mp h
  refine ⟨rfl, fun key value hlookup => ?_⟩
  exact forM_ok_iff.mp hcheck ⟨key, value⟩ (AList.mem_lookup_iff.mp hlookup)

/-- The blobs of an accepted witness that was verified lie under their own versioned hashes. -/
theorem versioned_of_accepted (hsound : c.BatchSound)
    (h : witness.getOracleAndBlobProvider c = .ok replayer) (hverified : witness.BlobsVerified c) :
    ∀ entry ∈ replayer.beacon.versionedBlobs, entry.2 ∈ witness.blobData.blobs ∧
      (c.blobToKzgCommitment entry.2).map c.kzgToVersionedHash = some entry.1 := by
  obtain ⟨u, -, h⟩ := bind_ok_iff.mp h
  obtain ⟨beacon, hbeacon, h⟩ := bind_ok_iff.mp h
  obtain rfl := pure_ok_iff.mp h
  rw [BlobStore.ofBlobData, hverified] at hbeacon
  obtain rfl := Except.ok.inj hbeacon
  intro entry hentry
  rw [List.mem_reverse, List.zip_map_left] at hentry
  obtain ⟨⟨commitment, blob⟩, hmem, rfl⟩ := List.mem_map.mp hentry
  refine ⟨(List.of_mem_zip hmem).2, ?_⟩
  exact congrArg (Option.map c.kzgToVersionedHash) (hsound _ _ _ hverified _ hmem)

/-- **A replayer of accepted witness data**: all it can answer with is in the witness, under its
own hash or an input. -/
structure Backed (c : Crypto) (witness : WitnessData) (replayer : Replayer) : Prop where
  oracle : replayer.oracle = witness.preimageStore
  matching : witness.preimageStore.Matching c
  versioned : ∀ entry ∈ replayer.beacon.versionedBlobs, entry.2 ∈ witness.blobData.blobs ∧
    (c.blobToKzgCommitment entry.2).map c.kzgToVersionedHash = some entry.1

/-! ## One call -/

/-- The blobs an answer of `get_blobs` is made of; by induction on the hashes. -/
theorem BlobStore.getBlobs_ok {store store' : BlobStore} {blobHashes : List Bytes32}
    {blobs : List Blob} (h : store.getBlobs blobHashes = .ok (blobs, store')) :
    store'.versionedBlobs ⊆ store.versionedBlobs ∧ blobs.length ≤ blobHashes.length ∧
      (blobs.length = blobHashes.length → ∀ entry ∈ blobHashes.zip blobs,
        entry ∈ store.versionedBlobs) := by
  induction blobHashes generalizing store blobs with
  | nil =>
    obtain ⟨rfl, rfl⟩ := Prod.mk.inj (Except.ok.inj h)
    simp
  | cons hash blobHashes ih =>
    unfold getBlobs pop at h
    cases hlast : store.versionedBlobs.getLast? with
    | none => simp [hlast] at h
    | some last =>
      obtain ⟨init, hinit⟩ := List.getLast?_eq_some_iff.mp hlast
      simp only [hlast, Option.map_some] at h
      obtain ⟨⟨rest, after⟩, hrest, h⟩ := bind_ok_iff.mp h
      obtain ⟨rfl, rfl⟩ := Prod.mk.inj (pure_ok_iff.mp h)
      obtain ⟨hsub, hlen, hmem⟩ := ih hrest
      rw [hinit, List.dropLast_concat] at hsub hmem
      refine ⟨fun entry he => ?_, ?_, fun hfull entry he => ?_⟩
      · rw [hinit]
        exact List.mem_append_left _ (hsub he)
      · by_cases hhash : hash = last.1
        · simp [hhash, hlen]
        · simp only [if_neg hhash, List.length_cons]
          omega
      · by_cases hhash : hash = last.1
        · rw [if_pos hhash, List.zip_cons_cons] at he
          rw [hinit]
          rcases List.mem_cons.mp he with rfl | he
          · rw [hhash]
            exact List.mem_append_right _ (List.mem_singleton_self _)
          · rw [if_pos hhash] at hfull
            exact List.mem_append_left _ (hmem (by simpa using hfull) entry he)
        · -- a blob of another hash was dropped, so the answer is short
          simp only [if_neg hhash, List.length_cons] at hfull
          omega

theorem Backed.replay {answer : Answer} {call : Call} (h : Backed c witness replayer)
    (hreplay : replayer.replay call = .ok (answer, replayer')) : Backed c witness replayer' := by
  cases call with
  | get key | getExact key len =>
    obtain ⟨value, -, heq⟩ := bind_ok_iff.mp hreplay
    obtain ⟨-, rfl⟩ := Prod.mk.inj (pure_ok_iff.mp heq)
    exact h
  | getBlobs blobHashes =>
    obtain ⟨⟨blobs, beacon⟩, hblobs, heq⟩ := bind_ok_iff.mp hreplay
    obtain ⟨-, rfl⟩ := Prod.mk.inj (pure_ok_iff.mp heq)
    exact ⟨h.oracle, h.matching, fun entry he =>
      h.versioned entry ((BlobStore.getBlobs_ok hblobs).1 he)⟩

theorem lookup_of_get {store : PreimageStore} {key : PreimageKey} {value : Bytes}
    (h : store.get key = .ok value) : store.preimageMap.lookup key = some value := by
  unfold PreimageStore.get at h
  cases hlookup : store.preimageMap.lookup key with
  | none => simp [hlookup] at h
  | some found =>
    rw [hlookup] at h
    exact congrArg some (Except.ok.inj h)

/-- **One preimage** is the same in both, or they contain a collision. -/
theorem preimage_agrees (hmatching : witness.preimageStore.Matching c)
    (hmatching' : witness'.preimageStore.Matching c) (hinputs : SameInputs witness witness')
    (hfree : ¬ PreimageCollision c witness witness') {key : PreimageKey} {value value' : Bytes}
    (hlookup : witness.preimageStore.preimageMap.lookup key = some value)
    (hlookup' : witness'.preimageStore.preimageMap.lookup key = some value') : value = value' := by
  have hcheck := hmatching key value hlookup
  have hcheck' := hmatching' key value' hlookup'
  unfold checkPreimage at hcheck hcheck'
  cases htype : key.keyType with
  | localKey =>
    rw [hinputs key (.inl htype), hlookup'] at hlookup
    exact (Option.some.inj hlookup).symm
  | globalGeneric =>
    rw [hinputs key (.inr htype), hlookup'] at hlookup
    exact (Option.some.inj hlookup).symm
  | keccak256 =>
    simp only [htype, require_ok_iff] at hcheck hcheck'
    by_contra hne
    exact hfree ⟨key, key, value, value', hlookup, hlookup', hne, .inl (hcheck.symm.trans hcheck')⟩
  | sha256 =>
    simp only [htype, require_ok_iff] at hcheck hcheck'
    by_contra hne
    exact hfree ⟨key, key, value, value', hlookup, hlookup', hne, .inr (hcheck.symm.trans hcheck')⟩
  | blob => simp [htype] at hcheck
  | precompile => simp [htype] at hcheck

/-- **The blobs of one call** are the same in both, or they contain a collision; by induction on
the hashes. -/
theorem blobs_agree {stack stack' : List (Bytes32 × Blob)}
    (hstack : ∀ entry ∈ stack, entry.2 ∈ witness.blobData.blobs ∧
      (c.blobToKzgCommitment entry.2).map c.kzgToVersionedHash = some entry.1)
    (hstack' : ∀ entry ∈ stack', entry.2 ∈ witness'.blobData.blobs ∧
      (c.blobToKzgCommitment entry.2).map c.kzgToVersionedHash = some entry.1)
    (hfree : ¬ BlobCollision c witness witness') {blobHashes : List Bytes32}
    {blobs blobs' : List Blob} (hlen : blobs.length = blobHashes.length)
    (hlen' : blobs'.length = blobHashes.length)
    (hmem : ∀ entry ∈ blobHashes.zip blobs, entry ∈ stack)
    (hmem' : ∀ entry ∈ blobHashes.zip blobs', entry ∈ stack') : blobs = blobs' := by
  induction blobHashes generalizing blobs blobs' with
  | nil => rw [List.length_eq_zero_iff.mp hlen, List.length_eq_zero_iff.mp hlen']
  | cons hash blobHashes ih =>
    obtain ⟨blob, blobs, rfl⟩ := List.exists_cons_of_length_eq_add_one hlen
    obtain ⟨blob', blobs', rfl⟩ := List.exists_cons_of_length_eq_add_one hlen'
    rw [List.zip_cons_cons] at hmem hmem'
    obtain ⟨hblob, hown⟩ := hstack _ (hmem (hash, blob) List.mem_cons_self)
    obtain ⟨hblob', hown'⟩ := hstack' _ (hmem' (hash, blob') List.mem_cons_self)
    have hsame : blob = blob' := by
      by_contra hne
      exact hfree ⟨blob, hblob, blob', hblob', hne, hown.trans hown'.symm⟩
    rw [hsame, ih (by simpa using hlen) (by simpa using hlen')
      (fun entry he => hmem entry (List.mem_cons_of_mem _ he))
      (fun entry he => hmem' entry (List.mem_cons_of_mem _ he))]

/-- **One call** has the same answer in both. -/
theorem answers_agree (h : Backed c witness replayer) (h' : Backed c witness' replayer')
    (hinputs : SameInputs witness witness') (hpreimages : ¬ PreimageCollision c witness witness')
    (hblobs : ¬ BlobCollision c witness witness') {call : Call} {answer answer' : Answer}
    {after after' : Replayer} (hreplay : replayer.replay call = .ok (answer, after))
    (hreplay' : replayer'.replay call = .ok (answer', after')) (hfull : InFull call answer)
    (hfull' : InFull call answer') : answer = answer' := by
  cases call with
  | get key =>
    obtain ⟨value, hvalue, heq⟩ := bind_ok_iff.mp hreplay
    obtain ⟨value', hvalue', heq'⟩ := bind_ok_iff.mp hreplay'
    obtain ⟨rfl, -⟩ := Prod.mk.inj (pure_ok_iff.mp heq)
    obtain ⟨rfl, -⟩ := Prod.mk.inj (pure_ok_iff.mp heq')
    rw [h.oracle] at hvalue
    rw [h'.oracle] at hvalue'
    exact congrArg Answer.value (preimage_agrees h.matching h'.matching hinputs hpreimages
      (lookup_of_get hvalue) (lookup_of_get hvalue'))
  | getExact key len =>
    obtain ⟨value, hvalue, heq⟩ := bind_ok_iff.mp hreplay
    obtain ⟨value', hvalue', heq'⟩ := bind_ok_iff.mp hreplay'
    obtain ⟨rfl, -⟩ := Prod.mk.inj (pure_ok_iff.mp heq)
    obtain ⟨rfl, -⟩ := Prod.mk.inj (pure_ok_iff.mp heq')
    obtain ⟨found, hfound, hexact⟩ := bind_ok_iff.mp hvalue
    obtain ⟨found', hfound', hexact'⟩ := bind_ok_iff.mp hvalue'
    obtain ⟨_, -, hsame⟩ := bind_ok_iff.mp hexact
    obtain ⟨_, -, hsame'⟩ := bind_ok_iff.mp hexact'
    rw [h.oracle] at hfound
    rw [h'.oracle] at hfound'
    rw [← pure_ok_iff.mp hsame, ← pure_ok_iff.mp hsame']
    exact congrArg Answer.value (preimage_agrees h.matching h'.matching hinputs hpreimages
      (lookup_of_get hfound) (lookup_of_get hfound'))
  | getBlobs blobHashes =>
    obtain ⟨⟨blobs, beacon⟩, hget, heq⟩ := bind_ok_iff.mp hreplay
    obtain ⟨⟨blobs', beacon'⟩, hget', heq'⟩ := bind_ok_iff.mp hreplay'
    obtain ⟨rfl, -⟩ := Prod.mk.inj (pure_ok_iff.mp heq)
    obtain ⟨rfl, -⟩ := Prod.mk.inj (pure_ok_iff.mp heq')
    obtain ⟨-, -, hmem⟩ := BlobStore.getBlobs_ok hget
    obtain ⟨-, -, hmem'⟩ := BlobStore.getBlobs_ok hget'
    exact congrArg Answer.blobs (blobs_agree h.versioned h'.versioned hblobs hfull hfull'
      (hmem hfull) (hmem' hfull'))

/-- **A run** has the same result in both; by induction on the client. -/
theorem Program.run_agrees {R : Type} (program : Program R) (h : Backed c witness replayer)
    (h' : Backed c witness' replayer') (hinputs : SameInputs witness witness')
    (hpreimages : ¬ PreimageCollision c witness witness')
    (hblobs : ¬ BlobCollision c witness witness') (hanswered : program.Answered replayer)
    (hanswered' : program.Answered replayer') :
    ∃ result, program.run replayer = some result ∧ program.run replayer' = some result := by
  induction program generalizing replayer replayer' with
  | done result => exact ⟨result, rfl, rfl⟩
  | ask call next ih =>
    obtain ⟨answer, after, hreplay, hfull, hnext⟩ := hanswered
    obtain ⟨answer', after', hreplay', hfull', hnext'⟩ := hanswered'
    obtain rfl := answers_agree h h' hinputs hpreimages hblobs hreplay hreplay' hfull hfull'
    simp only [Program.run, hreplay, hreplay']
    exact ih (some answer) (h.replay hreplay) (h'.replay hreplay') hnext hnext'

theorem backed_of_accepted (hsound : c.BatchSound)
    (h : witness.getOracleAndBlobProvider c = .ok replayer) (hverified : witness.BlobsVerified c) :
    Backed c witness replayer :=
  ⟨(matching_of_accepted h).1, (matching_of_accepted h).2, versioned_of_accepted hsound h hverified⟩

/-- **A host has no choice but the inputs.**  For any two witnesses that the checks accept, with
the same local inputs and blobs the batch check answers yes to, and for every client, however it
goes on from the answers it gets: if all its calls are answered in full in both, then its result
is the same, or the two witnesses contain two preimages of one key, or two blobs of one
versioned hash. -/
theorem accepted_witnesses_agree {R : Type} (program : Program R) (hsound : c.BatchSound)
    (haccepted : witness.getOracleAndBlobProvider c = .ok replayer)
    (haccepted' : witness'.getOracleAndBlobProvider c = .ok replayer')
    (hverified : witness.BlobsVerified c) (hverified' : witness'.BlobsVerified c)
    (hinputs : SameInputs witness witness') (hanswered : program.Answered replayer)
    (hanswered' : program.Answered replayer') :
    (∃ result, program.run replayer = some result ∧ program.run replayer' = some result) ∨
      PreimageCollision c witness witness' ∨ BlobCollision c witness witness' := by
  by_cases hpreimages : PreimageCollision c witness witness'
  · exact .inr (.inl hpreimages)
  by_cases hblobs : BlobCollision c witness witness'
  · exact .inr (.inr hblobs)
  have h := backed_of_accepted hsound haccepted hverified
  have h' := backed_of_accepted hsound haccepted' hverified'
  exact .inl (program.run_agrees h h' hinputs hpreimages hblobs hanswered hanswered')

/-! ### A padded witness

The client asks for a preimage of 3 bytes and for the blob of hash 7.  The second witness has a
preimage and a blob more, which nobody asks for. -/

def exampleClient : Program Bytes :=
  .ask (.get (PreimageKey.new 3 .keccak256)) fun
    | some (.value value) => .ask (.getBlobs [7]) fun _ => .done value
    | _ => .done []

def exampleHosted (preimages : List (PreimageKey × Bytes)) (bytes : List UInt8) : WitnessData where
  preimageStore := ⟨preimages.foldr (fun entry map => map.insert entry.1 entry.2) ∅⟩
  blobData :=
    ⟨bytes.map exampleBlob, bytes.map (Vector.replicate 48), bytes.map (Vector.replicate 48)⟩

def exampleReplayer (preimages : List (PreimageKey × Bytes)) (bytes : List UInt8) : Replayer where
  oracle := (exampleHosted preimages bytes).preimageStore
  beacon := ⟨(bytes.map fun byte => (BitVec.ofNat 256 byte.toNat, exampleBlob byte)).reverse⟩

def exampleSlim : List (PreimageKey × Bytes) := [(PreimageKey.new 3 .keccak256, [1, 2, 3])]

def examplePadded : List (PreimageKey × Bytes) :=
  [(PreimageKey.new 3 .keccak256, [1, 2, 3]), (PreimageKey.new 2 .sha256, [5, 6])]

theorem exampleCrypto_batchSound : exampleCrypto.BatchSound := by
  intro blobs commitments proofs hverify entry hentry
  have hcommitments : commitments = blobs.map fun blob => Vector.replicate 48 blob[0] :=
    eq_of_beq (Option.some.inj hverify)
  rw [hcommitments] at hentry
  obtain ⟨blob, -, rfl⟩ : ∃ blob ∈ blobs, (Vector.replicate 48 blob[0], blob) = entry := by
    rw [← List.mem_map, ← List.zip_map', List.map_id']
    exact hentry
  rfl

theorem exampleHosted_verified (preimages : List (PreimageKey × Bytes)) (bytes : List UInt8) :
    (exampleHosted preimages bytes).BlobsVerified exampleCrypto := by
  simp [WitnessData.BlobsVerified, exampleHosted, exampleCrypto, exampleBlob]

theorem exampleHosted_accepted {preimages : List (PreimageKey × Bytes)}
    (h : (exampleHosted preimages []).preimageStore.checkPreimages exampleCrypto = .ok ())
    (bytes : List UInt8) : (exampleHosted preimages bytes).getOracleAndBlobProvider exampleCrypto =
      .ok (exampleReplayer preimages bytes) := by
  refine bind_ok_iff.mpr ⟨(), h, bind_ok_iff.mpr ⟨_, ?_, rfl⟩⟩
  rw [BlobStore.ofBlobData, exampleHosted_verified preimages bytes]
  simp [exampleHosted, exampleCrypto, List.zip_map']

theorem accepted_witnesses_agree_example :
    (∃ result, exampleClient.run (exampleReplayer exampleSlim [7]) = some result ∧
      exampleClient.run (exampleReplayer examplePadded [7, 8]) = some result) ∨
    PreimageCollision exampleCrypto (exampleHosted exampleSlim [7])
      (exampleHosted examplePadded [7, 8]) ∨
    BlobCollision exampleCrypto (exampleHosted exampleSlim [7])
      (exampleHosted examplePadded [7, 8]) := by
  refine accepted_witnesses_agree exampleClient exampleCrypto_batchSound
    (exampleHosted_accepted rfl [7]) (exampleHosted_accepted rfl [7, 8])
    (exampleHosted_verified _ _) (exampleHosted_verified _ _) ?_ ?_ ?_
  · intro key hkey
    have hkeccak : key ≠ PreimageKey.new 3 .keccak256 := by
      rintro rfl
      rcases hkey with h | h <;> cases h
    have hsha : key ≠ PreimageKey.new 2 .sha256 := by
      rintro rfl
      rcases hkey with h | h <;> cases h
    simp only [exampleHosted, exampleSlim, examplePadded, List.foldr_cons, List.foldr_nil,
      AList.lookup_insert_ne hkeccak, AList.lookup_insert_ne hsha]
  · exact ⟨_, _, rfl, trivial, _, _, rfl, rfl, trivial⟩
  · exact ⟨_, _, rfl, trivial, _, _, rfl, rfl, trivial⟩

/-! ## Blobs that are not verified -/

/-- **An answer of no is accepted**: the client is then served any blob for any versioned hash
of a commitment, whatever the commitment of the blob is. -/
theorem unverified_blob_served (store : PreimageStore) (hstore : store.Matching c) (blob : Blob)
    (commitment proof : Bytes48)
    (hbatch : c.verifyBlobKzgProofBatch [blob] [commitment] [proof] = some false) :
    ∃ replayer beacon, (⟨store, ⟨[blob], [commitment], [proof]⟩⟩ :
        WitnessData).getOracleAndBlobProvider c = .ok replayer ∧
      replayer.replay (.getBlobs [c.kzgToVersionedHash commitment]) =
        .ok (.blobs [blob], ⟨store, beacon⟩) := by
  refine ⟨⟨store, ⟨[(c.kzgToVersionedHash commitment, blob)]⟩⟩, ⟨[]⟩, ?_, ?_⟩
  · refine bind_ok_iff.mpr ⟨(), PreimageStore.checkPreimages_ok hstore, ?_⟩
    refine bind_ok_iff.mpr ⟨_, ?_, rfl⟩
    rw [BlobStore.ofBlobData, hbatch]
    rfl
  · simp [Replayer.replay, BlobStore.getBlobs, BlobStore.pop]

end OpSuccinct.Witness
