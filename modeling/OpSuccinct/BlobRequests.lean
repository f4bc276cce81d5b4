import OpSuccinct.WitnessReplay

/-! # Requests for blobs

Whatever is requested, `BlobStore::get_blobs` takes the next blob off its stack for every
hash, and leaves it out of its answer when it is stored under another hash.  The answer is
then shorter than the request, and the blobs after it stand in the places of other hashes
(`blob_of_another_hash`).

So a request is answered completely exactly when its hashes are those of the next entries
of the witness data, in their order, or more than there are entries left, which is a panic
(`blob_requests_answered_iff`).  Which entries come next only depends on how many hashes
were requested before.  That an entry's blob has the entry's hash is left to the batch
check, of which `BlobStore::from` looks at the errors only.
-/
namespace OpSuccinct.Witness

variable {c : Crypto}

/-! ## The stack by position -/

/-- What `BlobStore::from` pairs up, in the order of the witness data. -/
def BlobData.versioned (c : Crypto) (data : BlobData) : List (Bytes32 × Blob) :=
  (data.commitments.map c.kzgToVersionedHash).zip data.blobs

/-- The stack with the first entry on top. -/
def BlobStore.ofVersioned (versioned : List (Bytes32 × Blob)) : BlobStore := ⟨versioned.reverse⟩

/-- The blobs that are stored under the hash requested at their position. -/
def found : List Bytes32 → List (Bytes32 × Blob) → List Blob
  | hash :: blobHashes, (blobHash, blob) :: versioned =>
    if hash = blobHash then blob :: found blobHashes versioned else found blobHashes versioned
  | _, _ => []

variable {data : BlobData} {store store' : BlobStore} {versioned : List (Bytes32 × Blob)}
  {blobHashes : List Bytes32} {blobs : List Blob}

theorem BlobStore.pop_ofVersioned (entry : Bytes32 × Blob) (versioned : List (Bytes32 × Blob)) :
    (BlobStore.ofVersioned (entry :: versioned)).pop =
      some (entry, BlobStore.ofVersioned versioned) := by
  simp [BlobStore.pop, BlobStore.ofVersioned]

theorem BlobStore.ofBlobData_ok (h : BlobStore.ofBlobData c data = .ok store) :
    store = BlobStore.ofVersioned (data.versioned c) := by
  unfold BlobStore.ofBlobData at h
  split at h
  · exact (Except.ok.inj h).symm
  · cases h

/-- **What `get_blobs` answers**: it takes an entry for every hash, and fails when there
are too few. -/
theorem BlobStore.getBlobs_ofVersioned_ok_iff :
    (BlobStore.ofVersioned versioned).getBlobs blobHashes = .ok (blobs, store') ↔
      blobHashes.length ≤ versioned.length ∧ found blobHashes versioned = blobs ∧
        BlobStore.ofVersioned (versioned.drop blobHashes.length) = store' := by
  induction blobHashes generalizing versioned blobs store' with
  | nil => simp [BlobStore.getBlobs, found]
  | cons hash blobHashes ih =>
    cases versioned with
    | nil => simp [BlobStore.getBlobs, BlobStore.pop, BlobStore.ofVersioned]
    | cons entry versioned =>
      obtain ⟨blobHash, blob⟩ := entry
      rw [BlobStore.getBlobs, BlobStore.pop_ofVersioned]
      simp only [bind_ok_iff, pure_ok_iff, Prod.mk.injEq, Prod.exists, ih, found,
        List.length_cons, Nat.add_le_add_iff_right, List.drop_succ_cons]
      constructor
      · rintro ⟨_, _, ⟨hle, rfl, rfl⟩, rfl, rfl⟩
        exact ⟨hle, rfl, rfl⟩
      · rintro ⟨hle, rfl, rfl⟩
        exact ⟨_, _, ⟨hle, rfl, rfl⟩, rfl, rfl⟩

theorem length_found_le : (found blobHashes versioned).length ≤ blobHashes.length := by
  fun_induction found blobHashes versioned with
  | case1 blobHashes blobHash blob versioned ih => exact Nat.succ_le_succ ih
  | case2 hash blobHashes blobHash blob versioned hne ih => exact Nat.le_succ_of_le ih
  | case3 => exact Nat.zero_le _

/-! ## Sequences of requests -/

/-- The stack after a sequence of requests. -/
def BlobStore.afterRequests (store : BlobStore) (requests : List (List Bytes32)) :
    Except Failure BlobStore :=
  requests.foldlM (fun store blobHashes => (store.getBlobs blobHashes).map (·.2)) store

/-- How many hashes were requested. -/
def requested (requests : List (List Bytes32)) : Nat := (requests.map List.length).sum

theorem BlobStore.afterRequests_ok {requests : List (List Bytes32)}
    (h : (BlobStore.ofVersioned versioned).afterRequests requests = .ok store) :
    store = BlobStore.ofVersioned (versioned.drop (requested requests)) := by
  induction requests generalizing versioned with
  | nil => exact (pure_ok_iff.mp h).symm
  | cons blobHashes requests ih =>
    obtain ⟨next, hnext, hrest⟩ := bind_ok_iff.mp h
    obtain ⟨⟨blobs, _⟩, hcall, rfl⟩ := map_ok_iff.mp hnext
    obtain ⟨-, -, rfl⟩ := BlobStore.getBlobs_ofVersioned_ok_iff.mp hcall
    rw [ih hrest, List.drop_drop]
    rfl

/-- **A request is answered completely** if it is answered at all: with one blob for each
hash, in order, with this versioned hash. -/
def Answered (c : Crypto) (store : BlobStore) (blobHashes : List Bytes32) : Prop :=
  ∀ blobs store', store.getBlobs blobHashes = .ok (blobs, store') →
    Delivers c (.getBlobs blobHashes, .blobs blobs)

/-- The entry is stored under the hash, and its blob has it. -/
def Matches (c : Crypto) (hash : Bytes32) (entry : Bytes32 × Blob) : Prop :=
  hash = entry.1 ∧ ∃ commitment, c.blobToKzgCommitment entry.2 = some commitment ∧
    c.kzgToVersionedHash commitment = hash

/-- **The condition on a request**: if there is an entry left for each of its hashes, these
are the hashes of the next entries, in their order. -/
def InStep (c : Crypto) (versioned : List (Bytes32 × Blob)) (blobHashes : List Bytes32) : Prop :=
  blobHashes.length ≤ versioned.length →
    List.Forall₂ (Matches c) blobHashes (versioned.take blobHashes.length)

/-- The blobs found are complete exactly when all hashes match: a blob that is left out is
missing at the end. -/
theorem delivers_found_iff (hle : blobHashes.length ≤ versioned.length) :
    Delivers c (.getBlobs blobHashes, .blobs (found blobHashes versioned)) ↔
      List.Forall₂ (Matches c) blobHashes (versioned.take blobHashes.length) := by
  show List.Forall₂ _ (found blobHashes versioned) blobHashes ↔ _
  induction blobHashes generalizing versioned with
  | nil => simp [found]
  | cons hash blobHashes ih =>
    cases versioned with
    | nil => cases hle
    | cons entry versioned =>
      obtain ⟨blobHash, blob⟩ := entry
      rw [List.length_cons, List.take_succ_cons, List.forall₂_cons, found]
      by_cases heq : hash = blobHash
      · rw [if_pos heq, List.forall₂_cons, ih (Nat.le_of_succ_le_succ hle)]
        simp only [Matches, heq, true_and]
      · rw [if_neg heq]
        constructor
        · intro h
          have hlen := h.length_eq
          have hshort : (found blobHashes versioned).length ≤ blobHashes.length :=
            length_found_le
          rw [List.length_cons] at hlen
          omega
        · exact fun h => absurd h.1.1 heq

theorem answered_ofVersioned_iff :
    Answered c (BlobStore.ofVersioned versioned) blobHashes ↔ InStep c versioned blobHashes := by
  constructor
  · intro h hle
    exact (delivers_found_iff hle).mp
      (h _ _ (BlobStore.getBlobs_ofVersioned_ok_iff.mpr ⟨hle, rfl, rfl⟩))
  · intro h blobs store' hcall
    obtain ⟨hle, rfl, -⟩ := BlobStore.getBlobs_ofVersioned_ok_iff.mp hcall
    exact (delivers_found_iff hle).mpr (h hle)

/-- **When a request is answered completely**, after any requests, from any witness data
`BlobStore::from` accepts. -/
theorem blob_requests_answered_iff {requests : List (List Bytes32)}
    (hfrom : BlobStore.ofBlobData c data = .ok store)
    (hrequests : store.afterRequests requests = .ok store') :
    Answered c store' blobHashes ↔
      InStep c ((data.versioned c).drop (requested requests)) blobHashes := by
  obtain rfl := BlobStore.ofBlobData_ok hfrom
  rw [BlobStore.afterRequests_ok hrequests, answered_ofVersioned_iff]

/-! ### Witness data that was checked -/

/-- The batch check answers true only for blobs with their own commitments. -/
def Crypto.Sound (c : Crypto) : Prop :=
  ∀ blobs commitments proofs, c.verifyBlobKzgProofBatch blobs commitments proofs = some true →
    List.Forall₂ (fun blob commitment => c.blobToKzgCommitment blob = some commitment)
      blobs commitments

/-- The blobs of an entry list that all have their own hashes match by the hashes alone. -/
theorem forall₂_matches_iff (h : ∀ entry ∈ versioned, Matches c entry.1 entry) :
    List.Forall₂ (Matches c) blobHashes versioned ↔ blobHashes = versioned.map Prod.fst := by
  induction versioned generalizing blobHashes with
  | nil => simp
  | cons entry versioned ih =>
    obtain ⟨hentry, hrest⟩ := List.forall_mem_cons.mp h
    cases blobHashes with
    | nil => simp
    | cons hash blobHashes =>
      rw [List.forall₂_cons, ih hrest, List.map_cons, List.cons.injEq]
      refine and_congr_left fun _ => ⟨fun hmatch => hmatch.1, ?_⟩
      rintro rfl
      exact hentry

theorem versioned_matches (hsound : c.Sound)
    (hchecked : c.verifyBlobKzgProofBatch data.blobs data.commitments data.proofs = some true) :
    ∀ entry ∈ data.versioned c, Matches c entry.1 entry := by
  obtain ⟨blobs, commitments, proofs⟩ := data
  have hown : List.Forall₂ _ blobs commitments := hsound _ _ _ hchecked
  unfold BlobData.versioned
  dsimp only
  clear hchecked
  induction hown with
  | nil => simp
  | cons hfirst _ ih =>
    rw [List.map_cons, List.zip_cons_cons, List.forall_mem_cons]
    exact ⟨⟨rfl, _, hfirst, rfl⟩, ih⟩

/-- **Where the batch check answered true, only the hashes matter.** -/
theorem inStep_iff_of_checked (hsound : c.Sound)
    (hchecked : c.verifyBlobKzgProofBatch data.blobs data.commitments data.proofs = some true)
    (n : Nat) :
    InStep c ((data.versioned c).drop n) blobHashes ↔
      (blobHashes.length ≤ ((data.versioned c).drop n).length →
        blobHashes = (((data.versioned c).drop n).take blobHashes.length).map Prod.fst) := by
  refine imp_congr_right fun _ => forall₂_matches_iff fun entry hentry => ?_
  exact versioned_matches hsound hchecked entry (List.mem_of_mem_drop (List.mem_of_mem_take hentry))

/-! ### Two blobs, one of which is not requested

The witness data has the blobs 7 and 8. -/

def exampleData : BlobData where
  blobs := [exampleBlob 7, exampleBlob 8]
  commitments := [Vector.replicate 48 7, Vector.replicate 48 8]
  proofs := [Vector.replicate 48 7, Vector.replicate 48 8]

theorem exampleData_versioned :
    exampleData.versioned exampleCrypto = [(7, exampleBlob 7), (8, exampleBlob 8)] := by
  simp [exampleData, BlobData.versioned, exampleCrypto]

theorem exampleData_accepted : BlobStore.ofBlobData exampleCrypto exampleData =
    .ok (BlobStore.ofVersioned [(7, exampleBlob 7), (8, exampleBlob 8)]) := by
  rw [← exampleData_versioned]
  rfl

theorem exampleData_afterFirst :
    (BlobStore.ofVersioned [(7, exampleBlob 7), (8, exampleBlob 8)]).afterRequests [[7]] =
      .ok (BlobStore.ofVersioned [(8, exampleBlob 8)]) := rfl

theorem blob_requests_answered_iff_example :
    Answered exampleCrypto (BlobStore.ofVersioned [(8, exampleBlob 8)]) [8] := by
  refine (blob_requests_answered_iff exampleData_accepted exampleData_afterFirst).mpr fun _ => ?_
  rw [exampleData_versioned]
  exact .cons ⟨rfl, exampleBlob_delivered 8⟩ .nil

/-- **The failing input.**  A request for the hashes 9 and 8 is answered with the blob 8
alone, in the place of the hash 9. -/
theorem blob_of_another_hash :
    BlobStore.ofBlobData exampleCrypto exampleData =
      .ok (BlobStore.ofVersioned [(7, exampleBlob 7), (8, exampleBlob 8)]) ∧
    (BlobStore.ofVersioned [(7, exampleBlob 7), (8, exampleBlob 8)]).getBlobs [9, 8] =
      .ok ([exampleBlob 8], BlobStore.ofVersioned []) ∧
    ¬ Answered exampleCrypto
      (BlobStore.ofVersioned [(7, exampleBlob 7), (8, exampleBlob 8)]) [9, 8] := by
  refine ⟨exampleData_accepted, rfl, fun h => ?_⟩
  have hlen := List.Forall₂.length_eq (h _ _ rfl)
  cases hlen

end OpSuccinct.Witness
