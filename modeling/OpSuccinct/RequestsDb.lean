import Mathlib.Logic.Function.Basic
import OpSuccinct.BlockRanges
import OpSuccinct.Evm

/-! # The request database

The `requests` table of the validity proposer and the queries of
`validity/src/db/client.rs`.  Every call of the client is one statement or one
transaction, so a call is one function of the database: a query returns rows, and
a write gives the next database (`DbWrite`, `Db.apply`).

Rows are found by their serial id, which is never given out twice.  A block of a
row fits an `i64`, and so does the sum of two; the columns of statistics,
durations and times are left out.
-/
namespace OpSuccinct.Validity

/-! ## Rows -/

inductive RequestStatus
  | unrequested
  | witnessGeneration
  | execution
  | prove
  | complete
  | relayed
  | failed
  | cancelled
  deriving DecidableEq, Repr

inductive RequestType
  | range
  | aggregation
  deriving DecidableEq, Repr

inductive RequestMode
  | real
  | mock
  deriving DecidableEq, Repr

/-- `OPSuccinctRequest`. -/
structure Request where
  id : Nat
  status : RequestStatus
  reqType : RequestType
  mode : RequestMode
  startBlock : Int
  endBlock : Int
  proofRequestId : Option Bytes32
  checkpointedL1BlockNumber : Option Int
  checkpointedL1BlockHash : Option Bytes32
  rangeVkeyCommitment : Bytes32
  aggregationVkeyHash : Option Bytes32
  rollupConfigHash : Bytes32
  relayTxHash : Option Bytes32
  proof : Option Bytes
  l1ChainId : Int
  l2ChainId : Int
  contractAddress : Option Address
  proverAddress : Option Address
  l1HeadBlockNumber : Option Int
  deriving DecidableEq

structure CommitmentConfig where
  rangeVkeyCommitment : Bytes32
  aggVkeyHash : Bytes32
  rollupConfigHash : Bytes32

/-- What the queries are made for: the commitments and the chains. -/
structure Scope where
  commitments : CommitmentConfig
  l1ChainId : Int
  l2ChainId : Int

/-- `OPSuccinctRequest::new_range_request`; the id is given on insertion. -/
def newRangeRequest (scope : Scope) (mode : RequestMode) (startBlock endBlock : Int) : Request where
  id := 0
  status := .unrequested
  reqType := .range
  mode := mode
  startBlock := startBlock
  endBlock := endBlock
  proofRequestId := none
  checkpointedL1BlockNumber := none
  checkpointedL1BlockHash := none
  rangeVkeyCommitment := scope.commitments.rangeVkeyCommitment
  aggregationVkeyHash := none
  rollupConfigHash := scope.commitments.rollupConfigHash
  relayTxHash := none
  proof := none
  l1ChainId := scope.l1ChainId
  l2ChainId := scope.l2ChainId
  contractAddress := none
  proverAddress := none
  l1HeadBlockNumber := none

/-- `OPSuccinctRequest::new_agg_request`. -/
def newAggRequest (scope : Scope) (mode : RequestMode) (startBlock endBlock : Int)
    (checkpointedL1BlockNumber : Int) (checkpointedL1BlockHash : Bytes32)
    (proverAddress : Address) : Request :=
  { newRangeRequest scope mode startBlock endBlock with
    reqType := .aggregation
    aggregationVkeyHash := some scope.commitments.aggVkeyHash
    checkpointedL1BlockNumber := some checkpointedL1BlockNumber
    checkpointedL1BlockHash := some checkpointedL1BlockHash
    proverAddress := some proverAddress }

/-- The columns that tell the proposer's requests from those of another configuration
or chain. -/
def Request.InScope (scope : Scope) (r : Request) : Prop :=
  r.rangeVkeyCommitment = scope.commitments.rangeVkeyCommitment ∧
    r.rollupConfigHash = scope.commitments.rollupConfigHash ∧
    r.l1ChainId = scope.l1ChainId ∧ r.l2ChainId = scope.l2ChainId

instance (scope : Scope) (r : Request) : Decidable (r.InScope scope) :=
  inferInstanceAs (Decidable (_ ∧ _))

/-- The statuses of the requests `add_new_ranges` counts as active. -/
def RequestStatus.isActive : RequestStatus → Bool
  | .unrequested | .witnessGeneration | .execution | .prove | .complete => true
  | .relayed | .failed | .cancelled => false

/-! ## The table -/

/-- The table: its rows by id, and the next id of the sequence. -/
structure Db where
  rows : Nat → Option Request
  nextId : Nat
  id_eq : ∀ i r, rows i = some r → r.id = i
  fresh : ∀ i, nextId ≤ i → rows i = none

namespace Db

def empty : Db where
  rows := fun _ => none
  nextId := 1
  id_eq := by simp
  fresh := by simp

/-- All rows, in the order of their ids. -/
def all (db : Db) : List Request := (List.range db.nextId).filterMap db.rows

/-- The rows with a property. -/
def select (db : Db) (p : Request → Bool) : List Request := db.all.filter p

theorem mem_all {db : Db} {r : Request} : r ∈ db.all ↔ db.rows r.id = some r := by
  simp only [all, List.mem_filterMap, List.mem_range]
  constructor
  · rintro ⟨i, -, hi⟩
    rwa [db.id_eq i r hi]
  · intro h
    refine ⟨r.id, ?_, h⟩
    by_contra hlt
    rw [db.fresh r.id (by omega)] at h
    cases h

theorem mem_select {db : Db} {p : Request → Bool} {r : Request} :
    r ∈ db.select p ↔ db.rows r.id = some r ∧ p r = true := by
  rw [select, List.mem_filter, mem_all]

/-- The ids of selected rows are different. -/
theorem nodup_select (db : Db) (p : Request → Bool) : ((db.select p).map (·.id)).Nodup := by
  have hids : (db.all.map (·.id)).Nodup := by
    have heq : db.all.map (·.id) = (List.range db.nextId).filter fun i => (db.rows i).isSome := by
      rw [all, List.map_filterMap, ← List.filterMap_eq_filter]
      apply List.filterMap_congr
      intro i _
      cases hi : db.rows i with
      | none => simp [Option.guard, hi]
      | some r => simp [Option.guard, hi, db.id_eq i r hi]
    rw [heq]
    exact List.nodup_range.filter _
  exact hids.sublist (List.filter_sublist.map _)

/-! ### Queries -/

/-- `SELECT` of the rows of a type and status within the scope. -/
def inStatus (db : Db) (scope : Scope) (reqType : RequestType) (status : RequestStatus)
    (p : Request → Bool) : List Request :=
  db.select fun r => r.InScope scope && r.reqType == reqType && r.status == status && p r

def fetchFailedRequestCountByBlockRange (db : Db) (scope : Scope)
    (startBlock endBlock : Int) : Nat :=
  (db.select fun r => r.startBlock == startBlock && r.endBlock == endBlock &&
    (r.status == .failed || r.status == .cancelled) && r.InScope scope).length

/-- With the active statuses, as `add_new_ranges` calls it. -/
def fetchRangesAfterBlock (db : Db) (scope : Scope) (latestContractL2Block : Int) :
    List BlockRange :=
  (db.select fun r => r.InScope scope && r.status.isActive && r.reqType == .range &&
    decide (latestContractL2Block ≤ r.startBlock)).map fun r => (r.startBlock, r.endBlock)

def fetchRequestCount (db : Db) (scope : Scope) (status : RequestStatus) : Nat :=
  (db.select fun r => r.InScope scope && r.status == status).length

def fetchRequestsByStatus (db : Db) (scope : Scope) (status : RequestStatus) : List Request :=
  db.select fun r => r.InScope scope && r.status == status

/-- Sorted by start block. -/
def getConsecutiveCompleteRangeProofs (db : Db) (scope : Scope) (startBlock endBlock : Int) :
    List Request :=
  (db.inStatus scope .range .complete fun r =>
    decide (startBlock ≤ r.startBlock) && decide (r.endBlock ≤ endBlock)).insertionSort
      fun a b => a.startBlock ≤ b.startBlock

/-- The rows `fetch_failed_agg_request_with_checkpointed_block_hash` takes one of. -/
def failedAggRequestsWithCheckpoint (db : Db) (scope : Scope) (startBlock endBlock : Int) :
    List Request :=
  db.inStatus scope .aggregation .failed fun r =>
    r.aggregationVkeyHash == some scope.commitments.aggVkeyHash && r.startBlock == startBlock &&
      r.endBlock == endBlock && r.checkpointedL1BlockHash.isSome &&
      r.checkpointedL1BlockNumber.isSome

def fetchActiveAggProofsCount (db : Db) (scope : Scope) (startBlock : Int) : Nat :=
  (db.select fun r => r.InScope scope &&
    r.aggregationVkeyHash == some scope.commitments.aggVkeyHash &&
    r.status.isActive && r.reqType == .aggregation && r.startBlock == startBlock).length

/-- The rows `fetch_unrequested_agg_proof` takes the first of. -/
def unrequestedAggProofs (db : Db) (scope : Scope) (latestContractL2Block : Int) : List Request :=
  db.inStatus scope .aggregation .unrequested fun r =>
    r.aggregationVkeyHash == some scope.commitments.aggVkeyHash &&
      decide (latestContractL2Block ≤ r.startBlock)

/-- The rows `fetch_first_unrequested_range_proof` takes the first of. -/
def unrequestedRangeProofs (db : Db) (scope : Scope) (latestContractL2Block : Int) :
    List Request :=
  db.inStatus scope .range .unrequested fun r => decide (latestContractL2Block ≤ r.startBlock)

/-- Sorted by start block. -/
def fetchCompletedRanges (db : Db) (scope : Scope) (latestContractL2Block : Int) :
    List BlockRange :=
  ((db.inStatus scope .range .complete fun r =>
    decide (latestContractL2Block ≤ r.startBlock)).map fun r =>
      (r.startBlock, r.endBlock)).insertionSort fun a b => a.1 ≤ b.1

/-- The rows `fetch_completed_agg_proof_after_block` takes one of. -/
def completedAggProofs (db : Db) (scope : Scope) (latestContractL2Block : Int) : List Request :=
  db.inStatus scope .aggregation .complete fun r =>
    r.aggregationVkeyHash == some scope.commitments.aggVkeyHash &&
      r.startBlock == latestContractL2Block

/-- An answer to `ORDER BY start_block ASC LIMIT 1`; rows with one start block come in any
order. -/
def isFirstByStart (rows : List Request) : Option Request → Bool
  | none => rows.isEmpty
  | some r => decide (r ∈ rows) && rows.all fun r' => decide (r.startBlock ≤ r'.startBlock)

theorem mem_of_isFirstByStart {rows : List Request} {r : Request}
    (h : isFirstByStart rows (some r) = true) : r ∈ rows := by
  simp only [isFirstByStart, Bool.and_eq_true, decide_eq_true_eq] at h
  exact h.1

/-! ### Writes -/

/-- `UPDATE requests SET .. WHERE id = ..`, which leaves the id. -/
def update (db : Db) (id : Nat) (f : Request → Request) : Db where
  rows := Function.update db.rows id ((db.rows id).map fun r => { f r with id := r.id })
  nextId := db.nextId
  id_eq := by
    intro i r h
    by_cases hi : i = id
    · subst hi
      rw [Function.update_self] at h
      obtain ⟨r', hr', rfl⟩ := Option.map_eq_some_iff.mp h
      show r'.id = _
      exact db.id_eq _ r' hr'
    · rw [Function.update_of_ne hi] at h
      exact db.id_eq i r h
  fresh := by
    intro i hi
    by_cases heq : i = id
    · subst heq
      rw [Function.update_self, db.fresh _ hi]
      rfl
    · rw [Function.update_of_ne heq]
      exact db.fresh i hi

/-- `INSERT` of one row. -/
def insert (db : Db) (r : Request) : Db where
  rows := Function.update db.rows db.nextId (some { r with id := db.nextId })
  nextId := db.nextId + 1
  id_eq := by
    intro i r' h
    by_cases hi : i = db.nextId
    · subst hi
      rw [Function.update_self] at h
      cases h
      rfl
    · rw [Function.update_of_ne hi] at h
      exact db.id_eq i r' h
  fresh := by
    intro i hi
    rw [Function.update_of_ne (by omega)]
    exact db.fresh i (by omega)

/-- `insert_requests`: all rows in one transaction. -/
def insertAll (db : Db) (rs : List Request) : Db := rs.foldl insert db

/-- `DELETE FROM requests WHERE ..`. -/
def delete (db : Db) (p : Request → Bool) : Db where
  rows := fun i => (db.rows i).filter fun r => !p r
  nextId := db.nextId
  id_eq := by
    intro i r h
    exact db.id_eq i r (Option.eq_some_of_filter_eq_some h)
  fresh := by
    intro i hi
    rw [db.fresh i hi]
    rfl

/-- `UPDATE requests SET status = .. WHERE ..`. -/
def setStatusWhere (db : Db) (status : RequestStatus) (p : Request → Bool) : Db where
  rows := fun i => (db.rows i).map fun r => if p r then { r with status } else r
  nextId := db.nextId
  id_eq := by
    intro i r h
    obtain ⟨r', hr', rfl⟩ := Option.map_eq_some_iff.mp h
    split <;> exact db.id_eq i r' hr'
  fresh := by
    intro i hi
    rw [db.fresh i hi]
    rfl

end Db

/-! ## Calls that write -/

/-- The writing calls of the client. -/
inductive DbWrite
  | updateRequestStatus (id : Nat) (newStatus : RequestStatus)
  | updateRequestToProve (id : Nat) (proofId : Bytes32)
  | updateProofToComplete (id : Nat) (proof : Bytes)
  | updateRequestToRelayed (id : Nat) (relayTxHash : Bytes32) (contractAddress : Address)
  | updateL1HeadBlockNumber (id : Nat) (l1HeadBlockNumber : Int)
  | insertRequests (requests : List Request)
  | deleteAllRequestsWithStatuses (statuses : List RequestStatus) (l1ChainId l2ChainId : Int)
  | cancelProveRequestsWithDifferentCommitmentConfig (scope : Scope)

/-- **The database after a write.** -/
def Db.apply (db : Db) : DbWrite → Db
  | .updateRequestStatus id newStatus =>
    db.update id fun r => { r with status := newStatus }
  | .updateRequestToProve id proofId =>
    db.update id fun r => { r with status := .prove, proofRequestId := some proofId }
  | .updateProofToComplete id proof =>
    db.update id fun r => { r with status := .complete, proof := some proof }
  | .updateRequestToRelayed id relayTxHash contractAddress =>
    db.update id fun r => { r with
      status := .relayed
      relayTxHash := some relayTxHash
      contractAddress := some contractAddress }
  | .updateL1HeadBlockNumber id l1HeadBlockNumber =>
    db.update id fun r => { r with l1HeadBlockNumber := some l1HeadBlockNumber }
  | .insertRequests requests => db.insertAll requests
  | .deleteAllRequestsWithStatuses statuses l1ChainId l2ChainId =>
    db.delete fun r => r.status ∈ statuses && r.l1ChainId == l1ChainId && r.l2ChainId == l2ChainId
  | .cancelProveRequestsWithDifferentCommitmentConfig scope =>
    db.setStatusWhere .cancelled fun r =>
      r.status == .prove && (r.rangeVkeyCommitment != scope.commitments.rangeVkeyCommitment ||
        r.rollupConfigHash != scope.commitments.rollupConfigHash) &&
        r.l1ChainId == scope.l1ChainId && r.l2ChainId == scope.l2ChainId

/-! ## What a write does to the rows -/

/-- Two versions of one request: the columns no write changes agree. -/
structure SameRequest (r r' : Request) : Prop where
  id : r'.id = r.id
  reqType : r'.reqType = r.reqType
  mode : r'.mode = r.mode
  startBlock : r'.startBlock = r.startBlock
  endBlock : r'.endBlock = r.endBlock
  rangeVkeyCommitment : r'.rangeVkeyCommitment = r.rangeVkeyCommitment
  rollupConfigHash : r'.rollupConfigHash = r.rollupConfigHash
  l1ChainId : r'.l1ChainId = r.l1ChainId
  l2ChainId : r'.l2ChainId = r.l2ChainId

theorem SameRequest.refl (r : Request) : SameRequest r r :=
  ⟨rfl, rfl, rfl, rfl, rfl, rfl, rfl, rfl, rfl⟩

theorem SameRequest.trans {r₁ r₂ r₃ : Request} (h : SameRequest r₁ r₂) (h' : SameRequest r₂ r₃) :
    SameRequest r₁ r₃ where
  id := h'.id.trans h.id
  reqType := h'.reqType.trans h.reqType
  mode := h'.mode.trans h.mode
  startBlock := h'.startBlock.trans h.startBlock
  endBlock := h'.endBlock.trans h.endBlock
  rangeVkeyCommitment := h'.rangeVkeyCommitment.trans h.rangeVkeyCommitment
  rollupConfigHash := h'.rollupConfigHash.trans h.rollupConfigHash
  l1ChainId := h'.l1ChainId.trans h.l1ChainId
  l2ChainId := h'.l2ChainId.trans h.l2ChainId

theorem SameRequest.inScope_iff {scope : Scope} {r r' : Request} (h : SameRequest r r') :
    r'.InScope scope ↔ r.InScope scope := by
  rw [Request.InScope, Request.InScope, h.rangeVkeyCommitment, h.rollupConfigHash, h.l1ChainId,
    h.l2ChainId]

/-- **The effect of an update** of one row: its status becomes `g` of the old one, and
every other row stays. -/
structure Updates (db db' : Db) (id : Nat) (g : RequestStatus → RequestStatus) : Prop where
  other : ∀ i, i ≠ id → db'.rows i = db.rows i
  row : ∀ r, db.rows id = some r →
    ∃ r', db'.rows id = some r' ∧ SameRequest r r' ∧ r'.status = g r.status
  none : db.rows id = none → db'.rows id = none

variable {db : Db}

theorem updates_rfl (db : Db) (id : Nat) : Updates db db id fun status => status :=
  ⟨fun _ _ => rfl, fun r hr => ⟨r, hr, SameRequest.refl r, rfl⟩, fun h => h⟩

theorem updates_update (id : Nat) {f : Request → Request} {g : RequestStatus → RequestStatus}
    (hsame : ∀ r, SameRequest r { f r with id := r.id }) (hg : ∀ r, (f r).status = g r.status) :
    Updates db (db.update id f) id g := by
  have hself : (db.update id f).rows id = (db.rows id).map fun r => { f r with id := r.id } :=
    Function.update_self _ _ _
  refine ⟨fun i hi => Function.update_of_ne hi _ _, fun r hr => ?_, fun hnone => ?_⟩
  · rw [hself, hr]
    exact ⟨_, rfl, hsame r, hg r⟩
  · rw [hself, hnone]
    rfl

theorem updates_status (db : Db) (id : Nat) (newStatus : RequestStatus) :
    Updates db (db.apply (.updateRequestStatus id newStatus)) id fun _ => newStatus :=
  updates_update id (fun _ => ⟨rfl, rfl, rfl, rfl, rfl, rfl, rfl, rfl, rfl⟩) fun _ => rfl

theorem updates_prove (db : Db) (id : Nat) (proofId : Bytes32) :
    Updates db (db.apply (.updateRequestToProve id proofId)) id fun _ => .prove :=
  updates_update id (fun _ => ⟨rfl, rfl, rfl, rfl, rfl, rfl, rfl, rfl, rfl⟩) fun _ => rfl

theorem updates_complete (db : Db) (id : Nat) (proof : Bytes) :
    Updates db (db.apply (.updateProofToComplete id proof)) id fun _ => .complete :=
  updates_update id (fun _ => ⟨rfl, rfl, rfl, rfl, rfl, rfl, rfl, rfl, rfl⟩) fun _ => rfl

theorem updates_relayed (db : Db) (id : Nat) (relayTxHash : Bytes32) (contractAddress : Address) :
    Updates db (db.apply (.updateRequestToRelayed id relayTxHash contractAddress)) id
      fun _ => .relayed :=
  updates_update id (fun _ => ⟨rfl, rfl, rfl, rfl, rfl, rfl, rfl, rfl, rfl⟩) fun _ => rfl

theorem updates_l1Head (db : Db) (id : Nat) (l1HeadBlockNumber : Int) :
    Updates db (db.apply (.updateL1HeadBlockNumber id l1HeadBlockNumber)) id fun status => status :=
  updates_update id (fun _ => ⟨rfl, rfl, rfl, rfl, rfl, rfl, rfl, rfl, rfl⟩) fun _ => rfl

/-- An updated row, traced back. -/
theorem Updates.back {db' : Db} {id i : Nat} {g : RequestStatus → RequestStatus}
    (h : Updates db db' id g) {r' : Request} (hr' : db'.rows i = some r') :
    ∃ r, db.rows i = some r ∧ SameRequest r r' ∧
      r'.status = if i = id then g r.status else r.status := by
  by_cases hi : i = id
  · subst hi
    cases hr : db.rows i with
    | none =>
      rw [h.none hr] at hr'
      cases hr'
    | some r =>
      obtain ⟨r'', hr'', hsame, hstatus⟩ := h.row r hr
      cases hr''.symm.trans hr'
      exact ⟨r, rfl, hsame, by rw [if_pos rfl, hstatus]⟩
  · rw [h.other i hi] at hr'
    exact ⟨r', hr', SameRequest.refl r', by rw [if_neg hi]⟩

/-- **The effect of an insertion**: the new rows have the next ids, and the old ones
stay. -/
theorem Db.rows_insertAll (db : Db) (rs : List Request) (i : Nat) :
    (db.insertAll rs).rows i =
      if i < db.nextId then db.rows i
      else rs[i - db.nextId]?.map fun r => { r with id := i } := by
  induction rs generalizing db with
  | nil =>
    by_cases hi : i < db.nextId
    · rw [if_pos hi]
      rfl
    · rw [if_neg hi]
      exact db.fresh i (by omega)
  | cons r rs ih =>
    show ((db.insert r).insertAll rs).rows i = _
    rw [ih]
    have hnext : (db.insert r).nextId = db.nextId + 1 := rfl
    by_cases heq : i = db.nextId
    · subst heq
      rw [if_pos (by omega), if_neg (by omega), Nat.sub_self]
      exact Function.update_self _ _ _
    · by_cases hi : i < db.nextId
      · rw [if_pos (by omega), if_pos hi]
        exact Function.update_of_ne heq _ _
      · have hsub : i - db.nextId = i - (db.nextId + 1) + 1 := by omega
        rw [if_neg (by omega), if_neg hi, hnext, hsub, List.getElem?_cons_succ]

/-- An insertion leaves every row there is. -/
theorem Db.rows_insertAll_of_some {db : Db} {rs : List Request} {i : Nat} {r : Request}
    (h : db.rows i = some r) : (db.insertAll rs).rows i = some r := by
  rw [Db.rows_insertAll, if_pos, h]
  by_contra hi
  rw [db.fresh i (by omega)] at h
  cases h

/-- A request that is not worked on any more, and not done. -/
def RequestStatus.IsDead (status : RequestStatus) : Prop := status = .failed ∨ status = .cancelled

/-- **The effect of cleaning up**: rows are deleted or cancelled, and dead ones stay. -/
structure Cleans (db db' : Db) : Prop where
  back : ∀ i r', db'.rows i = some r' →
    ∃ r, db.rows i = some r ∧ SameRequest r r' ∧ (r'.status = r.status ∨ r'.status = .cancelled)
  dead : ∀ i r, db.rows i = some r → r.status.IsDead → db'.rows i = some r

theorem cleans_delete {statuses : List RequestStatus} (l1ChainId l2ChainId : Int)
    (hstatuses : ∀ status ∈ statuses, ¬ status.IsDead) :
    Cleans db (db.apply (.deleteAllRequestsWithStatuses statuses l1ChainId l2ChainId)) where
  back := by
    intro i r' h
    exact ⟨r', Option.eq_some_of_filter_eq_some h, SameRequest.refl r', .inl rfl⟩
  dead := by
    intro i r h hdead
    have hnot : r.status ∉ statuses := fun hmem => hstatuses _ hmem hdead
    show (db.rows i).filter _ = some r
    rw [h]
    simp [hnot]

theorem cleans_cancel (scope : Scope) :
    Cleans db (db.apply (.cancelProveRequestsWithDifferentCommitmentConfig scope)) where
  back := by
    intro i r' h
    obtain ⟨r, hr, rfl⟩ := Option.map_eq_some_iff.mp h
    refine ⟨r, hr, ?_, ?_⟩
    · split <;> exact ⟨rfl, rfl, rfl, rfl, rfl, rfl, rfl, rfl, rfl⟩
    · split
      · exact .inr rfl
      · exact .inl rfl
  dead := by
    intro i r h hdead
    have hnot : r.status ≠ .prove := by
      intro heq
      rcases hdead with hdead | hdead <;> rw [heq] at hdead <;> cases hdead
    show (db.rows i).map _ = some r
    rw [h]
    simp [hnot]

end OpSuccinct.Validity
