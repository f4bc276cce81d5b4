import OpSuccinct.FulfilledProofs

/-! # The versions of a request

A task and the main loop hold requests as they were read, while the rows go on
changing.  A step writes to the database at most once (`Writes`, `step_written`), a
write leaves the columns that say what is to be proved (`SameInputs`), and whatever is
held was read from a row (`version_step`).  So all versions of one request agree on
what is to be proved, in every run of every configuration (`Sys.VersionsAgree`).
-/
namespace OpSuccinct.Validity

open Fleets Transition

/-- Two versions of one request agree on what its proof is made from. -/
structure SameInputs (r r' : Request) : Prop extends SameRequest r r' where
  checkpointedL1BlockNumber : r'.checkpointedL1BlockNumber = r.checkpointedL1BlockNumber
  checkpointedL1BlockHash : r'.checkpointedL1BlockHash = r.checkpointedL1BlockHash
  proverAddress : r'.proverAddress = r.proverAddress

theorem SameInputs.refl (r : Request) : SameInputs r r := ⟨SameRequest.refl r, rfl, rfl, rfl⟩

theorem SameInputs.trans {r₁ r₂ r₃ : Request} (h : SameInputs r₁ r₂) (h' : SameInputs r₂ r₃) :
    SameInputs r₁ r₃ where
  toSameRequest := h.toSameRequest.trans h'.toSameRequest
  checkpointedL1BlockNumber := h'.checkpointedL1BlockNumber.trans h.checkpointedL1BlockNumber
  checkpointedL1BlockHash := h'.checkpointedL1BlockHash.trans h.checkpointedL1BlockHash
  proverAddress := h'.proverAddress.trans h.proverAddress

theorem SameInputs.symm {r r' : Request} (h : SameInputs r r') : SameInputs r' r where
  id := h.id.symm
  reqType := h.reqType.symm
  mode := h.mode.symm
  startBlock := h.startBlock.symm
  endBlock := h.endBlock.symm
  rangeVkeyCommitment := h.rangeVkeyCommitment.symm
  rollupConfigHash := h.rollupConfigHash.symm
  l1ChainId := h.l1ChainId.symm
  l2ChainId := h.l2ChainId.symm
  checkpointedL1BlockNumber := h.checkpointedL1BlockNumber.symm
  checkpointedL1BlockHash := h.checkpointedL1BlockHash.symm
  proverAddress := h.proverAddress.symm

/-! ## What a write makes of a row -/

/-- A row after a write that leaves it there. -/
def DbWrite.onRow (r : Request) : DbWrite → Request
  | .updateRequestStatus id newStatus => if r.id = id then { r with status := newStatus } else r
  | .updateRequestToProve id proofId =>
    if r.id = id then { r with status := .prove, proofRequestId := some proofId } else r
  | .updateProofToComplete id proof =>
    if r.id = id then { r with status := .complete, proof := some proof } else r
  | .updateRequestToRelayed id relayTxHash contractAddress =>
    if r.id = id then
      { r with
        status := .relayed
        relayTxHash := some relayTxHash
        contractAddress := some contractAddress }
    else r
  | .updateL1HeadBlockNumber id l1HeadBlockNumber =>
    if r.id = id then { r with l1HeadBlockNumber := some l1HeadBlockNumber } else r
  | .insertRequests _ | .deleteAllRequestsWithStatuses _ _ _ => r
  | .cancelProveRequestsWithDifferentCommitmentConfig scope =>
    if r.status == .prove && (r.rangeVkeyCommitment != scope.commitments.rangeVkeyCommitment ||
        r.rollupConfigHash != scope.commitments.rollupConfigHash) &&
        r.l1ChainId == scope.l1ChainId && r.l2ChainId == scope.l2ChainId then
      { r with status := .cancelled }
    else r

/-- **A write leaves what is to be proved.** -/
theorem sameInputs_onRow (r : Request) (w : DbWrite) : SameInputs r (w.onRow r) := by
  cases w with
  | insertRequests _ | deleteAllRequestsWithStatuses _ _ _ => exact SameInputs.refl r
  | _ =>
    dsimp only [DbWrite.onRow]
    split <;> exact ⟨⟨rfl, rfl, rfl, rfl, rfl, rfl, rfl, rfl, rfl⟩, rfl, rfl, rfl⟩

/-- **What a write does to the proof of a row**: nothing, unless it requests or stores one. -/
inductive ProofChange (r : Request) : DbWrite → Request → Prop
  | quiet {w : DbWrite} {r' : Request} : r'.proofRequestId = r.proofRequestId →
      (r'.status = .complete → r.status = .complete ∧ r'.proof = r.proof) → ProofChange r w r'
  | requested {id : Nat} {proofId : Bytes32} : r.id = id →
      ProofChange r (.updateRequestToProve id proofId)
        { r with status := .prove, proofRequestId := some proofId }
  | completed {id : Nat} {proof : Bytes} : r.id = id →
      ProofChange r (.updateProofToComplete id proof)
        { r with status := .complete, proof := some proof }
  | setComplete {id : Nat} : r.id = id →
      ProofChange r (.updateRequestStatus id .complete) { r with status := .complete }

theorem ProofChange.refl (r : Request) (w : DbWrite) : ProofChange r w r :=
  .quiet rfl fun h => ⟨h, rfl⟩

theorem ProofChange.of_status {r r' : Request} {w : DbWrite}
    (hid : r'.proofRequestId = r.proofRequestId) (hstatus : r'.status ≠ .complete) :
    ProofChange r w r' :=
  .quiet hid fun h => absurd h hstatus

theorem proofChange_onRow (r : Request) (w : DbWrite) : ProofChange r w (w.onRow r) := by
  cases w with
  | insertRequests _ | deleteAllRequestsWithStatuses _ _ _ => exact .refl r _
  | updateRequestStatus id newStatus =>
    dsimp only [DbWrite.onRow]
    split
    · rename_i hid
      by_cases hstatus : newStatus = .complete
      · subst hstatus
        exact .setComplete hid
      · exact .of_status rfl hstatus
    · exact .refl r _
  | updateRequestToProve id proofId =>
    dsimp only [DbWrite.onRow]
    split
    · rename_i hid
      exact .requested hid
    · exact .refl r _
  | updateProofToComplete id proof =>
    dsimp only [DbWrite.onRow]
    split
    · rename_i hid
      exact .completed hid
    · exact .refl r _
  | updateL1HeadBlockNumber id l1HeadBlockNumber =>
    dsimp only [DbWrite.onRow]
    split
    · exact .quiet rfl fun h => ⟨h, rfl⟩
    · exact .refl r _
  | updateRequestToRelayed _ _ _ | cancelProveRequestsWithDifferentCommitmentConfig _ =>
    dsimp only [DbWrite.onRow]
    split
    · exact .of_status rfl (fun h => by cases h)
    · exact .refl r _

theorem rows_update_back {db : Db} {id i : Nat} {f : Request → Request} {r' : Request}
    (h : (db.update id f).rows i = some r') :
    ∃ r, db.rows i = some r ∧ r' = if r.id = id then { f r with id := r.id } else r := by
  by_cases hi : i = id
  · subst hi
    have hself : (db.update i f).rows i = (db.rows i).map fun r => { f r with id := r.id } :=
      Function.update_self _ _ _
    rw [hself] at h
    obtain ⟨r, hr, rfl⟩ := Option.map_eq_some_iff.mp h
    exact ⟨r, hr, (if_pos (db.id_eq i r hr)).symm⟩
  · have hother : (db.update id f).rows i = db.rows i := Function.update_of_ne hi _ _
    rw [hother] at h
    exact ⟨r', h, (if_neg (db.id_eq i r' h ▸ hi)).symm⟩

/-- **A row after a write** was there before, or is inserted. -/
theorem rows_apply_back {db : Db} {w : DbWrite} {i : Nat} {r' : Request}
    (h : (db.apply w).rows i = some r') :
    (∃ r, db.rows i = some r ∧ r' = w.onRow r) ∨
      ∃ requests r, w = .insertRequests requests ∧ r ∈ requests ∧ db.nextId ≤ i ∧
        r' = { r with id := i } := by
  cases w with
  | insertRequests requests =>
    have hrow : (db.insertAll requests).rows i = some r' := h
    rw [Db.rows_insertAll] at hrow
    split at hrow
    · exact .inl ⟨r', hrow, rfl⟩
    · obtain ⟨r, hr, rfl⟩ := Option.map_eq_some_iff.mp hrow
      exact .inr ⟨requests, r, rfl, List.mem_of_getElem? hr, by omega, rfl⟩
  | deleteAllRequestsWithStatuses statuses l1ChainId l2ChainId =>
    exact .inl ⟨r', Option.eq_some_of_filter_eq_some h, rfl⟩
  | cancelProveRequestsWithDifferentCommitmentConfig scope =>
    obtain ⟨r, hr, hr'⟩ := Option.map_eq_some_iff.mp h
    exact .inl ⟨r, hr, hr'.symm⟩
  | _ =>
    obtain ⟨r, hr, hr'⟩ := rows_update_back h
    exact .inl ⟨r, hr, hr'⟩

theorem nextId_apply (db : Db) (w : DbWrite) : db.nextId ≤ (db.apply w).nextId := by
  cases w with
  | insertRequests requests =>
    show db.nextId ≤ (db.insertAll requests).nextId
    induction requests generalizing db with
    | nil => exact Nat.le_refl _
    | cons r requests ih => exact Nat.le_trans (Nat.le_succ _) (ih (db.insert r))
  | _ => exact Nat.le_refl _

/-! ## Writes -/

/-- **What a step writes**, with what is known where it does. -/
inductive Writes (cfg : Config) (s : Sys) : Act → DbWrite → Prop
  | startWitnessGeneration {key : Nat} {task : Task} : s.procs key = some task →
      task.state = .spawned →
      Writes cfg s (.task key .startWitnessGeneration)
        (.updateRequestStatus task.datum.id .witnessGeneration)
  | l1Head {key : Nat} {task : Task} {l1HeadBlockNumber : Int} : s.procs key = some task →
      task.state = .fetching false →
      Writes cfg s (.task key (.updateL1HeadBlockNumber l1HeadBlockNumber))
        (.updateL1HeadBlockNumber task.datum.id l1HeadBlockNumber)
  | startExecution {key : Nat} {task : Task} : s.procs key = some task → task.state = .witnessed →
      Writes cfg s (.task key .startExecution) (.updateRequestStatus task.datum.id .execution)
  | complete {key : Nat} {task : Task} {proof : Bytes} : s.procs key = some task →
      task.state = .witnessed ∨ task.state = .executing →
      Writes cfg s (.task key (.complete proof)) (.updateProofToComplete task.datum.id proof)
  | prove {key : Nat} {task : Task} {proofId : Bytes32} : s.procs key = some task →
      task.state = .witnessed →
      Writes cfg s (.task key (.prove proofId)) (.updateRequestToProve task.datum.id proofId)
  | delete {answer : Answer} : s.main = .init .delete →
      Writes cfg s (.call answer) (.deleteAllRequestsWithStatuses
        [.unrequested, .execution, .witnessGeneration] cfg.scope.l1ChainId cfg.scope.l2ChainId)
  | cancel {answer : Answer} : s.main = .init .cancel →
      Writes cfg s (.call answer) (.cancelProveRequestsWithDifferentCommitmentConfig cfg.scope)
  | orphan {request : Request} {requests : List Request} :
      s.main = .orphan (.requests (request :: requests)) → s.tasks request.id = none →
      Writes cfg s (.call .ok) (.updateRequestStatus request.id .failed)
  | setFailed {request : Request} {unexecutable : Bool} {caller : RetryCaller} {answer : Answer} :
      s.main = .retry request (.setFailed unexecutable) caller →
      Writes cfg s (.call answer) (.updateRequestStatus request.id .failed)
  | insertHalves {request : Request} {caller : RetryCaller} {answer : Answer} :
      s.main = .retry request .insertHalves caller →
      Writes cfg s (.call answer) (.insertRequests (halves cfg request))
  | store {request : Request} {rest : List Request} {status : ProofStatus} {proof : Bytes} :
      s.main = .proving (.process (request :: rest)) → status.Delivers proof →
      Writes cfg s (.call (.proofStatus status)) (.updateProofToComplete request.id proof)
  | insertRanges {latestProposed : Nat} {rangesToProve : List BlockRange} :
      s.main = .add (.insert latestProposed rangesToProve) →
      Writes cfg s (.call .ok) (.insertRequests (rangesToProve.map fun range =>
        newRangeRequest cfg.scope cfg.mode range.1 range.2))
  | insertAgg {latestProposed : Nat} {highestProven number : Int} {hash : Bytes32} :
      s.main = .agg (.insert latestProposed highestProven number hash) →
      Writes cfg s (.call .ok) (.insertRequests
        [newAggRequest cfg.scope cfg.mode latestProposed highestProven number hash
          cfg.proverAddress])
  | setRelayed {request : Request} {transactionHash : Bytes32} :
      s.main = .submit (.setRelayed request transactionHash) →
      Writes cfg s (.call .ok)
        (.updateRequestToRelayed request.id transactionHash cfg.l2ooAddress)

variable {cfg : Config} {s t : Sys} {act : Act} {answer : Answer} {r r' : Request}

/-- The database after a step that writes at most once. -/
def Written (cfg : Config) (s : Sys) (act : Act) (db : Db) : Prop :=
  db = s.db ∨ ∃ w, Writes cfg s act w ∧ db = s.db.apply w

theorem task_written {key : Nat} {task : Task} {taskAct : TaskAct} {db : Db} {pc : TaskPc}
    (htask : s.procs key = some task) (h : taskStep cfg s.db task taskAct = some (db, pc)) :
    Written cfg s (.task key taskAct) db := by
  cases taskAct with
  | startWitnessGeneration =>
    obtain ⟨hstate, h⟩ := Option.ite_none_right_eq_some.mp h
    cases h
    exact .inr ⟨_, .startWitnessGeneration htask hstate, rfl⟩
  | updateL1HeadBlockNumber n =>
    obtain ⟨hstate, h⟩ := Option.ite_none_right_eq_some.mp h
    cases h
    exact .inr ⟨_, .l1Head htask hstate.1, rfl⟩
  | generateProofStdin =>
    obtain ⟨-, h⟩ := Option.ite_none_right_eq_some.mp h
    cases h
    exact .inl rfl
  | startExecution =>
    obtain ⟨hstate, h⟩ := Option.ite_none_right_eq_some.mp h
    cases h
    exact .inr ⟨_, .startExecution htask hstate.1, rfl⟩
  | complete proof =>
    obtain ⟨hstate, h⟩ := Option.ite_none_right_eq_some.mp h
    cases h
    refine .inr ⟨_, .complete htask ?_, rfl⟩
    rcases hstate with hstate | ⟨hstate, -⟩
    · exact .inr hstate
    · exact .inl hstate
  | prove proofId =>
    obtain ⟨hstate, h⟩ := Option.ite_none_right_eq_some.mp h
    cases h
    exact .inr ⟨_, .prove htask hstate.1, rfl⟩
  | fail =>
    obtain ⟨-, h⟩ := Option.ite_none_left_eq_some.mp h
    cases h
    exact .inl rfl

theorem processProofRequestStatus_written {request : Request} {rest : List Request}
    {status : ProofStatus} (hs : s.main = .proving (.process (request :: rest)))
    (h : processProofRequestStatus s request rest status = some t) :
    Written cfg s (.call (.proofStatus status)) t.db := by
  dsimp only [processProofRequestStatus] at h
  split at h
  · cases h
    exact .inl rfl
  · split at h
    · rename_i hfulfilled
      split at h <;> cases h <;> rename_i hproof
      · exact .inl rfl
      · exact .inr ⟨_, .store hs ⟨hfulfilled, by rw [hproof]; rfl⟩, rfl⟩
      · exact .inr ⟨_, .store hs ⟨hfulfilled, by rw [hproof]; rfl⟩, rfl⟩
      · exact .inr ⟨_, .store hs ⟨hfulfilled, by rw [hproof]; rfl⟩, rfl⟩
    · cases h
      exact .inl rfl
    · cases h
      exact .inl rfl

theorem mainStep_written (h : mainStep cfg s answer = some t) :
    Written cfg s (.call answer) t.db := by
  unfold mainStep at h
  split at h <;> rename_i hmain
  · cases h
  · cases h
    rename_i pc
    cases pc with
    | delete => exact .inr ⟨_, .delete hmain, rfl⟩
    | cancel => exact .inr ⟨_, .cancel hmain, rfl⟩
  · unfold ongoingStep at h
    (repeat' split at h) <;> cases h <;> exact .inl rfl
  · unfold orphanStep at h
    (repeat' split at h) <;> cases h <;> first | exact .inl rfl | skip
    rename_i hnone
    exact .inr ⟨_, .orphan hmain (by simpa using hnone), rfl⟩
  · unfold provingStep at h
    split at h
    · obtain ⟨-, h⟩ := Option.ite_none_right_eq_some.mp h
      cases h
      exact .inl rfl
    · cases h
      exact .inl rfl
    · obtain ⟨-, h⟩ := Option.ite_none_right_eq_some.mp h
      cases h
      exact .inl rfl
    · obtain ⟨-, h⟩ := Option.ite_none_right_eq_some.mp h
      exact processProofRequestStatus_written hmain h
    · cases h
  · cases h
    rename_i request pc caller
    cases pc with
    | setFailed unexecutable => exact .inr ⟨_, .setFailed hmain, rfl⟩
    | countFailed unexecutable => exact .inl rfl
    | insertHalves => exact .inr ⟨_, .insertHalves hmain, rfl⟩
  · unfold addStep at h
    dsimp only at h
    (repeat' split at h) <;> cases h <;> first | exact .inl rfl | skip
    exact .inr ⟨_, .insertRanges hmain, rfl⟩
  · unfold aggStep at h
    (repeat' split at h) <;> cases h <;> first | exact .inl rfl | skip
    exact .inr ⟨_, .insertAgg hmain, rfl⟩
  · unfold queueStep at h
    dsimp only at h
    (repeat' split at h) <;> cases h <;> exact .inl rfl
  · unfold submitStep at h
    (repeat' split at h) <;> cases h <;> first | exact .inl rfl | skip
    exact .inr ⟨_, .setRelayed hmain, rfl⟩

/-- **A step writes at most once.** -/
theorem step_written (h : step cfg s act = some t) : Written cfg s act t.db := by
  cases moves_of_step h with
  | task htask hstep => exact task_written htask hstep
  | call hcall => exact mainStep_written hcall
  | advance _ | restart | start _ _ | fail _ => exact .inl rfl

/-! ## Requests that are held -/

def RetryCaller.requests : RetryCaller → List Request
  | .ongoing _ => []
  | .proving proveRequests => proveRequests

/-- The requests the main loop holds. -/
def MainPc.requests : MainPc → List Request
  | .orphan (.executionRequests requests) | .orphan (.requests requests)
  | .proving (.process requests) => requests
  | .retry request _ caller => request :: caller.requests
  | .queue (.validate _ request) | .queue (.spawn request) | .queue (.insert _ request)
  | .submit (.relay request) | .submit (.setRelayed request _) => [request]
  | _ => []

/-- The main loop, a task or the map of the tasks holds the request. -/
def Sys.Holds (s : Sys) (r : Request) : Prop :=
  r ∈ s.main.requests ∨ (∃ key task, s.procs key = some task ∧ task.datum = r) ∨
    ∃ id key, s.tasks id = some (key, r)

/-- A request as its row is, or as it is held. -/
def Sys.Version (s : Sys) (r : Request) : Prop := s.db.rows r.id = some r ∨ s.Holds r

/-- What the main loop holds after a step was held by it or the map, or is read from a
row, and tasks and map hold nothing new. -/
structure MainHolds (s t : Sys) : Prop where
  main : ∀ r ∈ t.main.requests, s.Version r
  procs : t.procs = s.procs
  tasks : ∀ id key r, t.tasks id = some (key, r) → s.Holds r

theorem mainHolds_goto {main : MainPc} (h : ∀ r ∈ main.requests, s.Version r) :
    MainHolds s (s.goto main) :=
  ⟨h, rfl, fun id key _ hr => .inr (.inr ⟨id, key, hr⟩)⟩

theorem mainHolds_write {main : MainPc} (w : DbWrite) (h : ∀ r ∈ main.requests, s.Version r) :
    MainHolds s (s.write w main) :=
  ⟨h, rfl, fun id key _ hr => .inr (.inr ⟨id, key, hr⟩)⟩

theorem version_of_main {main : MainPc} (hmain : s.main = main) (h : r ∈ main.requests) :
    s.Version r := .inr (.inl (hmain ▸ h))

theorem version_of_select {p : Request → Bool} (h : r ∈ s.db.select p) : s.Version r :=
  .inl (Db.mem_select.mp h).1

theorem requests_onOk (caller : RetryCaller) : caller.onOk.requests = caller.requests := by
  cases caller <;> rfl

theorem ongoingStep_holds {pc : OngoingPc} (hs : s.main = .ongoing pc)
    (h : ongoingStep s pc answer = some t) : MainHolds s t := by
  unfold ongoingStep at h
  split at h
  · obtain ⟨-, h⟩ := Option.ite_none_right_eq_some.mp h
    cases h
    exact mainHolds_goto fun _ hr => by cases hr
  · cases h
    exact mainHolds_goto fun _ hr => by cases hr
  · rename_i id completed
    split at h
    · cases h
      exact mainHolds_goto fun _ hr => by cases hr
    · rename_i key request htask
      split at h
      · rename_i ok hproc
        cases h
        have htasks : ∀ i k r, Function.update s.tasks id none i = some (k, r) → s.Holds r := by
          intro i k r hr
          rcases update_eq_some hr with ⟨-, hnew⟩ | ⟨-, hold⟩
          · cases hnew
          · exact .inr (.inr ⟨i, k, hold⟩)
        refine ⟨fun r hr => ?_, rfl, htasks⟩
        cases ok with
        | true => cases hr
        | false =>
          obtain rfl := List.mem_singleton.mp hr
          exact .inr (.inr (.inr ⟨id, key, htask⟩))
      · cases h
  · cases h

theorem orphanStep_holds {pc : OrphanPc} (hs : s.main = .orphan pc)
    (h : orphanStep cfg s pc answer = some t) : MainHolds s t := by
  unfold orphanStep at h
  split at h
  · obtain ⟨hperm, h⟩ := Option.ite_none_right_eq_some.mp h
    cases h
    exact mainHolds_goto fun r hr => version_of_select (hperm.mem_iff.mp hr)
  · rename_i witnessgenRequests rows
    obtain ⟨hperm, h⟩ := Option.ite_none_right_eq_some.mp h
    cases h
    refine mainHolds_goto fun r hr => ?_
    rcases List.mem_append.mp hr with hr | hr
    · exact version_of_main hs hr
    · exact version_of_select (hperm.mem_iff.mp hr)
  · cases h
    exact mainHolds_goto fun _ hr => by cases hr
  · rename_i request requests
    have hrest : ∀ r ∈ requests, s.Version r :=
      fun r hr => version_of_main hs (List.mem_cons_of_mem request hr)
    split at h
    · cases h
      exact mainHolds_goto hrest
    · cases h
      exact mainHolds_write _ hrest
  · cases h

theorem provingStep_holds {pc : ProvingPc} (hs : s.main = .proving pc)
    (h : provingStep cfg s pc answer = some t) : MainHolds s t := by
  unfold provingStep at h
  split at h
  · obtain ⟨hperm, h⟩ := Option.ite_none_right_eq_some.mp h
    cases h
    exact mainHolds_goto fun r hr => version_of_select (hperm.mem_iff.mp hr)
  · cases h
    exact mainHolds_goto fun _ hr => by cases hr
  · rename_i request rest
    obtain ⟨-, h⟩ := Option.ite_none_right_eq_some.mp h
    cases h
    exact mainHolds_goto fun r hr => version_of_main hs (List.mem_cons_of_mem request hr)
  · rename_i request rest status
    obtain ⟨-, h⟩ := Option.ite_none_right_eq_some.mp h
    have hrest : ∀ r ∈ rest, s.Version r :=
      fun r hr => version_of_main hs (List.mem_cons_of_mem request hr)
    have hall : ∀ r ∈ request :: rest, s.Version r := fun r hr => version_of_main hs hr
    dsimp only [processProofRequestStatus] at h
    (repeat' split at h) <;> cases h
    · exact mainHolds_goto hall
    · exact mainHolds_goto fun _ hr => by cases hr
    · exact mainHolds_write _ hrest
    · exact mainHolds_write _ hrest
    · exact mainHolds_write _ hrest
    · exact mainHolds_goto hall
    · exact mainHolds_goto hrest
  · cases h

theorem retryStep_holds {request : Request} {pc : RetryPc} {caller : RetryCaller}
    (hs : s.main = .retry request pc caller) : MainHolds s (retryStep cfg s request caller pc) := by
  have hall : ∀ r ∈ request :: caller.requests, s.Version r := fun r hr => version_of_main hs hr
  have hcaller : ∀ r ∈ caller.onOk.requests, s.Version r := by
    rw [requests_onOk]
    exact fun r hr => hall r (List.mem_cons_of_mem request hr)
  cases pc with
  | setFailed unexecutable => exact mainHolds_write _ hall
  | countFailed unexecutable =>
    rw [retryStep]
    split
    · exact mainHolds_goto hall
    · exact mainHolds_goto hcaller
  | insertHalves => exact mainHolds_write _ hcaller

theorem addStep_holds {pc : AddPc} (h : addStep cfg s pc answer = some t) : MainHolds s t := by
  unfold addStep at h
  dsimp only at h
  (repeat' split at h) <;> cases h <;>
    exact ⟨fun _ hr => (by cases hr), rfl, fun id key _ hr => .inr (.inr ⟨id, key, hr⟩)⟩

theorem aggStep_holds {pc : AggPc} (h : aggStep cfg s pc answer = some t) : MainHolds s t := by
  unfold aggStep at h
  (repeat' split at h) <;> cases h <;>
    exact ⟨fun _ hr => (by cases hr), rfl, fun id key _ hr => .inr (.inr ⟨id, key, hr⟩)⟩

theorem submitStep_holds {pc : SubmitPc} (hs : s.main = .submit pc)
    (h : submitStep cfg s pc answer = some t) : MainHolds s t := by
  unfold submitStep at h
  split at h
  · cases h
    exact mainHolds_goto fun _ hr => by cases hr
  · obtain ⟨-, h⟩ := Option.ite_none_right_eq_some.mp h
    cases h
    exact mainHolds_goto fun _ hr => by cases hr
  · rename_i latestProposed completedAggProof
    obtain ⟨hmem, h⟩ := Option.ite_none_right_eq_some.mp h
    cases h
    refine mainHolds_goto fun r hr => ?_
    obtain rfl := List.mem_singleton.mp hr
    exact version_of_select hmem
  · obtain ⟨-, h⟩ := Option.ite_none_right_eq_some.mp h
    cases h
    exact mainHolds_goto fun r hr => version_of_main hs hr
  · cases h
    exact mainHolds_write _ fun _ hr => by cases hr
  · cases h

/-- `request_queued_proofs` may spawn a task on the request it holds. -/
theorem queueStep_holds {pc : QueuePc} (hs : s.main = .queue pc)
    (h : queueStep cfg s pc answer = some t) (hr : t.Holds r) : s.Version r := by
  have hkeep (main : MainPc) (hmain : ∀ r ∈ main.requests, s.Version r)
      (hr : (s.goto main).Holds r) : s.Version r := by
    rcases hr with hr | hr
    · exact hmain r hr
    · exact .inr (.inr hr)
  unfold queueStep at h
  split at h
  · cases h
    exact hkeep _ (fun _ hr => by cases hr) hr
  · cases h
    exact hkeep _ (fun _ hr => by cases hr) hr
  · dsimp only at h
    (repeat' split at h) <;> cases h <;> exact hkeep _ (fun _ hr => by cases hr) hr
  · cases h
    exact hkeep _ (fun _ hr => by cases hr) hr
  · rename_i latestProposed selected
    obtain ⟨hfirst, h⟩ := Option.ite_none_right_eq_some.mp h
    cases selected with
    | none =>
      cases h
      exact hkeep _ (fun _ hr => by cases hr) hr
    | some request =>
      cases h
      refine hkeep _ (fun r hr => ?_) hr
      obtain rfl := List.mem_singleton.mp hr
      exact version_of_select (Db.mem_of_isFirstByStart hfirst)
  · rename_i latestProposed request rangeProofs
    obtain ⟨-, h⟩ := Option.ite_none_right_eq_some.mp h
    cases h
    refine hkeep _ (fun r hr => ?_) hr
    split at hr
    · exact version_of_main hs hr
    · cases hr
  · rename_i latestProposed selected
    obtain ⟨hfirst, h⟩ := Option.ite_none_right_eq_some.mp h
    cases selected with
    | none =>
      cases h
      exact hkeep _ (fun _ hr => by cases hr) hr
    | some request =>
      cases h
      refine hkeep _ (fun r hr => ?_) hr
      obtain rfl := List.mem_singleton.mp hr
      exact version_of_select (Db.mem_of_isFirstByStart hfirst)
  · rename_i request
    cases h
    rcases hr with hr | ⟨key, task, htask, rfl⟩ | hr
    · exact version_of_main hs hr
    · rcases update_eq_some htask with ⟨-, hnew⟩ | ⟨-, hold⟩
      · cases hnew
        exact version_of_main hs (List.mem_singleton_self _)
      · exact .inr (.inr (.inl ⟨key, task, hold, rfl⟩))
    · exact .inr (.inr (.inr hr))
  · rename_i key request
    cases h
    rcases hr with hr | hr | ⟨id, key', htask⟩
    · cases hr
    · exact .inr (.inr (.inl hr))
    · rcases update_eq_some htask with ⟨-, hnew⟩ | ⟨-, hold⟩
      · cases hnew
        exact version_of_main hs (List.mem_singleton_self _)
      · exact .inr (.inr (.inr ⟨id, key', hold⟩))
  · cases h

theorem MainHolds.version (h : MainHolds s t) (hr : t.Holds r) : s.Version r := by
  rcases hr with hr | hr | ⟨id, key, hr⟩
  · exact h.main r hr
  · rw [h.procs] at hr
    exact .inr (.inr (.inl hr))
  · exact .inr (h.tasks id key r hr)

theorem mainStep_holds (h : mainStep cfg s answer = some t) (hr : t.Holds r) : s.Version r := by
  unfold mainStep at h
  split at h <;> rename_i hmain
  · cases h
  · cases h
    rename_i pc
    have hinit : MainHolds s (initStep cfg s pc) := by
      cases pc <;> exact mainHolds_write _ fun _ hr => by cases hr
    exact hinit.version hr
  · exact (ongoingStep_holds hmain h).version hr
  · exact (orphanStep_holds hmain h).version hr
  · exact (provingStep_holds hmain h).version hr
  · cases h
    exact (retryStep_holds hmain).version hr
  · exact (addStep_holds h).version hr
  · exact (aggStep_holds h).version hr
  · exact queueStep_holds hmain h hr
  · exact (submitStep_holds hmain h).version hr

theorem requests_of_atStart {main : MainPc} (h : main.AtStart) : main.requests = [] := by
  unfold MainPc.AtStart at h
  split at h <;> first | rfl | cases h

/-- **What is held after a step** was held before it, or is read by it. -/
theorem step_holds (h : step cfg s act = some t) (hr : t.Holds r) : s.Version r := by
  -- At a start the main loop holds nothing.
  have hstart {main : MainPc} (hmain : main.AtStart) (hr : (s.goto main).Holds r) :
      s.Version r := by
    rcases hr with hr | hr
    · rw [show (s.goto main).main.requests = [] from requests_of_atStart hmain] at hr
      cases hr
    · exact .inr (.inr hr)
  cases moves_of_step h with
  | advance _ => exact .inr hr
  | restart => rcases hr with hr | ⟨key, task, hr, -⟩ | ⟨id, key, hr⟩ <;> cases hr
  | @task key task _ _ _ htask _ =>
    rcases hr with hr | ⟨key', task', hr, rfl⟩ | hr
    · exact .inr (.inl hr)
    · rcases update_eq_some hr with ⟨-, hnew⟩ | ⟨-, hold⟩
      · cases hnew
        exact .inr (.inr (.inl ⟨key, task, htask, rfl⟩))
      · exact .inr (.inr (.inl ⟨key', task', hold, rfl⟩))
    · exact .inr (.inr (.inr hr))
  | start f _ => exact hstart (atStart_entry cfg f) hr
  | fail hnext => exact hstart (atStart_onErr hnext) hr
  | call hcall => exact mainStep_holds hcall hr

/-! ## Versions agree -/

/-- **A version after a step** is one from before, what the step's write makes of a row, or
an inserted row. -/
theorem version_step (h : step cfg s act = some t) (hr : t.Version r') :
    s.Version r' ∨ (∃ w r, Writes cfg s act w ∧ s.db.rows r.id = some r ∧ r' = w.onRow r) ∨
      ∃ requests r, Writes cfg s act (.insertRequests requests) ∧ r ∈ requests ∧
        s.db.nextId ≤ r'.id ∧ t.db.rows r'.id = some r' ∧ r' = { r with id := r'.id } := by
  rcases hr with hr | hr
  · rcases step_written h with hdb | ⟨w, hw, hdb⟩
    · exact .inl (.inl (hdb ▸ hr))
    · rcases rows_apply_back (hdb ▸ hr) with ⟨r, hrow, heq⟩ | ⟨requests, r, rfl, hmem, hid, heq⟩
      · exact .inr (.inl ⟨w, r, hw, s.db.id_eq _ r hrow ▸ hrow, heq⟩)
      · exact .inr (.inr ⟨requests, r, hw, hmem, hid, hr, heq⟩)
  · exact .inl (step_holds h hr)

/-- **All versions of a request agree** on what is to be proved, and its id was given
out. -/
structure Sys.VersionsAgree (s : Sys) : Prop where
  id_lt : ∀ r, s.Version r → r.id < s.db.nextId
  same : ∀ r r', s.Version r → s.Version r' → r.id = r'.id → SameInputs r r'

theorem Db.id_lt {db : Db} {i : Nat} (h : db.rows i = some r) : i < db.nextId := by
  by_contra hlt
  rw [db.fresh i (by omega)] at h
  cases h

theorem versionsAgree_start (db : Db) (latest : Nat) : (Sys.start db latest).VersionsAgree := by
  have hrow : ∀ r, (Sys.start db latest).Version r → db.rows r.id = some r := by
    rintro r (hr | hr | ⟨key, task, hr, -⟩ | ⟨id, key, hr⟩)
    · exact hr
    · cases hr
    · cases hr
    · cases hr
  refine ⟨fun r hr => Db.id_lt (hrow r hr), fun r r' hr hr' hid => ?_⟩
  have heq : some r = some r' := by rw [← hrow r hr, ← hrow r' hr', hid]
  exact Option.some.inj heq ▸ SameInputs.refl r

theorem nextId_step (h : step cfg s act = some t) : s.db.nextId ≤ t.db.nextId := by
  rcases step_written h with hdb | ⟨w, -, hdb⟩
  · rw [hdb]
  · rw [hdb]
    exact nextId_apply s.db w

/-- A version of a request that was there goes back to an earlier version. -/
theorem version_back (h : step cfg s act = some t) (hr : t.Version r') :
    (∃ r, s.Version r ∧ SameInputs r r') ∨ s.db.nextId ≤ r'.id ∧ t.db.rows r'.id = some r' := by
  rcases version_step h hr with hold | ⟨w, r, -, hrow, rfl⟩ | ⟨requests, r, -, -, hid, hrow, -⟩
  · exact .inl ⟨r', hold, SameInputs.refl r'⟩
  · exact .inl ⟨r, .inl hrow, sameInputs_onRow r w⟩
  · exact .inr ⟨hid, hrow⟩

theorem versionsAgree_step (hs : s.VersionsAgree) (h : step cfg s act = some t) :
    t.VersionsAgree := by
  have hnext := nextId_step h
  refine ⟨fun r hr => ?_, fun r r' hr hr' hid => ?_⟩
  · rcases version_back h hr with ⟨r₀, hr₀, hsame⟩ | ⟨-, hrow⟩
    · have hlt := hs.id_lt r₀ hr₀
      rw [hsame.id]
      omega
    · exact Db.id_lt hrow
  · rcases version_back h hr with ⟨r₀, hr₀, hsame⟩ | ⟨hlt, hrow⟩
    · have hlt := hs.id_lt r₀ hr₀
      have heq := hsame.id
      rcases version_back h hr' with ⟨r₀', hr₀', hsame'⟩ | ⟨hlt', -⟩
      · have hboth := hs.same r₀ r₀' hr₀ hr₀' (by rw [← hsame.id, hid, hsame'.id])
        exact hsame.symm.trans (hboth.trans hsame')
      · omega
    · rcases version_back h hr' with ⟨r₀', hr₀', hsame'⟩ | ⟨-, hrow'⟩
      · have hlt' := hs.id_lt r₀' hr₀'
        have heq := hsame'.id
        omega
      · rw [hid, hrow'] at hrow
        exact Option.some.inj hrow ▸ SameInputs.refl r

/-! ## Where tasks and `create_aggregation_proofs` come from -/

/-- A task after a step was there before, or is spawned on a request that is held. -/
theorem procs_step {key : Nat} {task' : Task} (h : step cfg s act = some t)
    (htask' : t.procs key = some task') :
    s.procs key = some task' ∨
      (∃ task taskAct db pc, act = .task key taskAct ∧ s.procs key = some task ∧
        taskStep cfg s.db task taskAct = some (db, pc) ∧ task' = ⟨task.datum, pc⟩) ∨
      ∃ request, s.main = .queue (.spawn request) ∧ task' = ⟨request, .spawned⟩ := by
  cases moves_of_step h with
  | advance _ | start _ _ | fail _ => exact .inl htask'
  | restart => cases htask'
  | task htask hstep =>
    rcases update_eq_some htask' with ⟨rfl, hnew⟩ | ⟨-, hold⟩
    · cases hnew
      exact .inr (.inl ⟨_, _, _, _, rfl, htask, hstep, rfl⟩)
    · exact .inl hold
  | call h =>
    unfold mainStep at h
    split at h <;> rename_i hmain
    · cases h
    · cases h
      rename_i pc
      cases pc <;> exact .inl htask'
    · exact .inl ((ongoingStep_holds hmain h).procs ▸ htask')
    · exact .inl ((orphanStep_holds hmain h).procs ▸ htask')
    · exact .inl ((provingStep_holds hmain h).procs ▸ htask')
    · cases h
      have hholds : MainHolds s (retryStep cfg s _ _ _) := retryStep_holds hmain
      exact .inl (hholds.procs ▸ htask')
    · exact .inl ((addStep_holds h).procs ▸ htask')
    · exact .inl ((aggStep_holds h).procs ▸ htask')
    · unfold queueStep at h
      dsimp only at h
      (repeat' split at h) <;> cases h <;> first | exact .inl htask' | skip
      rename_i request
      rcases update_eq_some htask' with ⟨-, hnew⟩ | ⟨-, hold⟩
      · exact .inr (.inr ⟨request, hmain, (Option.some.inj hnew).symm⟩)
      · exact .inl hold
    · exact .inl ((submitStep_holds hmain h).procs ▸ htask')

/-- The function of the loop the main loop is in. -/
def MainPc.fn : MainPc → Option LoopFn
  | .init _ | .idle => none
  | .ongoing _ | .retry _ _ (.ongoing _) => some .handleOngoingTasks
  | .orphan _ => some .setOrphanedTasksToFailed
  | .proving _ | .retry _ _ (.proving _) => some .handleProvingRequests
  | .add _ => some .addNewRanges
  | .agg _ => some .createAggregationProofs
  | .queue _ => some .requestQueuedProofs
  | .submit _ => some .submitAggProofs

theorem fn_onOk (request : Request) (pc : RetryPc) (caller : RetryCaller) :
    caller.onOk.fn = MainPc.fn (.retry request pc caller) := by
  cases caller <;> rfl

/-- A call of a function stays in it, or returns to the loop. -/
theorem mainStep_fn {f : LoopFn} (h : mainStep cfg s answer = some t) (hfn : t.main.fn = some f) :
    s.main.fn = some f := by
  unfold mainStep at h
  split at h <;> rename_i hmain <;> rw [hmain]
  · cases h
  · cases h
    rename_i pc
    cases pc <;> cases hfn
  · unfold ongoingStep at h
    (repeat' split at h) <;> cases h <;> first | exact hfn | cases hfn
  · unfold orphanStep at h
    (repeat' split at h) <;> cases h <;> first | exact hfn | cases hfn
  · unfold provingStep processProofRequestStatus at h
    dsimp only at h
    (repeat' split at h) <;> cases h <;> first | exact hfn | cases hfn
  · cases h
    rename_i request pc caller
    have hretry (pc' : RetryPc) : MainPc.fn (.retry request pc' caller) = caller.onOk.fn :=
      (fn_onOk request pc' caller).symm
    rw [hretry]
    cases pc with
    | setFailed unexecutable => exact (hretry (.countFailed unexecutable)).symm.trans hfn
    | countFailed unexecutable =>
      rw [retryStep] at hfn
      split at hfn
      · exact (hretry .insertHalves).symm.trans hfn
      · exact hfn
    | insertHalves => exact hfn
  · unfold addStep at h
    dsimp only at h
    (repeat' split at h) <;> cases h <;> first | exact hfn | cases hfn
  · unfold aggStep at h
    (repeat' split at h) <;> cases h <;> first | exact hfn | cases hfn
  · unfold queueStep at h
    dsimp only at h
    (repeat' split at h) <;> cases h <;> first | exact hfn | cases hfn
  · unfold submitStep at h
    (repeat' split at h) <;> cases h <;> first | exact hfn | cases hfn

/-- A function starts at its own first call, or not at all. -/
theorem entry_fn {f f' : LoopFn} (h : (f'.entry cfg).fn = some f) : f' = f := by
  cases f' with
  | handleProvingRequests =>
    rw [LoopFn.entry] at h
    split at h
    · cases h
    · exact Option.some.inj h
  | _ => exact Option.some.inj h

/-- **How the main loop gets to a point of a function**: it is there already, by a call of
the function, by its start, or by the failure of a call in `handle_failed_request`. -/
theorem step_fn {f : LoopFn} (h : step cfg s act = some t) (hfn : t.main.fn = some f) :
    (t.main = s.main ∧ ∀ answer, act ≠ .call answer) ∨
      (∃ answer, act = .call answer ∧ s.main.fn = some f ∧ mainStep cfg s answer = some t) ∨
      (act = .start f ∧ t.main = f.entry cfg) ∨
      ∃ completed, act = .fail ∧ t.main = .ongoing (.process completed) := by
  cases moves_of_step h with
  | advance _ | task _ _ => exact .inl ⟨rfl, fun _ h => by cases h⟩
  | restart => cases hfn
  | start f' _ =>
    obtain rfl := entry_fn hfn
    exact .inr (.inr (.inl ⟨rfl, rfl⟩))
  | @fail next hnext =>
    have hfn : next.fn = some f := hfn
    cases hs : s.main with
    | queue pc => rw [hs] at hnext; cases pc <;> cases hnext <;> cases hfn
    | retry request pc caller =>
      rw [hs] at hnext
      cases caller with
      | ongoing completed =>
        cases hnext
        exact .inr (.inr (.inr ⟨completed, rfl, rfl⟩))
      | proving rest =>
        cases hnext
        cases hfn
    | idle | ongoing pc => rw [hs] at hnext; cases hnext
    | _ => rw [hs] at hnext; cases hnext; cases hfn
  | call hcall => exact .inr (.inl ⟨_, rfl, mainStep_fn hcall hfn, hcall⟩)

theorem agg_of_fn {main : MainPc} (h : main.fn = some .createAggregationProofs) :
    ∃ pc, main = .agg pc := by
  cases main with
  | agg pc => exact ⟨pc, rfl⟩
  | retry request pc caller => cases caller <;> cases h
  | _ => cases h

theorem submit_of_fn {main : MainPc} (h : main.fn = some .submitAggProofs) :
    ∃ pc, main = .submit pc := by
  cases main with
  | submit pc => exact ⟨pc, rfl⟩
  | retry request pc caller => cases caller <;> cases h
  | _ => cases h

theorem orphan_of_fn {main : MainPc} (h : main.fn = some .setOrphanedTasksToFailed) :
    ∃ pc, main = .orphan pc := by
  cases main with
  | orphan pc => exact ⟨pc, rfl⟩
  | retry request pc caller => cases caller <;> cases h
  | _ => cases h

/-- `create_aggregation_proofs` gets to a point by its own calls. -/
theorem agg_step {pc : AggPc} (h : step cfg s act = some t) (hmain' : t.main = .agg pc) :
    s.main = .agg pc ∧ (∀ answer, act ≠ .call answer) ∨
      (∃ pc' answer, act = .call answer ∧ s.main = .agg pc' ∧ aggStep cfg s pc' answer = some t) ∨
      act = .start .createAggregationProofs ∧ pc = .latest := by
  have hfn : t.main.fn = some .createAggregationProofs := by rw [hmain']; rfl
  rcases step_fn h hfn with ⟨hsame, hcall⟩ | ⟨answer, rfl, hs, hcall⟩ | ⟨rfl, hentry⟩ |
    ⟨completed, -, hongoing⟩
  · exact .inl ⟨hsame.symm.trans hmain', hcall⟩
  · obtain ⟨pc', hpc⟩ := agg_of_fn hs
    rw [mainStep, hpc] at hcall
    exact .inr (.inl ⟨pc', answer, rfl, hpc, hcall⟩)
  · cases hmain'.symm.trans hentry
    exact .inr (.inr ⟨rfl, rfl⟩)
  · cases hmain'.symm.trans hongoing

/-- The request `submit_agg_proofs` submits. -/
def MainPc.submitted : MainPc → Option Request
  | .submit (.relay request) | .submit (.setRelayed request _) => some request
  | _ => none

/-- What is submitted is a completed aggregation request. -/
def Sys.SubmitsCompleted (s : Sys) : Prop :=
  ∀ request, s.main.submitted = some request →
    request.reqType = .aggregation ∧ request.status = .complete

theorem submitStep_completed {pc : SubmitPc} (hs : s.SubmitsCompleted) (hmain : s.main = .submit pc)
    (h : submitStep cfg s pc answer = some t) : t.SubmitsCompleted := by
  intro request hsubmitted
  unfold submitStep at h
  split at h
  · cases h
    cases hsubmitted
  · obtain ⟨-, h⟩ := Option.ite_none_right_eq_some.mp h
    cases h
    cases hsubmitted
  · obtain ⟨hmem, h⟩ := Option.ite_none_right_eq_some.mp h
    cases h
    cases hsubmitted
    obtain ⟨-, -, htype, hstatus⟩ := mem_inStatus hmem
    exact ⟨htype, hstatus⟩
  · obtain ⟨-, h⟩ := Option.ite_none_right_eq_some.mp h
    cases h
    cases hsubmitted
    exact hs _ (by rw [hmain]; rfl)
  · cases h
    cases hsubmitted
  · cases h

theorem submitted_of_atStart {main : MainPc} (h : main.AtStart) : main.submitted = none := by
  unfold MainPc.AtStart at h
  split at h <;> first | rfl | cases h

theorem submit_of_submitted {main : MainPc} {request : Request}
    (h : main.submitted = some request) : main.fn = some .submitAggProofs := by
  unfold MainPc.submitted at h
  split at h <;> first | rfl | cases h

theorem submitsCompleted_step (hs : s.SubmitsCompleted) (h : step cfg s act = some t) :
    t.SubmitsCompleted := by
  have hstart {main : MainPc} (hmain : main.AtStart) : (s.goto main).SubmitsCompleted := by
    intro request hsubmitted
    rw [show (s.goto main).main.submitted = none from submitted_of_atStart hmain] at hsubmitted
    cases hsubmitted
  cases moves_of_step h with
  | advance _ | task _ _ => exact hs
  | restart =>
    intro request hsubmitted
    cases hsubmitted
  | start f _ => exact hstart (atStart_entry cfg f)
  | fail hnext => exact hstart (atStart_onErr hnext)
  | call hcall =>
    intro request hsubmitted
    obtain ⟨pc, hpc⟩ := submit_of_fn (mainStep_fn hcall (submit_of_submitted hsubmitted))
    rw [mainStep, hpc] at hcall
    exact submitStep_completed hs hpc hcall request hsubmitted

/-- The checkpoint of an aggregation request is that of a failed one for the same blocks, or
a new one. -/
theorem insertAgg_step {latestProposed : Nat} {highestProven number : Int} {hash : Bytes32}
    (h : step cfg s act = some t)
    (hmain' : t.main = .agg (.insert latestProposed highestProven number hash)) :
    s.main = .agg (.insert latestProposed highestProven number hash) ∧
        (∀ answer, act ≠ .call answer) ∨
      (∃ r, s.db.rows r.id = some r ∧ r.reqType = .aggregation ∧ r.startBlock = latestProposed ∧
        r.endBlock = highestProven ∧ r.checkpointedL1BlockNumber = some number ∧
        r.checkpointedL1BlockHash = some hash) ∨
      s.main = .agg (.checkpoint latestProposed highestProven) ∧
        act = .call (.checkpointed number hash) := by
  rcases agg_step h hmain' with hsame | ⟨pc, answer, rfl, hs, hstep⟩ | ⟨-, hpc⟩
  · exact .inl hsame
  · unfold aggStep at hstep
    split at hstep
    · cases hstep
      cases hmain'
    · cases hstep
      split at hmain' <;> cases hmain'
    · obtain ⟨-, hstep⟩ := Option.ite_none_right_eq_some.mp hstep
      split at hstep <;> cases hstep <;> cases hmain'
    · cases hstep
      split at hmain' <;> cases hmain'
    · obtain ⟨-, hstep⟩ := Option.ite_none_right_eq_some.mp hstep
      cases hstep
      cases hmain'
    · obtain ⟨hmem, hstep⟩ := Option.ite_none_right_eq_some.mp hstep
      split at hstep
      · rename_i hhash hnumber
        cases hstep
        cases hmain'
        obtain ⟨hrow, hp⟩ := Db.mem_select.mp hmem
        simp only [Bool.and_eq_true, decide_eq_true_eq, beq_iff_eq] at hp
        exact .inr (.inl ⟨_, hrow, hp.1.1.2, hp.2.1.1.1.2, hp.2.1.1.2, hnumber, hhash⟩)
      · cases hstep
    · cases hstep
      cases hmain'
      exact .inr (.inr ⟨hs, rfl⟩)
    · cases hstep
      cases hmain'
    · cases hstep
  · cases hpc

end OpSuccinct.Validity
