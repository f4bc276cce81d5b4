import OpSuccinct.RequestsDb
import OpSuccinct.WorkerFleet
import OpSuccinct.LoopRuns

/-! # The validity proposer

The main loop of `validity/src/proposer.rs` and the `make_proof_request` tasks it
spawns, as one machine.  A step is one call of the database, of a chain or of the
prover, with what is computed from its answer before the next call, so that tasks
and main loop interleave at every call.  A call either takes effect and answers or
fails and does nothing.

An answer that the state of the machine does not determine is part of the step's
label: what a chain or the prover says, and the order of rows a query leaves open.
A block number fits an `i64`.  The loop calls its functions in one order and starts
anew after an error; here any function may follow any other.
-/
namespace OpSuccinct.Validity

/-- `as i64` of a `u64`. -/
def asI64 (n : Nat) : Int := if n < 2 ^ 63 then n else n - 2 ^ 64

/-- What the configuration and the contract addresses fix. -/
structure Config where
  scope : Scope
  mock : Bool
  useLocalProving : Bool
  rangeProofInterval : Nat
  submissionInterval : Nat
  maxConcurrentWitnessGen : Nat
  maxConcurrentProofRequests : Nat
  proverAddress : Address
  l2ooAddress : Address

def Config.mode (cfg : Config) : RequestMode := if cfg.mock then .mock else .real

/-- The configured commitments with the chains of a request. -/
def Config.scopeOf (cfg : Config) (request : Request) : Scope :=
  { cfg.scope with l1ChainId := request.l1ChainId, l2ChainId := request.l2ChainId }

/-! ## Tasks -/

/-- Where a `make_proof_request` task is. -/
inductive TaskPc
  /-- Before the write of `WitnessGeneration`. -/
  | spawned
  /-- In `generate_proof_stdin`, with the L1 head block number written or not. -/
  | fetching (l1HeadWritten : Bool)
  | witnessed
  /-- In mock mode, after the write of `Execution`. -/
  | executing
  | finished (ok : Bool)
  deriving DecidableEq

abbrev Task := Fleets.Worker Request TaskPc

inductive TaskAct
  | startWitnessGeneration
  | updateL1HeadBlockNumber (l1HeadBlockNumber : Int)
  | generateProofStdin
  | startExecution
  | complete (proof : Bytes)
  | prove (proofId : Bytes32)
  /-- An error or a panic. -/
  | fail

/-- What `generate_proof_stdin` unwraps is there. -/
def stdinReady (cfg : Config) (db : Db) (request : Request) : Bool :=
  match request.reqType with
  | .range => true
  | .aggregation =>
    request.checkpointedL1BlockHash.isSome && request.proverAddress.isSome &&
      (db.getConsecutiveCompleteRangeProofs (cfg.scopeOf request) request.startBlock
        request.endBlock).all fun r => r.proof.isSome

/-- **`make_proof_request`**, one call at a time. -/
def taskStep (cfg : Config) (db : Db) (task : Task) : TaskAct → Option (Db × TaskPc)
  | .startWitnessGeneration =>
    if task.state = .spawned then
      some (db.apply (.updateRequestStatus task.datum.id .witnessGeneration), .fetching false)
    else none
  | .updateL1HeadBlockNumber l1HeadBlockNumber =>
    if task.state = .fetching false ∧ task.datum.reqType = .range then
      some (db.apply (.updateL1HeadBlockNumber task.datum.id l1HeadBlockNumber), .fetching true)
    else none
  | .generateProofStdin =>
    if (task.state = .fetching false ∨ task.state = .fetching true) ∧
        stdinReady cfg db task.datum then
      some (db, .witnessed)
    else none
  | .startExecution =>
    if task.state = .witnessed ∧ cfg.mock then
      some (db.apply (.updateRequestStatus task.datum.id .execution), .executing)
    else none
  | .complete proof =>
    if task.state = .executing ∨ task.state = .witnessed ∧ ¬ cfg.mock ∧ cfg.useLocalProving then
      some (db.apply (.updateProofToComplete task.datum.id proof), .finished true)
    else none
  | .prove proofId =>
    if task.state = .witnessed ∧ ¬ cfg.mock ∧ ¬ cfg.useLocalProving then
      some (db.apply (.updateRequestToProve task.datum.id proofId), .finished true)
    else none
  | .fail =>
    if task.state = .finished true ∨ task.state = .finished false then none
    else some (db, .finished false)

/-! ## Where the main loop is -/

inductive LoopFn
  | handleOngoingTasks
  | setOrphanedTasksToFailed
  | handleProvingRequests
  | addNewRanges
  | createAggregationProofs
  | requestQueuedProofs
  | submitAggProofs

/-- In `initialize_proposer`. -/
inductive InitPc
  | delete
  | cancel

/-- In `handle_ongoing_tasks`. -/
inductive OngoingPc
  | scan
  | process (completed : List Nat)

/-- In `set_orphaned_tasks_to_failed`. -/
inductive OrphanPc
  | witnessgenRequests
  | executionRequests (witnessgenRequests : List Request)
  | requests (requests : List Request)

/-- In `handle_proving_requests`. -/
inductive ProvingPc
  | fetch
  | process (proveRequests : List Request)

/-- In `handle_failed_request`. -/
inductive RetryPc
  | setFailed (unexecutable : Bool)
  | countFailed (unexecutable : Bool)
  | insertHalves

/-- The caller of `handle_failed_request`, with what it has left to do. -/
inductive RetryCaller
  | ongoing (completed : List Nat)
  | proving (proveRequests : List Request)

/-- In `add_new_ranges`. -/
inductive AddPc
  | latest
  | finalized (latestProposed : Nat)
  | fetch (latestProposed finalizedBlock : Nat)
  | insert (latestProposed : Nat) (rangesToProve : List BlockRange)

/-- In `create_aggregation_proofs`. -/
inductive AggPc
  | latest
  | activeCount (latestProposed : Nat)
  | completedRanges (latestProposed : Nat)
  | submissionInterval (latestProposed : Nat) (highestProven : Int)
  | existing (latestProposed : Nat) (highestProven : Int)
  | checkpoint (latestProposed : Nat) (highestProven : Int)
  | insert (latestProposed : Nat) (highestProven l1BlockNumber : Int) (l1BlockHash : Bytes32)

/-- In `request_queued_proofs`. -/
inductive QueuePc
  | witnessGenCount
  | executionCount (witnessGenCount : Nat)
  | proveCount (witnessGenCount executionCount : Nat)
  | latest
  | aggProof (latestProposed : Nat)
  | validate (latestProposed : Nat) (request : Request)
  | rangeProof (latestProposed : Nat)
  | spawn (request : Request)
  /-- The task is spawned, and not yet in the map. -/
  | insert (key : Nat) (request : Request)

/-- In `submit_agg_proofs`. -/
inductive SubmitPc
  | latest
  | fetch (latestProposed : Nat)
  | relay (request : Request)
  | setRelayed (request : Request) (transactionHash : Bytes32)

inductive MainPc
  | init (pc : InitPc)
  | idle
  | ongoing (pc : OngoingPc)
  | orphan (pc : OrphanPc)
  | proving (pc : ProvingPc)
  | retry (request : Request) (pc : RetryPc) (caller : RetryCaller)
  | add (pc : AddPc)
  | agg (pc : AggPc)
  | queue (pc : QueuePc)
  | submit (pc : SubmitPc)

/-- The caller goes on after `handle_failed_request` returned. -/
def RetryCaller.onOk : RetryCaller → MainPc
  | .ongoing completed => .ongoing (.process completed)
  | .proving proveRequests => .proving (.process proveRequests)

/-- `handle_ongoing_tasks` logs an error; `handle_proving_requests` returns it. -/
def RetryCaller.onErr : RetryCaller → MainPc
  | .ongoing completed => .ongoing (.process completed)
  | .proving _ => .idle

/-- After a call that failed; nothing fails without a call. -/
def MainPc.onErr : MainPc → Option MainPc
  | .init _ => some (.init .delete)
  | .idle | .ongoing _ | .queue (.spawn _) | .queue (.insert _ _) => none
  | .retry _ _ caller => some caller.onErr
  | .orphan _ | .proving _ | .add _ | .agg _ | .queue _ | .submit _ => some .idle

/-- The task that is spawned and not yet in the map. -/
def MainPc.pending : MainPc → Option (Nat × Request)
  | .queue (.insert key request) => some (key, request)
  | _ => none

/-! ## Calls of the main loop -/

/-- `SP1Proof`, with the bytes that are stored. -/
inductive SP1Proof
  | core
  | compressed (serialized : Bytes)
  | plonk (bytes : Bytes)
  | groth16 (bytes : Bytes)

inductive FulfillmentStatus
  | requested
  | fulfilled
  | unfulfillable

/-- What `get_proof_status` answers, with the time of the answer. -/
structure ProofStatus where
  currentTime : Nat
  deadline : Nat
  unexecutable : Bool
  fulfillment : FulfillmentStatus
  proof : Option SP1Proof

/-- What the state does not determine of a call's answer. -/
inductive Answer
  | ok
  | rows (rows : List Request)
  | row (row : Option Request)
  | ranges (ranges : List BlockRange)
  | completed (ids : List Nat)
  | finalizedBlock (block : Option Nat)
  | submissionInterval (interval : Nat)
  | checkpointed (l1BlockNumber : Int) (l1BlockHash : Bytes32)
  | proofStatus (status : ProofStatus)
  | relayed (transactionHash : Bytes32)

/-- The machine.  `filledFrom` is no part of the program: it is the latest proposed
block for which `add_new_ranges` last inserted ranges, at first that of the start. -/
structure Sys where
  db : Db
  main : MainPc
  tasks : Nat → Option (Nat × Request)
  procs : Nat → Option Task
  nextKey : Nat
  latest : Nat
  filledFrom : Nat

namespace Sys

def goto (s : Sys) (main : MainPc) : Sys := { s with main }

def write (s : Sys) (w : DbWrite) (main : MainPc) : Sys := { s with db := s.db.apply w, main }

/-- The task of a request is in the map and finished. -/
def isFinished (s : Sys) (id : Nat) : Bool :=
  match s.tasks id with
  | none => false
  | some (key, _) =>
    match s.procs key with
    | some ⟨_, .finished _⟩ => true
    | _ => false

end Sys

/-- Rows in the order of their start block, as a query may return them. -/
def IsByStart (rows answer : List Request) : Prop :=
  answer.Perm rows ∧ answer.Pairwise fun a b => a.startBlock ≤ b.startBlock

instance (rows answer : List Request) : Decidable (IsByStart rows answer) :=
  inferInstanceAs (Decidable (_ ∧ _))

/-! ### `initialize_proposer` -/

def initStep (cfg : Config) (s : Sys) : InitPc → Sys
  | .delete =>
    s.write (.deleteAllRequestsWithStatuses [.unrequested, .execution, .witnessGeneration]
      cfg.scope.l1ChainId cfg.scope.l2ChainId) (.init .cancel)
  | .cancel => s.write (.cancelProveRequestsWithDifferentCommitmentConfig cfg.scope) .idle

/-! ### `handle_ongoing_tasks` -/

/-- A task may finish while the map is gone through, so not every finished task need be
found. -/
def ongoingStep (s : Sys) : OngoingPc → Answer → Option Sys
  | .scan, .completed ids =>
    if ids.Nodup ∧ ∀ id ∈ ids, s.isFinished id then some (s.goto (.ongoing (.process ids)))
    else none
  | .process [], .ok => some (s.goto .idle)
  | .process (id :: completed), .ok =>
    match s.tasks id with
    | none => some (s.goto (.ongoing (.process completed)))
    | some (key, request) =>
      match s.procs key with
      | some ⟨_, .finished ok⟩ =>
        some { s with
          tasks := Function.update s.tasks id none
          main := if ok then .ongoing (.process completed)
            else .retry request (.setFailed false) (.ongoing completed) }
      | _ => none
  | _, _ => none

/-! ### `set_orphaned_tasks_to_failed` -/

def orphanStep (cfg : Config) (s : Sys) : OrphanPc → Answer → Option Sys
  | .witnessgenRequests, .rows rows =>
    if rows.Perm (s.db.fetchRequestsByStatus cfg.scope .witnessGeneration) then
      some (s.goto (.orphan (.executionRequests rows)))
    else none
  | .executionRequests witnessgenRequests, .rows rows =>
    if rows.Perm (s.db.fetchRequestsByStatus cfg.scope .execution) then
      some (s.goto (.orphan (.requests (witnessgenRequests ++ rows))))
    else none
  | .requests [], .ok => some (s.goto .idle)
  | .requests (request :: requests), .ok =>
    if (s.tasks request.id).isSome then some (s.goto (.orphan (.requests requests)))
    else some (s.write (.updateRequestStatus request.id .failed) (.orphan (.requests requests)))
  | _, _ => none

/-! ### `handle_failed_request` -/

def midBlock (request : Request) : Int := (request.startBlock + request.endBlock).tdiv 2

/-- The two requests a failed one is split into. -/
def halves (cfg : Config) (request : Request) : List Request :=
  [newRangeRequest cfg.scope request.mode request.startBlock (midBlock request),
    newRangeRequest cfg.scope request.mode (midBlock request) request.endBlock]

/-- The condition for a split. -/
def splits (cfg : Config) (db : Db) (request : Request) (unexecutable : Bool) : Bool :=
  decide (1 < request.endBlock - request.startBlock) && request.reqType == .range &&
    (decide (2 < db.fetchFailedRequestCountByBlockRange (cfg.scopeOf request) request.startBlock
      request.endBlock) || unexecutable)

/-- The chain ids the two providers answer are the configured ones. -/
def retryStep (cfg : Config) (s : Sys) (request : Request) (caller : RetryCaller) : RetryPc → Sys
  | .setFailed unexecutable =>
    s.write (.updateRequestStatus request.id .failed)
      (.retry request (.countFailed unexecutable) caller)
  | .countFailed unexecutable =>
    s.goto (if splits cfg s.db request unexecutable then .retry request .insertHalves caller
      else caller.onOk)
  | .insertHalves => s.write (.insertRequests (halves cfg request)) caller.onOk

/-! ### `handle_proving_requests` -/

/-- `process_proof_request_status` for a request with a proof request id. -/
def processProofRequestStatus (s : Sys) (request : Request) (rest : List Request)
    (status : ProofStatus) : Option Sys :=
  let retry := s.goto (.retry request (.setFailed status.unexecutable) (.proving rest))
  if status.deadline < status.currentTime then some retry
  else
    match status.fulfillment with
    | .fulfilled =>
      match status.proof with
      | none => none
      | some .core => some (s.goto .idle)
      | some (.compressed proof) | some (.plonk proof) | some (.groth16 proof) =>
        some (s.write (.updateProofToComplete request.id proof) (.proving (.process rest)))
    | .unfulfillable => some retry
    | .requested => some (s.goto (.proving (.process rest)))

def provingStep (cfg : Config) (s : Sys) : ProvingPc → Answer → Option Sys
  | .fetch, .rows rows =>
    if rows.Perm (s.db.fetchRequestsByStatus cfg.scope .prove) then
      some (s.goto (.proving (.process rows)))
    else none
  | .process [], .ok => some (s.goto .idle)
  | .process (request :: rest), .ok =>
    if request.proofRequestId.isNone then some (s.goto (.proving (.process rest))) else none
  | .process (request :: rest), .proofStatus status =>
    if request.proofRequestId.isSome then processProofRequestStatus s request rest status else none
  | _, _ => none

/-! ### `add_new_ranges` -/

def addStep (cfg : Config) (s : Sys) : AddPc → Answer → Option Sys
  | .latest, .ok => some (s.goto (.add (.finalized s.latest)))
  | .finalized _, .finalizedBlock none => some (s.goto .idle)
  | .finalized latestProposed, .finalizedBlock (some finalizedBlock) =>
    some (s.goto (.add (.fetch latestProposed finalizedBlock)))
  | .fetch latestProposed finalizedBlock, .ranges requests =>
    if requests.Perm (s.db.fetchRangesAfterBlock cfg.scope latestProposed) then
      let sorted := requests.insertionSort fun a b => a.1 ≤ b.1
      match getRangesToProve (findGaps latestProposed finalizedBlock sorted)
        (asI64 cfg.rangeProofInterval) with
      | none => none
      | some [] => some (s.goto .idle)
      | some rangesToProve => some (s.goto (.add (.insert latestProposed rangesToProve)))
    else none
  | .insert latestProposed rangesToProve, .ok =>
    let newRangeRequests := rangesToProve.map fun range =>
      newRangeRequest cfg.scope cfg.mode range.1 range.2
    some { s.write (.insertRequests newRangeRequests) .idle with filledFrom := latestProposed }
  | _, _ => none

/-! ### `create_aggregation_proofs` -/

/-- The loop of `get_highest_proven_contiguous_block`. -/
def contiguousEnd (currentEnd : Int) : List BlockRange → Int
  | [] => currentEnd
  | proof :: proofs => if proof.1 ≠ currentEnd then currentEnd else contiguousEnd proof.2 proofs

def getHighestProvenContiguousBlock : List BlockRange → Option Int
  | [] => none
  | proof :: proofs => some (contiguousEnd proof.2 proofs)

def aggStep (cfg : Config) (s : Sys) : AggPc → Answer → Option Sys
  | .latest, .ok => some (s.goto (.agg (.activeCount s.latest)))
  | .activeCount latestProposed, .ok =>
    some (s.goto (if 0 < s.db.fetchActiveAggProofsCount cfg.scope latestProposed then .idle
      else .agg (.completedRanges latestProposed)))
  | .completedRanges latestProposed, .ranges ranges =>
    if ranges.Perm (s.db.fetchCompletedRanges cfg.scope latestProposed) ∧
        ranges.Pairwise fun a b => a.1 ≤ b.1 then
      match getHighestProvenContiguousBlock ranges with
      | none => some (s.goto .idle)
      | some highestProven =>
          some (s.goto (.agg (.submissionInterval latestProposed highestProven)))
    else none
  | .submissionInterval latestProposed highestProven, .submissionInterval interval =>
    some (s.goto (
      if asI64 (max interval cfg.submissionInterval) ≤ highestProven - latestProposed then
      .agg (.existing latestProposed highestProven) else .idle))
  | .existing latestProposed highestProven, .row none =>
    if s.db.failedAggRequestsWithCheckpoint cfg.scope latestProposed highestProven = [] then
      some (s.goto (.agg (.checkpoint latestProposed highestProven)))
    else none
  | .existing latestProposed highestProven, .row (some existing) =>
    if existing ∈ s.db.failedAggRequestsWithCheckpoint cfg.scope latestProposed highestProven then
      match existing.checkpointedL1BlockHash, existing.checkpointedL1BlockNumber with
      | some hash, some number =>
        some (s.goto (.agg (.insert latestProposed highestProven number hash)))
      | _, _ => none
    else none
  | .checkpoint latestProposed highestProven, .checkpointed number hash =>
    some (s.goto (.agg (.insert latestProposed highestProven number hash)))
  | .insert latestProposed highestProven number hash, .ok =>
    let newRequest :=
      newAggRequest cfg.scope cfg.mode latestProposed highestProven number hash cfg.proverAddress
    some (s.write (.insertRequests [newRequest]) .idle)
  | _, _ => none

/-! ### `request_queued_proofs` -/

/-- `validate_aggregation_request`. -/
def validateAggregationRequest (rangeProofs : List Request) (aggRequest : Request) : Bool :=
  match rangeProofs.head?, rangeProofs.getLast? with
  | some first, some last =>
    first.startBlock == aggRequest.startBlock && last.endBlock == aggRequest.endBlock &&
      decide (rangeProofs.IsChain fun prev curr =>
        prev.endBlock = curr.startBlock ∧ ¬ curr.startBlock < prev.endBlock)
  | _, _ => false

theorem validateAggregationRequest_iff {rows : List Request} {request : Request} :
    validateAggregationRequest rows request = true ↔ ∃ first last, rows.head? = some first ∧
      rows.getLast? = some last ∧ first.startBlock = request.startBlock ∧
      last.endBlock = request.endBlock ∧
      rows.IsChain fun prev curr =>
        prev.endBlock = curr.startBlock ∧ ¬ curr.startBlock < prev.endBlock := by
  unfold validateAggregationRequest
  split
  · rename_i first last hfirst hlast
    simp [hfirst, hlast, and_assoc]
  · rename_i hnone
    simp only [Bool.false_eq_true, false_iff]
    rintro ⟨first, last, hfirst, hlast, -⟩
    exact hnone first last hfirst hlast

def queueStep (cfg : Config) (s : Sys) : QueuePc → Answer → Option Sys
  | .witnessGenCount, .ok =>
    some (s.goto (.queue (.executionCount (s.db.fetchRequestCount cfg.scope .witnessGeneration))))
  | .executionCount witnessGenCount, .ok =>
    some (s.goto (.queue (.proveCount witnessGenCount
      (s.db.fetchRequestCount cfg.scope .execution))))
  | .proveCount witnessGenCount executionCount, .ok =>
    let proveCount := s.db.fetchRequestCount cfg.scope .prove
    if asI64 cfg.maxConcurrentProofRequests ≤ witnessGenCount + executionCount + proveCount then
      some (s.goto .idle)
    else if asI64 cfg.maxConcurrentWitnessGen ≤ witnessGenCount then some (s.goto .idle)
    else some (s.goto (.queue .latest))
  | .latest, .ok => some (s.goto (.queue (.aggProof s.latest)))
  | .aggProof latestProposed, .row request =>
    if Db.isFirstByStart (s.db.unrequestedAggProofs cfg.scope latestProposed) request then
      match request with
      | none => some (s.goto (.queue (.rangeProof latestProposed)))
      | some request => some (s.goto (.queue (.validate latestProposed request)))
    else none
  | .validate latestProposed request, .rows rangeProofs =>
    if IsByStart (s.db.getConsecutiveCompleteRangeProofs cfg.scope request.startBlock
        request.endBlock) rangeProofs then
      some (s.goto (.queue (if validateAggregationRequest rangeProofs request then .spawn request
        else .rangeProof latestProposed)))
    else none
  | .rangeProof latestProposed, .row request =>
    if Db.isFirstByStart (s.db.unrequestedRangeProofs cfg.scope latestProposed) request then
      match request with
      | none => some (s.goto .idle)
      | some request => some (s.goto (.queue (.spawn request)))
    else none
  | .spawn request, .ok =>
    some { s with
      procs := Function.update s.procs s.nextKey (some ⟨request, .spawned⟩)
      nextKey := s.nextKey + 1
      main := .queue (.insert s.nextKey request) }
  | .insert key request, .ok =>
    some { s with tasks := Function.update s.tasks request.id (some (key, request)), main := .idle }
  | _, _ => none

/-! ### `submit_agg_proofs` -/

def submitStep (cfg : Config) (s : Sys) : SubmitPc → Answer → Option Sys
  | .latest, .ok => some (s.goto (.submit (.fetch s.latest)))
  | .fetch latestProposed, .row none =>
    if s.db.completedAggProofs cfg.scope latestProposed = [] then some (s.goto .idle) else none
  | .fetch latestProposed, .row (some completedAggProof) =>
    if completedAggProof ∈ s.db.completedAggProofs cfg.scope latestProposed then
      some (s.goto (.submit (.relay completedAggProof)))
    else none
  | .relay request, .relayed transactionHash =>
    if request.checkpointedL1BlockNumber.isSome ∧ request.proof.isSome then
      some (s.goto (.submit (.setRelayed request transactionHash)))
    else none
  | .setRelayed request transactionHash, .ok =>
    some (s.write (.updateRequestToRelayed request.id transactionHash cfg.l2ooAddress) .idle)
  | _, _ => none

/-! ## Steps -/

/-- The first call of a function of the loop. -/
def LoopFn.entry (cfg : Config) : LoopFn → MainPc
  | .handleOngoingTasks => .ongoing .scan
  | .setOrphanedTasksToFailed => .orphan .witnessgenRequests
  | .handleProvingRequests => if cfg.useLocalProving then .idle else .proving .fetch
  | .addNewRanges => .add .latest
  | .createAggregationProofs => .agg .latest
  | .requestQueuedProofs => .queue .witnessGenCount
  | .submitAggProofs => .submit .latest

def mainStep (cfg : Config) (s : Sys) (answer : Answer) : Option Sys :=
  match s.main with
  | .idle => none
  | .init pc => some (initStep cfg s pc)
  | .ongoing pc => ongoingStep s pc answer
  | .orphan pc => orphanStep cfg s pc answer
  | .proving pc => provingStep cfg s pc answer
  | .retry request pc caller => some (retryStep cfg s request caller pc)
  | .add pc => addStep cfg s pc answer
  | .agg pc => aggStep cfg s pc answer
  | .queue pc => queueStep cfg s pc answer
  | .submit pc => submitStep cfg s pc answer

inductive Act
  /-- Another block is the latest proposed one. -/
  | advance (latest : Nat)
  /-- The process ends, and starts again with `initialize_proposer`. -/
  | restart
  | task (key : Nat) (act : TaskAct)
  | start (f : LoopFn)
  | fail
  | call (answer : Answer)

/-- **A step.** -/
def step (cfg : Config) (s : Sys) : Act → Option Sys
  | .advance latest => if s.latest ≤ latest then some { s with latest } else none
  | .restart =>
    some { s with main := .init .delete, tasks := fun _ => none, procs := fun _ => none }
  | .task key act => do
    let task ← s.procs key
    let (db, pc) ← taskStep cfg s.db task act
    return { s with db, procs := Function.update s.procs key (some ⟨task.datum, pc⟩) }
  | .start f =>
    match s.main with
    | .idle => some (s.goto (f.entry cfg))
    | _ => none
  | .fail => s.main.onErr.map s.goto
  | .call answer => mainStep cfg s answer

/-- A process that starts on a database. -/
def Sys.start (db : Db) (latest : Nat) : Sys where
  db := db
  main := .init .delete
  tasks := fun _ => none
  procs := fun _ => none
  nextKey := 0
  latest := latest
  filledFrom := latest

end OpSuccinct.Validity
