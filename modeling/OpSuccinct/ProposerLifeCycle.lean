import OpSuccinct.ProposerSteps

/-! # The life cycle of a request

In a run whose selections are fresh (`freshStep`) no two live tasks ever work on one
request, and a request that failed or was cancelled never becomes anything else
(`life_cycle`).  Both fail when `request_queued_proofs` selects a request a second
time because its first task has not yet written `WitnessGeneration`: the map then
holds one handle for two tasks, and when the task with the handle fails, the other
one brings the failed request back (`task_spawned_twice`).
-/
namespace OpSuccinct.Validity

open Fleets Transition

/-- A step that selects no request whose task still waits for its first write. -/
def freshStep (cfg : Config) (s : Sys) (act : Act) : Option Sys :=
  if selectsFresh s act then step cfg s act else none

/-- No two live tasks work on one request. -/
def Sys.OneTaskPerRequest (s : Sys) : Prop :=
  ∀ key key' task task', s.procs key = some task → s.procs key' = some task' →
    task.state.Live → task'.state.Live → task.datum.id = task'.datum.id → key = key'

variable {cfg : Config} {db : Db} {latest : Nat} {s t : Sys} {trace trace' : List Act}

theorem Sys.ok_start (db : Db) (latest : Nat) : (Sys.start db latest).Ok cfg := by
  refine ⟨⟨⟨?_, ?_, ?_⟩, ?_⟩, fun _ => rfl⟩
  · intro j k d h
    cases h
  · intro k w h
    cases h
  · intro k w h
    cases h
  · intro id key request pc h
    cases h

theorem freshStep_next {act : Act} (hs : s.Ok cfg) (h : stepOf (freshStep cfg) s act t) :
    Next cfg s (inserted cfg s act) t := by
  obtain ⟨hfresh, h⟩ := Option.ite_none_right_eq_some.mp h
  exact step_next hs hfresh h

theorem freshStep_ok {act : Act} (hs : s.Ok cfg) (h : stepOf (freshStep cfg) s act t) :
    t.Ok cfg :=
  have hnext := freshStep_next hs h
  ⟨hs.1.effect hnext.effect, hnext.holds⟩

theorem Sys.Ok.oneTaskPerRequest (hs : s.Ok cfg) : s.OneTaskPerRequest :=
  fun _ _ _ _ htask htask' hlive hlive' hid => hs.1.tracked.unique htask htask' hlive hlive' hid

/-- **The life cycle of requests.**  In every run of fresh selections, whatever the
interleaving of the tasks with the main loop and whenever the process is restarted: at
no moment do two live tasks work on one request, and a request that failed or was
cancelled stays so. -/
theorem life_cycle (hs : Run (stepOf (freshStep cfg)) (Sys.start db latest) trace s)
    (ht : Run (stepOf (freshStep cfg)) s trace' t) :
    s.OneTaskPerRequest ∧ ∀ id, s.db.Dead id → t.db.Dead id := by
  have hok : s.Ok cfg := hs.invariant (fun _ _ _ => freshStep_ok) (Sys.ok_start db latest)
  refine ⟨hok.oneTaskPerRequest, fun id hdead => ?_⟩
  have hend : t.Ok cfg ∧ t.db.Dead id := by
    refine ht.invariant (I := fun u : Sys => u.Ok cfg ∧ u.db.Dead id) ?_ ⟨hok, hdead⟩
    intro a act b ha hstep
    exact ⟨freshStep_ok ha.1 hstep, ha.1.1.dead (freshStep_next ha.1 hstep).effect ha.2⟩
  exact hend.2

/-! ### A task spawned twice

Blocks 0 to 100 are to be proved in one range, the request with id 1. -/

def exampleConfig : Config where
  scope := ⟨⟨1, 2, 3⟩, 11, 12⟩
  mock := false
  useLocalProving := false
  rangeProofInterval := 100
  submissionInterval := 100
  maxConcurrentWitnessGen := 4
  maxConcurrentProofRequests := 8
  proverAddress := 0xA
  l2ooAddress := 0xB

/-- The range request of the first blocks, as it is read from the database. -/
def exampleRequest : Request :=
  { newRangeRequest exampleConfig.scope .real 0 100 with id := 1 }

/-- The restart, the first range, and the first selection of its request. -/
def firstSelection : List Act :=
  [.call .ok, .call .ok,
    .start .addNewRanges, .call .ok, .call (.finalizedBlock (some 100)), .call (.ranges []),
    .call .ok, .start .createAggregationProofs, .call .ok, .call .ok, .call (.ranges []),
    .start .requestQueuedProofs, .call .ok, .call .ok, .call .ok, .call .ok, .call (.row none),
    .call (.row (some exampleRequest)), .call .ok, .call .ok,
    .start .submitAggProofs, .call .ok, .call (.row none)]

/-- The next turn of the loop, with no step of the spawned task in between. -/
def secondSelection : List Act :=
  [.start .handleOngoingTasks, .call (.completed []), .call .ok,
    .start .setOrphanedTasksToFailed, .call (.rows []), .call (.rows []), .call .ok,
    .start .handleProvingRequests, .call (.rows []), .call .ok,
    .start .addNewRanges, .call .ok, .call (.finalizedBlock (some 100)),
    .call (.ranges [(0, 100)]),
    .start .createAggregationProofs, .call .ok, .call .ok, .call (.ranges []),
    .start .requestQueuedProofs, .call .ok, .call .ok, .call .ok, .call .ok, .call (.row none),
    .call (.row (some exampleRequest)), .call .ok, .call .ok,
    .start .submitAggProofs, .call .ok, .call (.row none)]

/-- A task on request 1 fails, and the request is set to `Failed`. -/
def taskFails (key : Nat) : List Act :=
  [.task key .fail, .start .handleOngoingTasks, .call (.completed [1]), .call .ok, .call .ok]

/-- The rest of that turn, which adds the range again. -/
def rangeIsAddedAgain : List Act :=
  [.call .ok, .call .ok,
    .start .addNewRanges, .call .ok, .call (.finalizedBlock (some 100)), .call (.ranges []),
    .call .ok]

/-- The first task does its first status write. -/
def firstTaskStarts : List Act := [.task 0 .startWitnessGeneration]

def exampleStart : Sys := Sys.start .empty 0

/-- The only task on request 1 failed. -/
def onlyTaskFailed : Sys :=
  endOf (freshStep exampleConfig) exampleStart (firstSelection ++ taskFails 0)

theorem onlyTaskFailed_run :
    Run (stepOf (freshStep exampleConfig)) exampleStart (firstSelection ++ taskFails 0)
      onlyTaskFailed :=
  run_endOf (by decide +kernel)

/-- Request 1 stays failed while its range is added again. -/
theorem life_cycle_example :
    onlyTaskFailed.OneTaskPerRequest ∧
      (endOf (freshStep exampleConfig) onlyTaskFailed rangeIsAddedAgain).db.Dead 1 := by
  have hagain : Run (stepOf (freshStep exampleConfig)) onlyTaskFailed rangeIsAddedAgain
      (endOf (freshStep exampleConfig) onlyTaskFailed rangeIsAddedAgain) :=
    run_endOf (by decide +kernel)
  obtain ⟨hone, hdead⟩ := life_cycle onlyTaskFailed_run hagain
  exact ⟨hone, hdead 1 ⟨{ exampleRequest with status := .failed }, by decide +kernel, .inl rfl⟩⟩

def spawnedTwice : Sys :=
  endOf (step exampleConfig) exampleStart (firstSelection ++ secondSelection)

def secondTaskFailed : Sys := endOf (step exampleConfig) spawnedTwice (taskFails 1)

def firstTaskStarted : Sys := endOf (step exampleConfig) secondTaskFailed firstTaskStarts

/-- **The failing run.**  Two live tasks work on request 1, and after the second one
failed the request, the first one brings it back to `WitnessGeneration`. -/
theorem task_spawned_twice :
    (Run (stepOf (step exampleConfig)) exampleStart (firstSelection ++ secondSelection)
        spawnedTwice ∧ ¬ spawnedTwice.OneTaskPerRequest) ∧
      (Run (stepOf (step exampleConfig)) spawnedTwice (taskFails 1) secondTaskFailed ∧
        secondTaskFailed.db.Dead 1) ∧
      Run (stepOf (step exampleConfig)) secondTaskFailed firstTaskStarts firstTaskStarted ∧
        ∃ r, firstTaskStarted.db.rows 1 = some r ∧ r.status = .witnessGeneration := by
  refine ⟨⟨run_endOf (by decide +kernel), fun hone => ?_⟩, ⟨run_endOf (by decide +kernel), ?_⟩,
    run_endOf (by decide +kernel), ?_⟩
  · have hfirst : spawnedTwice.procs 0 = some ⟨exampleRequest, .spawned⟩ := by decide +kernel
    have hsecond : spawnedTwice.procs 1 = some ⟨exampleRequest, .spawned⟩ := by decide +kernel
    exact absurd (hone 0 1 _ _ hfirst hsecond trivial trivial rfl) (by decide)
  · exact ⟨{ exampleRequest with status := .failed }, by decide +kernel, .inl rfl⟩
  · exact ⟨{ exampleRequest with status := .witnessGeneration }, by decide +kernel, rfl⟩

end OpSuccinct.Validity
