import OpSuccinct.Evm
import OpSuccinct.JobBoard
import OpSuccinct.TransitionRuns

/-! # The tasks of the fault proposer

The main loop of the fault proposer and the tasks it spawns
(`fault-proof/src/proposer.rs`): `handle_completed_tasks`, `spawn_pending_operations` and
`create_game`, which in fast finality mode spawns a proving task itself.  They run
interleaved, and a step takes one of them from an `await` to the next, with what the awaited
call answered.  The statistics and the metrics collector, which touch no task, are left out.

The main loop and the creation tasks are parties that launch tasks and post them on a board,
the map of tasks (`Proposer.view`).
-/
namespace OpSuccinct.FaultTasks

open Jobs Transition

/-! ## Tasks -/

abbrev TaskId := Nat

inductive TaskInfo
  | gameCreation (blockNumber : Bytes32)
  | gameProving (gameAddress : Address)
  | gameResolution
  | bondClaim
  deriving DecidableEq

/-- `std::mem::discriminant`. -/
def TaskInfo.discriminant : TaskInfo → Nat
  | .gameCreation _ => 0
  | .gameProving _ => 1
  | .gameResolution => 2
  | .bondClaim => 3

/-- What a task is for: its kind, and the game of a proving task. -/
inductive Job
  | gameCreation
  | gameProving (gameAddress : Address)
  | gameResolution
  | bondClaim
  deriving DecidableEq

/-- The jobs that are not about one game. -/
inductive Kind
  | gameCreation
  | gameResolution
  | bondClaim
  deriving DecidableEq

def Kind.job : Kind → Job
  | .gameCreation => .gameCreation
  | .gameResolution => .gameResolution
  | .bondClaim => .bondClaim

def TaskInfo.job : TaskInfo → Job
  | .gameCreation _ => .gameCreation
  | .gameProving game => .gameProving game
  | .gameResolution => .gameResolution
  | .bondClaim => .bondClaim

/-- The info of a task that is inserted; a game creation names the next block to propose. -/
def Job.info (nextBlock : Bytes32) : Job → TaskInfo
  | .gameCreation => .gameCreation nextBlock
  | .gameProving game => .gameProving game
  | .gameResolution => .gameResolution
  | .bondClaim => .bondClaim

/-- Where a game creation task is. -/
inductive CreationPc
  /-- In `handle_game_creation`, up to the transaction that creates a game. -/
  | submitting
  /-- The transaction has created the game, and its receipt is awaited. -/
  | confirming (game : Address)
  /-- In `spawn_game_proving_task`, awaiting the block number of the game. -/
  | fetching (game : Address) (taskId : TaskId)
  /-- In `spawn_game_proving_task`, awaiting the lock with the handle of the new task. -/
  | inserting (game : Address) (taskId : TaskId)
  | returning
  deriving DecidableEq

/-- A spawned task. -/
inductive Task
  | creation (pc : CreationPc)
  | proving (game : Address)
  | resolution
  | bondClaiming
  | finished
  deriving DecidableEq

/-- A task may end anywhere but where it awaits the lock. -/
def Task.mayFinish : Task → Bool
  | .creation (.inserting _ _) | .finished => false
  | _ => true

/-- The task spawned for a job. -/
def Job.task : Job → Task
  | .gameCreation => .creation .submitting
  | .gameProving game => .proving game
  | .gameResolution => .resolution
  | .bondClaim => .bondClaiming

/-- What a running task is for. -/
def Task.job : Task → Option Job
  | .creation _ => some .gameCreation
  | .proving game => some (.gameProving game)
  | .resolution => some .gameResolution
  | .bondClaiming => some .bondClaim
  | .finished => none

/-! ## The proposer -/

/-- Where the main loop is. -/
inductive MainPc
  /-- Awaiting the interval. -/
  | waiting
  /-- In `handle_completed_tasks`, holding the lock, with these tasks to remove. -/
  | handling (completed : List TaskId)
  /-- Before the question whether a task is active. -/
  | checking (job : Job)
  /-- Past the question whether a task of the kind is active. -/
  | starting (kind : Kind)
  /-- Awaiting the oldest defensible game. -/
  | scanning
  /-- In `spawn_game_proving_task`, awaiting the block number of the game. -/
  | fetching (game : Address) (taskId : TaskId)
  /-- Awaiting the lock with the handle of a new task. -/
  | inserting (job : Job) (taskId : TaskId)
  deriving DecidableEq

/-- The map of tasks, the tasks spawned, the main loop and the next task id. -/
structure Proposer where
  tasks : List (TaskId × TaskInfo)
  spawned : TaskId → Option Task
  main : MainPc
  nextTaskId : TaskId

def Proposer.new : Proposer := ⟨[], fun _ => none, .waiting, 1⟩

/-- What `spawn_pending_operations` does after a job. -/
def Job.next : Job → MainPc
  | .gameCreation => .scanning
  | .gameProving _ => .checking .gameResolution
  | .gameResolution => .checking .bondClaim
  | .bondClaim => .waiting

/-- The steps: of the main loop, of a game creation task, and the end of any task.  A step
carries what the awaited call answered. -/
inductive Label
  /-- The lock is taken, and the completed tasks are found. -/
  | tick
  | remove (id : TaskId)
  /-- The lock is released. -/
  | handled
  | check
  /-- `should_create_game`, or the search for a claimable bond; an error counts as no. -/
  | answered (yes : Bool)
  /-- `get_oldest_defensible_game_address`; an error counts as none. -/
  | scanned (game : Option Address)
  | blockNumber (ok : Bool)
  | insert (nextBlock : Bytes32)
  | created (id : TaskId) (game : Address)
  | receipt (id : TaskId)
  | gameBlockNumber (id : TaskId) (ok : Bool)
  | insertProving (id : TaskId)
  /-- The task returns, fails or panics. -/
  | finish (id : TaskId)
  deriving DecidableEq

namespace Proposer
variable (s : Proposer)

/-! ### Changes -/

def goto (pc : MainPc) : Proposer := { s with main := pc }

/-- A task is spawned, or goes on. -/
def setTask (id : TaskId) (task : Task) : Proposer :=
  { s with spawned := Function.update s.spawned id (some task) }

/-- `next_task_id.fetch_add(1)`. -/
def fetchAdd : Proposer := { s with nextTaskId := s.nextTaskId + 1 }

def removeTask (id : TaskId) : Proposer := { s with tasks := s.tasks.filter (·.1 ≠ id) }

def insertTask (id : TaskId) (info : TaskInfo) : Proposer :=
  { s with tasks := (id, info) :: (s.removeTask id).tasks }

/-! ### Questions -/

/-- `handle.is_finished()`. -/
def isFinished (id : TaskId) : Bool := s.spawned id == some .finished

def completed : List TaskId := (s.tasks.map (·.1)).filter s.isFinished

def hasActiveTaskOfType (taskType : TaskInfo) : Bool :=
  s.tasks.any fun e => e.2.discriminant == taskType.discriminant

def hasActiveProvingForGame (gameAddress : Address) : Bool :=
  s.tasks.any fun e => e.2 == .gameProving gameAddress

/-- The question asked before a task is spawned for a job. -/
def hasActive : Job → Bool
  | .gameCreation => s.hasActiveTaskOfType (.gameCreation 0)
  | .gameProving game => s.hasActiveProvingForGame game
  | .gameResolution => s.hasActiveTaskOfType .gameResolution
  | .bondClaim => s.hasActiveTaskOfType .bondClaim

/-! ### Steps -/

/-- The main loop holds the lock across steps only in `handle_completed_tasks`. -/
def lockHeld : Bool :=
  match s.main with
  | .handling _ => true
  | _ => false

/-- The main loop goes on with a job no task is active for. -/
def start : Job → Proposer
  | .gameProving game => (s.goto (.fetching game s.nextTaskId)).fetchAdd
  | .gameCreation => s.goto (.starting .gameCreation)
  | .gameResolution => s.goto (.starting .gameResolution)
  | .bondClaim => s.goto (.starting .bondClaim)

/-- The main loop spawns a task. -/
def spawn (job : Job) : Proposer :=
  ((s.goto (.inserting job s.nextTaskId)).setTask s.nextTaskId job.task).fetchAdd

/-- `handle_completed_tasks` takes the lock and finds the completed tasks. -/
def findCompleted : Option Proposer :=
  match s.main with
  | .waiting => some (s.goto (.handling s.completed))
  | _ => none

def removeCompleted (id : TaskId) : Option Proposer :=
  match s.main with
  | .handling completed =>
    if id ∈ completed then some ((s.removeTask id).goto (.handling (completed.erase id)))
    else none
  | _ => none

/-- The lock is released, and `spawn_pending_operations` begins. -/
def completedHandled : Option Proposer :=
  match s.main with
  | .handling [] => some (s.goto (.checking .gameCreation))
  | _ => none

def checkActive : Option Proposer :=
  match s.main with
  | .checking job => some (if s.hasActive job then s.goto job.next else s.start job)
  | _ => none

/-- The rest of a job no task was active for, up to the spawn of its task. -/
def startAnswered (yes : Bool) : Option Proposer :=
  match s.main with
  | .starting kind =>
    if yes then some (s.spawn kind.job)
    -- `spawn_game_resolution_task` has no question that could say no.
    else if kind = .gameResolution then none
    else some (s.goto kind.job.next)
  | _ => none

/-- `spawn_game_defense_tasks`, with the game that needs defense. -/
def defend (game : Option Address) : Option Proposer :=
  match s.main with
  | .scanning =>
    match game with
    | some game => some (s.goto (.checking (.gameProving game)))
    | none => some (s.goto (.checking .gameResolution))
  | _ => none

/-- `spawn_game_proving_task` in the main loop, past the call for the block number. -/
def spawnDefense (ok : Bool) : Option Proposer :=
  match s.main with
  | .fetching game id =>
    if ok then some ((s.goto (.inserting (.gameProving game) id)).setTask id (.proving game))
    else some (s.goto (.checking .gameResolution))
  | _ => none

def insertSpawned (nextBlock : Bytes32) : Option Proposer :=
  match s.main with
  | .inserting job id => some ((s.insertTask id (job.info nextBlock)).goto job.next)
  | _ => none

def createGame (id : TaskId) (game : Address) : Option Proposer :=
  match s.spawned id with
  | some (.creation .submitting) => some (s.setTask id (.creation (.confirming game)))
  | _ => none

/-- The receipt of `create_game` arrives. -/
def gameConfirmed (fastFinalityMode : Bool) (id : TaskId) : Option Proposer :=
  match s.spawned id with
  | some (.creation (.confirming game)) =>
    if fastFinalityMode then
      -- Unlike `spawn_game_defense_tasks`, nobody asks for an active proving task here.
      some (s.setTask id (.creation (.fetching game s.nextTaskId))).fetchAdd
    else some (s.setTask id (.creation .returning))
  | _ => none

/-- `spawn_game_proving_task` in `create_game`, past the call for the block number. -/
def spawnFastFinality (id : TaskId) (ok : Bool) : Option Proposer :=
  match s.spawned id with
  | some (.creation (.fetching game taskId)) =>
    if ok then
      some ((s.setTask taskId (.proving game)).setTask id (.creation (.inserting game taskId)))
    else some (s.setTask id (.creation .returning))
  | _ => none

def insertFastFinality (id : TaskId) : Option Proposer :=
  match s.spawned id with
  | some (.creation (.inserting game taskId)) =>
    -- Any other step takes and releases the lock at once.
    if s.lockHeld then none
    else some ((s.insertTask taskId (.gameProving game)).setTask id (.creation .returning))
  | _ => none

def finishTask (id : TaskId) : Option Proposer :=
  match s.spawned id with
  | some task => if task.mayFinish then some (s.setTask id .finished) else none
  | none => none

/-- **One step.** -/
def step (fastFinalityMode : Bool) : Label → Option Proposer
  | .tick => s.findCompleted
  | .remove id => s.removeCompleted id
  | .handled => s.completedHandled
  | .check => s.checkActive
  | .answered yes => s.startAnswered yes
  | .scanned game => s.defend game
  | .blockNumber ok => s.spawnDefense ok
  | .insert nextBlock => s.insertSpawned nextBlock
  | .created id game => s.createGame id game
  | .receipt id => s.gameConfirmed fastFinalityMode id
  | .gameBlockNumber id ok => s.spawnFastFinality id ok
  | .insertProving id => s.insertFastFinality id
  | .finish id => s.finishTask id

/-- The job a step is the first to commit to: a question that finds no task active, or a
receipt in fast finality mode. -/
def starts (fastFinalityMode : Bool) : Label → Option Job
  | .check =>
    match s.main with
    | .checking job => if s.hasActive job then none else some job
    | _ => none
  | .receipt id =>
    match s.spawned id with
    | some (.creation (.confirming game)) =>
      if fastFinalityMode then some (.gameProving game) else none
    | _ => none
  | _ => none

end Proposer

/-- The steps of the system. -/
abbrev Steps (fast : Bool) : Proposer → Taken Proposer Label → Proposer → Prop :=
  takenOf fun s => s.step fast

/-! ## The board of the proposer -/

/-- Those that spawn tasks: the main loop, and the game creation tasks. -/
inductive Party
  | main
  | creation (id : TaskId)
  deriving DecidableEq

def MainPc.errand : MainPc → Errand Job TaskId
  | .starting kind => .heading kind.job none
  | .fetching game id => .heading (.gameProving game) (some id)
  | .inserting job id => .posting job id
  | _ => .idle

def Task.errand : Task → Errand Job TaskId
  | .creation (.fetching game id) => .heading (.gameProving game) (some id)
  | .creation (.inserting game id) => .posting (.gameProving game) id
  | _ => .idle

def Task.state : Task → TaskState Job
  | .creation _ => .running .gameCreation
  | .proving game => .running (.gameProving game)
  | .resolution => .running .gameResolution
  | .bondClaiming => .running .bondClaim
  | .finished => .ended

namespace Proposer
variable (s : Proposer)

def errand : Party → Errand Job TaskId
  | .main => s.main.errand
  | .creation id => (s.spawned id).elim .idle Task.errand

/-- **The proposer as parties, tasks and a board.** -/
def view : Board Party Job TaskId where
  errand := s.errand
  tasks := fun id => (s.spawned id).map Task.state
  posted := {e | ∃ info, (e.1, info) ∈ s.tasks ∧ info.job = e.2}
  taken := {id | id < s.nextTaskId}

/-! ### Changes of the view -/

theorem view_goto (pc : MainPc) : (s.goto pc).view = s.view.send .main pc.errand := by
  refine Board.ext ?_ rfl rfl rfl
  funext p
  rw [Board.errand_send]
  cases p <;> rfl

theorem view_setTask (id : TaskId) (task : Task) :
    (s.setTask id task).view =
      (s.view.setTask id task.state).send (.creation id) task.errand := by
  refine Board.ext ?_ ?_ rfl rfl
  · funext p
    rw [Board.errand_send]
    cases p with
    | main => rfl
    | creation id' =>
      show (Function.update s.spawned id (some task) id').elim _ _ = _
      rw [Function.update_apply]
      by_cases heq : id' = id
      · simp [heq]
      · simp [heq, view, errand]
  · funext id'
    rw [Board.tasks_send, Board.tasks_setTask]
    show (Function.update s.spawned id (some task) id').map Task.state = _
    rw [Function.update_apply]
    split <;> rfl

theorem view_fetchAdd : s.fetchAdd.view = s.view.take s.nextTaskId := by
  refine Board.ext rfl rfl rfl ?_
  ext id
  show id < s.nextTaskId + 1 ↔ id = s.nextTaskId ∨ id < s.nextTaskId
  exact Nat.lt_succ_iff_lt_or_eq.trans or_comm

theorem view_removeTask (id : TaskId) : (s.removeTask id).view = s.view.unpost id := by
  refine Board.ext rfl rfl ?_ rfl
  ext ⟨id', job⟩
  show (∃ info, (id', info) ∈ s.tasks.filter (·.1 ≠ id) ∧ info.job = job) ↔
    (∃ info, (id', info) ∈ s.tasks ∧ info.job = job) ∧ id' ≠ id
  constructor
  · rintro ⟨info, hmem, hjob⟩
    obtain ⟨hmem, hne⟩ := List.mem_filter.mp hmem
    exact ⟨⟨info, hmem, hjob⟩, by simpa using hne⟩
  · rintro ⟨⟨info, hmem, hjob⟩, hne⟩
    exact ⟨info, List.mem_filter.mpr ⟨hmem, by simpa using hne⟩, hjob⟩

theorem view_insertTask (id : TaskId) (info : TaskInfo) :
    (s.insertTask id info).view = s.view.post id info.job := by
  refine Board.ext rfl rfl ?_ rfl
  have hunposted := congrArg Board.posted (view_removeTask s id)
  ext ⟨id', job⟩
  show (∃ info', (id', info') ∈ (id, info) :: (s.removeTask id).tasks ∧ info'.job = job) ↔
    (id', job) = (id, info.job) ∨ (id', job) ∈ (s.view.unpost id).posted
  rw [← hunposted]
  show _ ↔ _ ∨ ∃ info', (id', info') ∈ (s.removeTask id).tasks ∧ info'.job = job
  constructor
  · rintro ⟨info', hmem, rfl⟩
    rcases List.mem_cons.mp hmem with heq | hmem
    · cases heq
      exact .inl rfl
    · exact .inr ⟨info', hmem, rfl⟩
  · rintro (heq | ⟨info', hmem, rfl⟩)
    · cases heq
      exact ⟨info, .head _, rfl⟩
    · exact ⟨info', .tail _ hmem, rfl⟩

end Proposer

variable {s t : Proposer} {id taskId : TaskId} {job : Job} {game : Address} {task : Task}
  {fast : Bool}

namespace Proposer
open Board

@[simp] theorem errand_next (job : Job) : job.next.errand = .idle := by cases job <;> rfl

theorem errand_main : s.view.errand .main = s.main.errand := rfl

theorem errand_creation (h : s.spawned id = some task) :
    s.view.errand (.creation id) = task.errand := by
  show (s.spawned id).elim _ _ = _
  rw [h]
  rfl

theorem tasks_view (h : s.spawned id = some task) : s.view.tasks id = some task.state := by
  show (s.spawned id).map _ = _
  rw [h]
  rfl

theorem spawned_eq_none (h : s.view.tasks id = none) : s.spawned id = none :=
  Option.map_eq_none_iff.mp h

theorem errand_of_none (h : s.view.tasks id = none) : s.view.errand (.creation id) = .idle := by
  show (s.spawned id).elim _ _ = _
  rw [spawned_eq_none h]
  rfl

/-- The main loop goes on without an errand. -/
theorem view_goto_idle {pc : MainPc} (h : s.main.errand = .idle) (hpc : pc.errand = .idle) :
    (s.goto pc).view = s.view := by
  rw [view_goto, hpc]
  exact send_of_eq h

/-- A task goes on with the errand it has. -/
theorem view_setTask_same {task' : Task} (h : s.spawned id = some task)
    (hstate : task'.state = task.state) (herrand : task'.errand = task.errand) :
    (s.setTask id task').view = s.view := by
  rw [view_setTask, hstate, herrand, setTask_of_eq (tasks_view h), send_of_eq (errand_creation h)]

/-- A running creation task goes on with another errand. -/
theorem view_setTask_creation {pc pc' : CreationPc} (h : s.spawned id = some (.creation pc)) :
    (s.setTask id (.creation pc')).view =
      s.view.send (.creation id) (Task.creation pc').errand := by
  have hstate : s.view.tasks id = some (Task.creation pc).state := tasks_view h
  rw [view_setTask]
  exact congrArg (send · _ _) (setTask_of_eq hstate)

/-- A spawned task has no errand yet. -/
theorem view_setTask_new (hid : s.view.tasks id = none) (herrand : task.errand = .idle) :
    (s.setTask id task).view = s.view.setTask id task.state := by
  rw [view_setTask, herrand]
  exact send_of_eq (errand_of_none hid)

@[simp] theorem errand_task (job : Job) : job.task.errand = .idle := by cases job <;> rfl

@[simp] theorem state_task (job : Job) : job.task.state = .running job := by cases job <;> rfl

theorem not_taken : s.nextTaskId ∉ s.view.taken := Nat.lt_irrefl _

theorem tasks_nextTaskId (h : s.view.Tracked) : s.view.tasks s.nextTaskId = none := by
  cases hk : s.view.tasks s.nextTaskId with
  | none => rfl
  | some state => exact absurd (h.task_taken _ state hk) not_taken

end Proposer
end OpSuccinct.FaultTasks
