import OpSuccinct.FaultTasks

/-! # The steps of the fault proposer as moves on its board

A step of the main loop or of a task is a few moves of a party and its tasks, none of which
sets out unless the step starts a job (`step_moves`).  So what moves keep is kept by every
step: running tasks are tracked, and what has ended stays so until the main loop, which
knows it, takes it off the map (`tracked_step`, `handled_step`).
-/
namespace OpSuccinct.FaultTasks

open Jobs

variable {s t : Proposer} {id taskId : TaskId} {job : Job} {game : Address} {task : Task}
  {fast : Bool}

namespace Proposer
open Board

/-! ### The main loop -/

theorem view_findCompleted (hstep : s.findCompleted = some t) : t.view = s.view := by
  unfold findCompleted at hstep
  split at hstep
  · rename_i hmain
    cases hstep
    exact view_goto_idle (by rw [hmain]; rfl) rfl
  · cases hstep

/-- The completed tasks to remove have ended. -/
def Handled (s : Proposer) : Prop :=
  ∀ completed, s.main = .handling completed → ∀ id ∈ completed, s.view.tasks id = some .ended

theorem quiet_removeCompleted (hhandled : s.Handled) (hstep : s.removeCompleted id = some t) :
    Quiet s.view t.view := by
  unfold removeCompleted at hstep
  split at hstep
  · rename_i completed hmain
    split at hstep
    · rename_i hid
      cases hstep
      have hidle : (s.removeTask id).main.errand = .idle := by rw [removeTask, hmain]; rfl
      rw [view_goto_idle hidle rfl, view_removeTask]
      exact .unpost (hhandled completed hmain id hid)
    · cases hstep
  · cases hstep

theorem view_completedHandled (hstep : s.completedHandled = some t) : t.view = s.view := by
  unfold completedHandled at hstep
  split at hstep
  · rename_i hmain
    cases hstep
    exact view_goto_idle (by rw [hmain]; rfl) rfl
  · cases hstep

/-- The main loop sets out for a job, with an id if it is a proving task. -/
theorem moves_start (job : Job) (hidle : s.view.errand .main = .idle) :
    ∃ b, SetsOut s.view .main job b ∧ Quietly b (s.start job).view := by
  have hkeyless : ∀ kind : Kind, (s.goto (.starting kind)).view =
      s.view.send .main (.heading kind.job none) := fun kind => s.view_goto _
  cases job with
  | gameProving game =>
    obtain ⟨b, hout, hmove⟩ := setsOut_keyed (.gameProving game) hidle (not_taken (s := s))
    refine ⟨b, hout, .single ?_⟩
    rw [start, view_fetchAdd, view_goto]
    exact hmove
  | gameCreation => exact ⟨_, ⟨hidle, rfl⟩, hkeyless .gameCreation ▸ .refl⟩
  | gameResolution => exact ⟨_, ⟨hidle, rfl⟩, hkeyless .gameResolution ▸ .refl⟩
  | bondClaim => exact ⟨_, ⟨hidle, rfl⟩, hkeyless .bondClaim ▸ .refl⟩

/-- The main loop goes on to the next job, or sets out for this one. -/
theorem moves_checkActive (fast : Bool) (hstep : s.checkActive = some t) :
    (s.starts fast .check = none ∧ t.view = s.view) ∨ ∃ job b, s.starts fast .check = some job ∧
      SetsOut s.view .main job b ∧ Quietly b t.view := by
  unfold checkActive at hstep
  split at hstep
  · rename_i job hmain
    cases hstep
    have hidle : s.main.errand = .idle := by rw [hmain]; rfl
    by_cases hactive : s.hasActive job = true
    · rw [if_pos hactive]
      exact .inl ⟨by simp [starts, hmain, hactive], view_goto_idle hidle (errand_next job)⟩
    · rw [if_neg hactive]
      obtain ⟨b, hout, hmoves⟩ := moves_start job hidle
      exact .inr ⟨job, b, by simp [starts, hmain, hactive], hout, hmoves⟩
  · cases hstep

theorem quietly_startAnswered {yes : Bool} (h : s.view.Tracked)
    (hstep : s.startAnswered yes = some t) : Quietly s.view t.view := by
  unfold startAnswered at hstep
  split at hstep
  · rename_i kind hmain
    have hheading : s.view.errand .main = .heading kind.job none := by
      rw [errand_main, hmain]
      rfl
    split at hstep
    · cases hstep
      have hnew : (s.goto (.inserting kind.job s.nextTaskId)).view.tasks s.nextTaskId = none :=
        tasks_nextTaskId (s := s) h
      have hmoves := quietly_spawn hheading (not_taken (s := s))
      rw [spawn, view_fetchAdd, view_setTask_new hnew (errand_task kind.job), view_goto, state_task]
      exact hmoves
    · split at hstep
      · cases hstep
      · cases hstep
        rw [view_goto, errand_next]
        exact .single (.giveUp hheading)
  · cases hstep

theorem view_defend {answer : Option Address} (hstep : s.defend answer = some t) :
    t.view = s.view := by
  unfold defend at hstep
  split at hstep
  · rename_i hmain
    split at hstep
    · cases hstep
      exact view_goto_idle (by rw [hmain]; rfl) rfl
    · cases hstep
      exact view_goto_idle (by rw [hmain]; rfl) rfl
  · cases hstep

/-- The main loop spawns the proving task it took an id for. -/
theorem view_spawnDefense (h : s.view.Tracked) (hmain : s.main = .fetching game id) :
    ((s.goto (.inserting (.gameProving game) id)).setTask id (.proving game)).view =
      (s.view.send .main (.posting (.gameProving game) id)).setTask id
        (.running (.gameProving game)) := by
  have hheading : s.view.errand .main = .heading (.gameProving game) (some id) := by
    rw [errand_main, hmain]
    rfl
  have hnew : (s.goto (.inserting (.gameProving game) id)).view.tasks id = none :=
    h.fresh _ _ _ hheading
  rw [view_setTask_new hnew rfl, view_goto]
  rfl

theorem quiet_spawnDefense {ok : Bool} (h : s.view.Tracked)
    (hstep : s.spawnDefense ok = some t) : Quiet s.view t.view := by
  unfold spawnDefense at hstep
  split at hstep
  · rename_i game id hmain
    have hheading : s.view.errand .main = .heading (.gameProving game) (some id) := by
      rw [errand_main, hmain]
      rfl
    split at hstep
    · cases hstep
      rw [view_spawnDefense h hmain]
      exact .launch hheading
    · cases hstep
      rw [view_goto]
      exact .giveUp hheading
  · cases hstep

theorem quiet_insertSpawned {nextBlock : Bytes32} (hstep : s.insertSpawned nextBlock = some t) :
    Quiet s.view t.view := by
  unfold insertSpawned at hstep
  split at hstep
  · rename_i job id hmain
    cases hstep
    have hposting : s.view.errand .main = .posting job id := by rw [errand_main, hmain]; rfl
    have hjob : (job.info nextBlock).job = job := by cases job <;> rfl
    rw [view_goto, view_insertTask, hjob, errand_next]
    exact .post hposting
  · cases hstep

/-! ### Tasks -/

theorem view_createGame (hstep : s.createGame id game = some t) : t.view = s.view := by
  unfold createGame at hstep
  split at hstep
  · rename_i hid
    cases hstep
    exact view_setTask_same hid rfl rfl
  · cases hstep

/-- A creation task sets out for the game it has created, in fast finality mode. -/
theorem moves_gameConfirmed (hstep : s.gameConfirmed fast id = some t) :
    (s.starts fast (.receipt id) = none ∧ t.view = s.view) ∨
      fast = true ∧ ∃ job b, s.starts fast (.receipt id) = some job ∧
        SetsOut s.view (.creation id) job b ∧ Quietly b t.view := by
  unfold gameConfirmed at hstep
  split at hstep
  · rename_i game hid
    by_cases hfast : fast = true
    · rw [if_pos hfast] at hstep
      cases hstep
      obtain ⟨b, hout, hmove⟩ := setsOut_keyed (.gameProving game)
        (errand_creation hid) (not_taken (s := s))
      refine .inr ⟨hfast, _, b, by simp [starts, hid, hfast], hout, .single ?_⟩
      rw [view_fetchAdd, view_setTask_creation hid]
      exact hmove
    · rw [if_neg hfast] at hstep
      cases hstep
      exact .inl ⟨by simp [starts, hid, hfast], view_setTask_same hid rfl rfl⟩
  · cases hstep

/-- A creation task spawns the proving task it took an id for. -/
theorem view_spawnFastFinality (h : s.view.Tracked)
    (hid : s.spawned id = some (.creation (.fetching game taskId))) :
    ((s.setTask taskId (.proving game)).setTask id (.creation (.inserting game taskId))).view =
      (s.view.send (.creation id) (.posting (.gameProving game) taskId)).setTask taskId
        (.running (.gameProving game)) := by
  have hnew := h.fresh _ _ _ (errand_creation hid)
  -- The id is fresh, so it is not the creation task's own.
  have hne : id ≠ taskId := by
    rintro rfl
    rw [tasks_view hid] at hnew
    cases hnew
  have hstill : (s.setTask taskId (.proving game)).spawned id =
      some (.creation (.fetching game taskId)) := (Function.update_of_ne hne _ _).trans hid
  rw [view_setTask_creation hstill, view_setTask_new hnew rfl]
  rfl

theorem quiet_spawnFastFinality {ok : Bool} (h : s.view.Tracked)
    (hstep : s.spawnFastFinality id ok = some t) : Quiet s.view t.view := by
  unfold spawnFastFinality at hstep
  split at hstep
  · rename_i game taskId hid
    split at hstep
    · cases hstep
      rw [view_spawnFastFinality h hid]
      exact .launch (errand_creation hid)
    · cases hstep
      rw [view_setTask_creation hid]
      exact .giveUp (errand_creation hid)
  · cases hstep

theorem quiet_insertFastFinality (hstep : s.insertFastFinality id = some t) :
    Quiet s.view t.view := by
  unfold insertFastFinality at hstep
  split at hstep
  · rename_i game taskId hid
    split at hstep
    · cases hstep
    · cases hstep
      have hposting : s.view.errand (.creation id) = .posting (.gameProving game) taskId :=
        errand_creation hid
      have hstill : (s.insertTask taskId (.gameProving game)).spawned id =
          some (.creation (.inserting game taskId)) := hid
      rw [view_setTask_creation hstill, view_insertTask]
      exact .post hposting
  · cases hstep

/-- A task ends, and with it its errand. -/
theorem quietly_setTask_finished (hid : s.spawned id = some task) (hmay : task.mayFinish = true) :
    Quietly s.view (s.setTask id .finished).view := by
  have hfinish : ∀ job, task.state = .running job → Quiet s.view (s.view.setTask id .ended) :=
    fun job hjob => .finish ((tasks_view hid).trans (congrArg some hjob))
  have hidle : task.errand = .idle → (s.setTask id .finished).view = s.view.setTask id .ended := by
    intro herrand
    rw [view_setTask]
    exact send_of_eq ((errand_creation hid).trans herrand)
  cases task with
  | creation pc =>
    cases pc with
    | fetching game taskId =>
      -- It gives up the proof it was about to spawn.
      have hheading : s.view.errand (.creation id) = .heading (.gameProving game) (some taskId) :=
        errand_creation hid
      have hstill : (s.view.send (.creation id) .idle).tasks id = some (.running .gameCreation) :=
        tasks_view hid
      rw [view_setTask]
      exact .tail (.single (.giveUp hheading)) (.finish hstill)
    | inserting game taskId => cases hmay
    | submitting => exact hidle rfl ▸ .single (hfinish _ rfl)
    | confirming game => exact hidle rfl ▸ .single (hfinish _ rfl)
    | returning => exact hidle rfl ▸ .single (hfinish _ rfl)
  | proving game => exact hidle rfl ▸ .single (hfinish _ rfl)
  | resolution => exact hidle rfl ▸ .single (hfinish _ rfl)
  | bondClaiming => exact hidle rfl ▸ .single (hfinish _ rfl)
  | finished => cases hmay

theorem quietly_finishTask (hstep : s.finishTask id = some t) : Quietly s.view t.view := by
  unfold finishTask at hstep
  split at hstep
  · rename_i task hid
    split at hstep
    · rename_i hmay
      cases hstep
      exact quietly_setTask_finished hid hmay
    · cases hstep
  · cases hstep

/-- **A step sets out for the job it starts, if it starts one, and moves quietly from
there.**  A creation task sets out in fast finality mode only. -/
theorem step_moves (h : s.view.Tracked) (hhandled : s.Handled) {l : Label}
    (hstep : s.step fast l = some t) :
    (s.starts fast l = none ∧ Quietly s.view t.view) ∨
      ∃ p job b, s.starts fast l = some job ∧ SetsOut s.view p job b ∧ Quietly b t.view ∧
        (p = .main ∨ fast = true) := by
  have hsame : t.view = s.view → Quietly s.view t.view := fun heq => heq ▸ .refl
  cases l with
  | tick => exact .inl ⟨rfl, hsame (view_findCompleted hstep)⟩
  | remove id => exact .inl ⟨rfl, .single (quiet_removeCompleted hhandled hstep)⟩
  | handled => exact .inl ⟨rfl, hsame (view_completedHandled hstep)⟩
  | check =>
    obtain ⟨hnone, heq⟩ | ⟨job, b, hstarts, hout, hmoves⟩ := moves_checkActive fast hstep
    · exact .inl ⟨hnone, hsame heq⟩
    · exact .inr ⟨.main, job, b, hstarts, hout, hmoves, .inl rfl⟩
  | answered yes => exact .inl ⟨rfl, quietly_startAnswered h hstep⟩
  | scanned answer => exact .inl ⟨rfl, hsame (view_defend hstep)⟩
  | blockNumber ok => exact .inl ⟨rfl, .single (quiet_spawnDefense h hstep)⟩
  | insert nextBlock => exact .inl ⟨rfl, .single (quiet_insertSpawned hstep)⟩
  | created id game => exact .inl ⟨rfl, hsame (view_createGame hstep)⟩
  | receipt id =>
    obtain ⟨hnone, heq⟩ | ⟨hfast, job, b, hstarts, hout, hmoves⟩ := moves_gameConfirmed hstep
    · exact .inl ⟨hnone, hsame heq⟩
    · exact .inr ⟨.creation id, job, b, hstarts, hout, hmoves, .inr hfast⟩
  | gameBlockNumber id ok => exact .inl ⟨rfl, .single (quiet_spawnFastFinality h hstep)⟩
  | insertProving id => exact .inl ⟨rfl, .single (quiet_insertFastFinality hstep)⟩
  | finish id => exact .inl ⟨rfl, quietly_finishTask hstep⟩

/-! ### Invariants -/

/-- What a step leaves on the board is tracked, and what has ended stays so. -/
theorem tracked_step (h : s.view.Tracked) (hhandled : s.Handled) {l : Label}
    (hstep : s.step fast l = some t) : t.view.Tracked ∧
      ∀ id, s.view.tasks id = some .ended → t.view.tasks id = some .ended := by
  obtain ⟨-, hmoves⟩ | ⟨p, job, b, -, hout, hmoves, -⟩ := step_moves h hhandled hstep
  · exact ⟨h.quietly hmoves, fun id hid => h.ended_quietly hmoves hid⟩
  · have hb := h.setsOut hout
    obtain ⟨-, rfl⟩ := hout
    exact ⟨hb.quietly hmoves, fun id hid => hb.ended_quietly hmoves hid⟩

theorem next_ne_handling (job : Job) (completed : List TaskId) :
    job.next ≠ .handling completed := by
  cases job <;> simp [Job.next]

theorem start_main_ne_handling (job : Job) (completed : List TaskId) :
    (s.start job).main ≠ .handling completed := by
  cases job <;> simp [start, goto, fetchAdd]

theorem handled_findCompleted (hstep : s.findCompleted = some t) : t.Handled := by
  unfold findCompleted at hstep
  split at hstep
  · cases hstep
    intro completed hmain id hid
    cases hmain
    have hfinished : s.isFinished id = true := (List.mem_filter.mp hid).2
    have hspawned : s.spawned id = some .finished := by simpa [isFinished] using hfinished
    exact tasks_view (s := s) hspawned
  · cases hstep

/-! ### Where the main loop goes -/

theorem main_removeCompleted (hstep : s.removeCompleted id = some t) : ∃ completed,
    s.main = .handling completed ∧ t.main = .handling (completed.erase id) := by
  unfold removeCompleted at hstep
  split at hstep
  · rename_i completed hmain
    split at hstep
    · cases hstep
      exact ⟨completed, hmain, rfl⟩
    · cases hstep
  · cases hstep

theorem main_completedHandled (hstep : s.completedHandled = some t) :
    t.main = .checking .gameCreation := by
  unfold completedHandled at hstep
  split at hstep
  · cases hstep
    rfl
  · cases hstep

theorem main_checkActive (hstep : s.checkActive = some t) (completed : List TaskId) :
    t.main ≠ .handling completed := by
  unfold checkActive at hstep
  split at hstep
  · rename_i job hmain
    cases hstep
    split
    · exact next_ne_handling job completed
    · exact start_main_ne_handling job completed
  · cases hstep

theorem main_startAnswered {yes : Bool} (hstep : s.startAnswered yes = some t)
    (completed : List TaskId) : t.main ≠ .handling completed := by
  unfold startAnswered at hstep
  split at hstep
  · rename_i kind hmain
    split at hstep
    · cases hstep
      exact fun h => by cases h
    · split at hstep
      · cases hstep
      · cases hstep
        exact next_ne_handling kind.job completed
  · cases hstep

theorem main_defend {answer : Option Address} (hstep : s.defend answer = some t) :
    ∃ job, t.main = .checking job := by
  unfold defend at hstep
  split at hstep
  · split at hstep
    · cases hstep
      exact ⟨_, rfl⟩
    · cases hstep
      exact ⟨_, rfl⟩
  · cases hstep

theorem main_spawnDefense {ok : Bool} (hstep : s.spawnDefense ok = some t)
    (completed : List TaskId) : t.main ≠ .handling completed := by
  unfold spawnDefense at hstep
  split at hstep
  · split at hstep
    · cases hstep
      exact fun h => by cases h
    · cases hstep
      exact fun h => by cases h
  · cases hstep

theorem main_insertSpawned {nextBlock : Bytes32} (hstep : s.insertSpawned nextBlock = some t) :
    ∃ job : Job, t.main = job.next := by
  unfold insertSpawned at hstep
  split at hstep
  · rename_i job id hmain
    cases hstep
    exact ⟨job, rfl⟩
  · cases hstep

theorem main_createGame (hstep : s.createGame id game = some t) : t.main = s.main := by
  unfold createGame at hstep
  split at hstep
  · cases hstep
    rfl
  · cases hstep

theorem main_gameConfirmed (hstep : s.gameConfirmed fast id = some t) : t.main = s.main := by
  unfold gameConfirmed at hstep
  split at hstep
  · split at hstep
    · cases hstep
      rfl
    · cases hstep
      rfl
  · cases hstep

theorem main_spawnFastFinality {ok : Bool} (hstep : s.spawnFastFinality id ok = some t) :
    t.main = s.main := by
  unfold spawnFastFinality at hstep
  split at hstep
  · split at hstep
    · cases hstep
      rfl
    · cases hstep
      rfl
  · cases hstep

theorem main_insertFastFinality (hstep : s.insertFastFinality id = some t) :
    t.main = s.main := by
  unfold insertFastFinality at hstep
  split at hstep
  · split at hstep
    · cases hstep
    · cases hstep
      rfl
  · cases hstep

theorem main_finishTask (hstep : s.finishTask id = some t) : t.main = s.main := by
  unfold finishTask at hstep
  split at hstep
  · split at hstep
    · cases hstep
      rfl
    · cases hstep
  · cases hstep

/-- The tasks to remove become fewer, unless the main loop has just found them. -/
theorem main_step {l : Label} (hstep : s.step fast l = some t) :
    l = .tick ∨ t.main = s.main ∨ (∀ completed, t.main ≠ .handling completed) ∨
      ∃ completed id, s.main = .handling completed ∧ t.main = .handling (completed.erase id) := by
  cases l with
  | tick => exact .inl rfl
  | remove id =>
    obtain ⟨completed, hmain, hmain'⟩ := main_removeCompleted hstep
    exact .inr (.inr (.inr ⟨completed, id, hmain, hmain'⟩))
  | handled => exact .inr (.inr (.inl (by simp [main_completedHandled hstep])))
  | check => exact .inr (.inr (.inl (main_checkActive hstep)))
  | answered yes => exact .inr (.inr (.inl (main_startAnswered hstep)))
  | scanned answer =>
    obtain ⟨job, hmain⟩ := main_defend hstep
    exact .inr (.inr (.inl (by simp [hmain])))
  | blockNumber ok => exact .inr (.inr (.inl (main_spawnDefense hstep)))
  | insert nextBlock =>
    obtain ⟨job, hmain⟩ := main_insertSpawned hstep
    exact .inr (.inr (.inl (hmain ▸ next_ne_handling job)))
  | created id game => exact .inr (.inl (main_createGame hstep))
  | receipt id => exact .inr (.inl (main_gameConfirmed hstep))
  | gameBlockNumber id ok => exact .inr (.inl (main_spawnFastFinality hstep))
  | insertProving id => exact .inr (.inl (main_insertFastFinality hstep))
  | finish id => exact .inr (.inl (main_finishTask hstep))

theorem handled_step (h : s.view.Tracked) (hhandled : s.Handled) {l : Label}
    (hstep : s.step fast l = some t) : t.Handled := by
  have hended := (tracked_step h hhandled hstep).2
  obtain rfl | hsame | hnot | ⟨completed, id, hmain, hmain'⟩ := main_step hstep
  · exact handled_findCompleted hstep
  · intro completed hmain id hid
    exact hended id (hhandled completed (hsame ▸ hmain) id hid)
  · intro completed hmain
    exact absurd hmain (hnot completed)
  · -- The tasks left to remove are some of those found.
    intro completed' hmain'' id' hid
    rw [hmain'] at hmain''
    cases hmain''
    exact hended id' (hhandled completed hmain id' (List.mem_of_mem_erase hid))

/-- The question for a job is whether the map holds a task for it. -/
theorem hasActive_iff :
    s.hasActive job = true ↔ ∃ id info, (id, info) ∈ s.tasks ∧ info.job = job := by
  cases job <;>
    simp only [hasActive, hasActiveTaskOfType, hasActiveProvingForGame, List.any_eq_true,
      Prod.exists] <;>
    refine exists_congr fun id => exists_congr fun info => and_congr_right fun _ => ?_ <;>
    cases info <;> simp [TaskInfo.discriminant, TaskInfo.job]

end Proposer
end OpSuccinct.FaultTasks
