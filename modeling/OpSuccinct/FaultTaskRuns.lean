import OpSuccinct.FaultTaskMoves

/-! # Duplicate work in the fault proposer

In every state of every run each running task is in the map of tasks or about to be inserted,
and the main loop has one task at most for game creation, game resolution and bond claiming.

The proof of a game is started in two places.  The main loop asks whether the map holds a
proving task, and spawns one later; a game creation task with fast finality does not ask.
So a game is proven twice when one of them starts while the other is on its way, or while
the task of the other runs (`no_duplicate_work_when`, `game_proven_twice`).
-/
namespace OpSuccinct.FaultTasks

open Jobs Transition

/-! ## Running tasks -/

variable {s t : Proposer} {id taskId : TaskId} {job : Job} {game : Address} {task : Task}
  {fast : Bool}

namespace Proposer
open Board

def Runs (s : Proposer) (id : TaskId) (job : Job) : Prop :=
  ∃ task, s.spawned id = some task ∧ task.job = some job

/-- At most one running task is for the job. -/
def OneTask (s : Proposer) (job : Job) : Prop :=
  ∀ id id', s.Runs id job → s.Runs id' job → id = id'

/-- The step that spawned the task is about to insert it. -/
def AboutToInsert (s : Proposer) (id : TaskId) (job : Job) : Prop :=
  s.main = .inserting job id ∨ ∃ creationId game,
    s.spawned creationId = some (.creation (.inserting game id)) ∧ job = .gameProving game

/-- **Every running task** is in the map, or about to be. -/
def AllTracked (s : Proposer) : Prop :=
  ∀ id job, s.Runs id job →
    (∃ info, (id, info) ∈ s.tasks ∧ info.job = job) ∨ s.AboutToInsert id job

/-- A proving task of the game runs, or the main loop or a creation task is about to spawn
one. -/
def Busy (s : Proposer) (game : Address) : Prop :=
  (∃ id, s.Runs id (.gameProving game)) ∨ (∃ taskId, s.main = .fetching game taskId) ∨
    ∃ id taskId, s.spawned id = some (.creation (.fetching game taskId))

/-- A step that commits to proving a game does so when the game is not busy. -/
def Separate (fast : Bool) (e : Taken Proposer Label) : Prop :=
  ∀ game, e.pre.starts fast e.label = some (.gameProving game) → ¬ e.pre.Busy game

theorem runs_iff : s.Runs id job ↔ s.view.tasks id = some (.running job) := by
  have hjob : ∀ task : Task, task.job = some job ↔ task.state = .running job := by
    intro task
    cases task <;> simp [Task.job, Task.state]
  constructor
  · rintro ⟨task, hid, htask⟩
    rw [tasks_view hid, (hjob task).mp htask]
  · intro h
    obtain ⟨task, hid, hstate⟩ := Option.map_eq_some_iff.mp h
    exact ⟨task, hid, (hjob task).mpr hstate⟩

theorem main_of_posting (h : s.view.errand .main = .posting job id) :
    s.main = .inserting job id := by
  rw [errand_main] at h
  cases hmain : s.main with
  | inserting job' id' =>
    rw [hmain] at h
    cases h
    rfl
  | _ =>
    rw [hmain] at h
    cases h

theorem spawned_of_errand {e : Errand Job TaskId} (h : s.view.errand (.creation id) = e)
    (he : e ≠ .idle) : ∃ task, s.spawned id = some task ∧ task.errand = e := by
  cases hid : s.spawned id with
  | none => exact absurd (h.symm.trans (congrArg (Option.elim · _ _) hid)) he
  | some task => exact ⟨task, rfl, (errand_creation hid).symm.trans h⟩

/-- What a creation task with an errand is doing. -/
theorem creation_of_errand (h : task.errand ≠ .idle) : ∃ game taskId,
    task = .creation (.fetching game taskId) ∧
      task.errand = .heading (.gameProving game) (some taskId) ∨
    task = .creation (.inserting game taskId) ∧
      task.errand = .posting (.gameProving game) taskId := by
  cases task with
  | creation pc =>
    cases pc with
    | fetching game taskId => exact ⟨game, taskId, .inl ⟨rfl, rfl⟩⟩
    | inserting game taskId => exact ⟨game, taskId, .inr ⟨rfl, rfl⟩⟩
    | _ => exact absurd rfl h
  | _ => exact absurd rfl h

theorem creation_of_heading {key : Option TaskId}
    (h : s.view.errand (.creation id) = .heading job key) : ∃ game taskId,
      s.spawned id = some (.creation (.fetching game taskId)) ∧ job = .gameProving game ∧
        key = some taskId := by
  obtain ⟨task, hid, herrand⟩ := spawned_of_errand h (by simp)
  obtain ⟨game, taskId, ⟨rfl, hpc⟩ | ⟨rfl, hpc⟩⟩ := creation_of_errand (by rw [herrand]; simp)
  · rw [herrand] at hpc
    cases hpc
    exact ⟨game, taskId, hid, rfl, rfl⟩
  · rw [herrand] at hpc
    cases hpc

theorem creation_of_posting {taskId : TaskId}
    (h : s.view.errand (.creation id) = .posting job taskId) : ∃ game,
      s.spawned id = some (.creation (.inserting game taskId)) ∧ job = .gameProving game := by
  obtain ⟨task, hid, herrand⟩ := spawned_of_errand h (by simp)
  obtain ⟨game, taskId', ⟨rfl, hpc⟩ | ⟨rfl, hpc⟩⟩ := creation_of_errand (by rw [herrand]; simp)
  · rw [herrand] at hpc
    cases hpc
  · rw [herrand] at hpc
    cases hpc
    exact ⟨game, hid, rfl⟩

theorem allTracked (h : s.view.Tracked) : s.AllTracked := by
  intro id job hruns
  obtain hposted | ⟨p, hp⟩ := h.accounted id job (runs_iff.mp hruns)
  · exact .inl hposted
  · cases p with
    | main => exact .inr (.inl (main_of_posting hp))
    | creation creationId =>
      obtain ⟨game, hid, hjob⟩ := creation_of_posting hp
      exact .inr (.inr ⟨creationId, game, hid, hjob⟩)

theorem oneTask_of_exclusive (h : s.view.Exclusive job) : s.OneTask job :=
  fun _ _ hid hid' => h.task_unique (runs_iff.mp hid) (runs_iff.mp hid')

/-- The main loop heads for a proving task where it awaits the block number. -/
theorem main_of_heading {key : Option TaskId}
    (h : s.view.errand .main = .heading (.gameProving game) key) :
    ∃ taskId, s.main = .fetching game taskId ∧ key = some taskId := by
  rw [errand_main] at h
  cases hmain : s.main with
  | fetching game' taskId =>
    rw [hmain] at h
    cases h
    exact ⟨taskId, rfl, rfl⟩
  | starting kind =>
    rw [hmain] at h
    cases kind <;> cases h
  | _ =>
    rw [hmain] at h
    cases h

/-- A game is busy exactly when somebody is on its proof. -/
theorem free_iff_not_busy : s.view.Free (.gameProving game) ↔ ¬ s.Busy game := by
  constructor
  · rintro hfree (⟨id, hruns⟩ | ⟨taskId, hmain⟩ | ⟨id, taskId, hid⟩)
    · exact hfree _ (.task (runs_iff.mp hruns))
    · exact hfree (.inl .main) (.party (by rw [errand_main, hmain]; rfl))
    · exact hfree (.inl (.creation id)) (.party (errand_creation hid))
  · intro hbusy e he
    cases he with
    | task hk => exact hbusy (.inl ⟨_, runs_iff.mpr hk⟩)
    | party hp =>
      rename_i p key
      cases p with
      | main =>
        obtain ⟨taskId, hmain, -⟩ := main_of_heading hp
        exact hbusy (.inr (.inl ⟨taskId, hmain⟩))
      | creation id =>
        obtain ⟨game', taskId, hid, hjob, -⟩ := creation_of_heading hp
        cases hjob
        exact hbusy (.inr (.inr ⟨id, taskId, hid⟩))

/-- The question of the main loop is right where no creation task has an errand for the
job: nobody else is on it. -/
theorem free_of_checking (h : s.view.Tracked) (hmain : s.main = .checking job)
    (hactive : s.hasActive job = false)
    (hheading : ∀ id key, s.view.errand (.creation id) ≠ .heading job key)
    (hposting : ∀ id taskId, s.view.errand (.creation id) ≠ .posting job taskId) :
    s.view.Free job := by
  have hidle : s.view.errand .main = .idle := by rw [errand_main, hmain]; rfl
  intro e he
  cases he with
  | party hp =>
    rename_i p key
    cases p with
    | main =>
      rw [hidle] at hp
      cases hp
    | creation id => exact hheading id key hp
  | task hk =>
    -- A running task is in the map, for nobody is about to insert one for the job.
    obtain ⟨info, hmem, hjob⟩ | ⟨p, hp⟩ := h.accounted _ _ hk
    · rw [hasActive_iff.mpr ⟨_, info, hmem, hjob⟩] at hactive
      cases hactive
    · cases p with
      | main =>
        rw [hidle] at hp
        cases hp
      | creation id => exact hposting id _ hp

theorem free_of_checking_kind {kind : Kind} (h : s.view.Tracked)
    (hmain : s.main = .checking kind.job) (hactive : s.hasActive kind.job = false) :
    s.view.Free kind.job := by
  have hkind : ∀ game, kind.job ≠ .gameProving game := by cases kind <;> simp [Kind.job]
  apply free_of_checking h hmain hactive
  · intro id key hp
    obtain ⟨game, taskId, -, hjob, -⟩ := creation_of_heading hp
    exact hkind game hjob
  · intro id taskId hp
    obtain ⟨game, -, hjob⟩ := creation_of_posting hp
    exact hkind game hjob

/-- A step starts a job by a question of the main loop, or by a receipt. -/
theorem starts_cases {l : Label} (hstarts : s.starts fast l = some job) :
    (l = .check ∧ s.main = .checking job ∧ s.hasActive job = false) ∨
      ∃ id game, l = .receipt id ∧ fast = true ∧ job = .gameProving game ∧
        s.spawned id = some (.creation (.confirming game)) := by
  cases l with
  | check =>
    simp only [starts] at hstarts
    split at hstarts
    · rename_i job' hmain
      split at hstarts
      · cases hstarts
      · rename_i hactive
        obtain rfl := Option.some.inj hstarts
        exact .inl ⟨rfl, hmain, by simpa using hactive⟩
    · cases hstarts
  | receipt id =>
    simp only [starts] at hstarts
    split at hstarts
    · rename_i game hid
      split at hstarts
      · rename_i hfast
        exact .inr ⟨id, game, rfl, hfast, (Option.some.inj hstarts).symm, hid⟩
      · cases hstarts
    · cases hstarts
  | _ => cases hstarts

/-! ### Runs -/

/-- A step keeps a job exclusive if it does not start it while somebody is on it. -/
theorem exclusive_step (h : s.view.Tracked) (hhandled : s.Handled) {l : Label}
    (hstep : s.step fast l = some t) (hexclusive : s.view.Exclusive job)
    (hfree : s.starts fast l = some job → s.view.Free job) : t.view.Exclusive job := by
  obtain ⟨-, hmoves⟩ | ⟨p, job', b, hstarts, hout, hmoves, -⟩ := step_moves h hhandled hstep
  · exact hexclusive.quietly hmoves
  · have hb : b.Exclusive job := hexclusive.setsOut hout (by
      rintro rfl
      exact hfree hstarts)
    exact hb.quietly hmoves

theorem tracked_new : new.view.Tracked := tracked_of_idle (fun p => by cases p <;> rfl) fun _ => rfl

theorem exclusive_new : new.view.Exclusive job :=
  Free.exclusive (free_of_idle (fun p => by cases p <;> rfl) fun _ => rfl)

/-- **What holds in every state of every run**, apart from the proofs of one game. -/
structure Ordered (s : Proposer) : Prop where
  tracked : s.view.Tracked
  handled : s.Handled
  exclusive : ∀ kind : Kind, s.view.Exclusive kind.job

theorem Ordered.step (h : s.Ordered) {l : Label} (hstep : s.step fast l = some t) :
    t.Ordered where
  tracked := (tracked_step h.tracked h.handled hstep).1
  handled := handled_step h.tracked h.handled hstep
  exclusive := by
    intro kind
    refine exclusive_step h.tracked h.handled hstep (h.exclusive kind) fun hstarts => ?_
    obtain ⟨-, hmain, hactive⟩ | ⟨id, game, -, -, hjob, -⟩ := starts_cases hstarts
    · exact free_of_checking_kind h.tracked hmain hactive
    · cases kind <;> cases hjob

theorem ordered_new : new.Ordered where
  tracked := tracked_new
  handled := fun _ h => by cases h
  exclusive := fun _ => exclusive_new

variable {tr : List (Taken Proposer Label)}

theorem ordered_of_run (hrun : Run (Steps fast) new tr s) : s.Ordered := by
  refine hrun.invariant (I := Ordered) ?_ ordered_new
  rintro a e b h ⟨-, -, hstep⟩
  exact h.step hstep

/-- A run whose steps are separate has one proving task for each game. -/
theorem exclusive_of_separate (hrun : Run (Steps fast) new tr s)
    (hseparate : ∀ e ∈ tr, Separate fast e) : s.view.Exclusive (.gameProving game) := by
  induction hrun with
  | nil => exact exclusive_new
  | snoc hr hs ih =>
    obtain ⟨hpre, -, hstep⟩ := hs
    have hexclusive := ih fun e he => hseparate e (List.mem_append_left _ he)
    have hordered := ordered_of_run hr
    refine exclusive_step hordered.tracked hordered.handled hstep hexclusive fun hstarts => ?_
    exact free_iff_not_busy.mpr (hpre ▸ hseparate _ (List.mem_append_right _ (.head _)) game
      (hpre ▸ hstarts))

/-- Without fast finality no creation task has an errand. -/
theorem idle_of_not_fast (hrun : Run (Steps false) new tr s) :
    s.view.errand (.creation id) = .idle := by
  induction hrun with
  | nil => rfl
  | snoc hr hs ih =>
    obtain ⟨rfl, -, hstep⟩ := hs
    have hordered := ordered_of_run hr
    obtain ⟨-, hmoves⟩ | ⟨p, job, b, -, hout, hmoves, hp⟩ :=
      step_moves hordered.tracked hordered.handled hstep
    · exact idle_quietly hmoves ih
    · obtain rfl | hfast := hp
      · -- The party that sets out is the main loop.
        obtain ⟨-, rfl⟩ := hout
        exact idle_quietly hmoves (by rw [errand_send, if_neg (by simp), ih])
      · cases hfast

/-- **Without fast finality** every step is separate. -/
theorem separate_of_not_fast (hrun : Run (Steps false) new tr s) :
    ∀ e ∈ tr, Separate false e := by
  intro e he game hstarts
  obtain ⟨before, after, rfl⟩ := List.append_of_mem he
  obtain ⟨a, b, hbefore, ⟨rfl, -, -⟩, -⟩ := hrun.of_append_cons
  obtain ⟨-, hmain, hactive⟩ | ⟨id, game', -, hfast, -, -⟩ := starts_cases hstarts
  · have hidle : ∀ id, e.pre.view.errand (.creation id) = .idle :=
      fun id => idle_of_not_fast hbefore
    exact free_iff_not_busy.mp (free_of_checking (ordered_of_run hbefore).tracked hmain hactive
      (by simp [hidle]) (by simp [hidle]))
  · cases hfast

/-! ### Two proofs for one game -/

/-- The party that starts on a proof takes an id. -/
theorem view_of_starts {l : Label} (hstep : s.step fast l = some t)
    (hstarts : s.starts fast l = some (.gameProving game)) : ∃ p, s.view.errand p = .idle ∧
      t.view = (s.view.send p (.heading (.gameProving game) (some s.nextTaskId))).take
        s.nextTaskId := by
  obtain ⟨rfl, hmain, hactive⟩ | ⟨id, game', rfl, hfast, hjob, hid⟩ := starts_cases hstarts
  · have hstep : s.checkActive = some t := hstep
    have hnot : ¬ s.hasActive (.gameProving game) = true := by simp [hactive]
    simp only [checkActive, hmain, if_neg hnot, start, Option.some.injEq] at hstep
    rw [← hstep, view_fetchAdd, view_goto]
    exact ⟨.main, by rw [errand_main, hmain]; rfl, rfl⟩
  · cases hjob
    have hstep : s.gameConfirmed fast id = some t := hstep
    simp only [gameConfirmed, hid, if_pos hfast, Option.some.injEq] at hstep
    rw [← hstep, view_fetchAdd, view_setTask_creation hid]
    exact ⟨.creation id, errand_creation hid, rfl⟩

/-- Nothing keeps a party that heads for a game from spawning its proving task. -/
theorem launches {p : Party} (fast : Bool) (h : s.view.Tracked)
    (hp : s.view.errand p = .heading (.gameProving game) (some taskId)) :
    ∃ l t, s.step fast l = some t ∧ t.view =
      (s.view.send p (.posting (.gameProving game) taskId)).setTask taskId
        (.running (.gameProving game)) := by
  cases p with
  | main =>
    obtain ⟨taskId', hmain, hkey⟩ := main_of_heading hp
    cases hkey
    exact ⟨.blockNumber true, _, by simp only [step, spawnDefense, hmain]; rfl,
      view_spawnDefense h hmain⟩
  | creation id =>
    obtain ⟨game', taskId', hid, hjob, hkey⟩ := creation_of_heading hp
    cases hjob
    cases hkey
    exact ⟨.gameBlockNumber id true, _, by simp only [step, spawnFastFinality, hid]; rfl,
      view_spawnFastFinality h hid⟩

/-- A party that heads for a proving task has an id for it. -/
theorem key_of_heading {p : Party} {key : Option TaskId}
    (hp : s.view.errand p = .heading (.gameProving game) key) : ∃ taskId, key = some taskId := by
  cases p with
  | main =>
    obtain ⟨taskId, -, hkey⟩ := main_of_heading hp
    exact ⟨taskId, hkey⟩
  | creation id =>
    obtain ⟨-, taskId, -, -, hkey⟩ := creation_of_heading hp
    exact ⟨taskId, hkey⟩

/-- The game gets a second proving task. -/
def ProvenTwice (fast : Bool) (s : Proposer) (game : Address) : Prop :=
  ∃ tr t, Run (Steps fast) s tr t ∧ ¬ t.OneTask (.gameProving game)

/-- A party that heads for a game with a running proving task gets it a second one. -/
theorem provenTwice_of_running {p : Party} {id : TaskId} (h : s.view.Tracked)
    (hp : s.view.errand p = .heading (.gameProving game) (some taskId))
    (hid : s.view.tasks id = some (.running (.gameProving game))) : ProvenTwice fast s game := by
  obtain ⟨l, t, hstep, hview⟩ := launches fast h hp
  have hne : id ≠ taskId := by
    rintro rfl
    rw [h.fresh _ _ _ hp] at hid
    cases hid
  refine ⟨[⟨s, l, t⟩], t, .single ⟨rfl, rfl, hstep⟩, fun hone => hne (hone id taskId ?_ ?_)⟩
  · rw [runs_iff, hview, tasks_setTask, if_neg hne]
    exact hid
  · rw [runs_iff, hview, tasks_setTask, if_pos rfl]

/-- **Two that are on one proof** can come to run it twice. -/
theorem provenTwice_of_engaged {p : Party} {e : Party ⊕ TaskId} (h : s.Ordered)
    (hp : s.view.errand p = .heading (.gameProving game) (some taskId))
    (he : Engaged s.view (.gameProving game) e) (hne : e ≠ .inl p) :
    ProvenTwice fast s game := by
  cases he with
  | task hid => exact provenTwice_of_running h.tracked hp hid
  | party hq =>
    rename_i q key
    -- `p` spawns its task first, which leaves `q` where it is.
    obtain ⟨taskId', rfl⟩ := key_of_heading hq
    obtain ⟨l, t, hstep, hview⟩ := launches fast h.tracked hp
    have hq' : t.view.errand q = .heading (.gameProving game) (some taskId') := by
      have hqp : q ≠ p := fun heq => hne (congrArg Sum.inl heq)
      rw [hview, errand_setTask, errand_send, if_neg hqp, hq]
    have hid : t.view.tasks taskId = some (.running (.gameProving game)) := by
      rw [hview, tasks_setTask, if_pos rfl]
    obtain ⟨tr, u, hrun, htwice⟩ := provenTwice_of_running (h.step hstep).tracked hq' hid
    exact ⟨⟨s, l, t⟩ :: tr, u, .cons ⟨rfl, rfl, hstep⟩ hrun, htwice⟩

/-- A step that starts the proof of a busy game lets the game be proven twice. -/
theorem provenTwice_of_starts {l : Label} (h : s.Ordered) (hstep : s.step fast l = some t)
    (hstarts : s.starts fast l = some (.gameProving game)) (hbusy : s.Busy game) :
    ProvenTwice fast t game := by
  obtain ⟨p, hidle, hview⟩ := view_of_starts hstep hstarts
  have hp : t.view.errand p = .heading (.gameProving game) (some s.nextTaskId) := by
    rw [hview, errand_take, errand_send, if_pos rfl]
  have hnot : ¬ s.view.Free (.gameProving game) := fun hfree => free_iff_not_busy.mp hfree hbusy
  obtain ⟨e, he⟩ := not_forall.mp hnot
  have he := not_not.mp he
  have hne : e ≠ .inl p := by
    rintro rfl
    cases he with
    | party hp =>
      rw [hidle] at hp
      cases hp
  refine provenTwice_of_engaged (h.step hstep) hp ?_ hne
  cases he with
  | task hid => exact .task (by rw [hview, tasks_take, tasks_send, hid])
  | party hq =>
    rename_i q key
    have hqp : q ≠ p := fun heq => hne (congrArg Sum.inl heq)
    exact .party (by rw [hview, errand_take, errand_send, if_neg hqp, hq])

/-- **When no work is duplicated.**  In every state of every run of the main loop and its
tasks, every running task is in the map or about to be inserted by the step that spawned it,
and at most one task runs for game creation, for game resolution and for bond claiming.  At
most one proving task runs for each game if each step that commits to proving a game does so
when the game is not busy, as it always does without fast finality; after a step that does
not, the game can be proven twice. -/
theorem no_duplicate_work_when {fast : Bool} (hrun : Run (Steps fast) new tr s) :
    s.AllTracked ∧ (∀ kind : Kind, s.OneTask kind.job) ∧
      ((∀ e ∈ tr, Separate fast e) → ∀ game, s.OneTask (.gameProving game)) ∧
      (fast = false → ∀ e ∈ tr, Separate fast e) ∧
      ∀ e ∈ tr, ¬ Separate fast e → ∃ game, ProvenTwice fast e.post game := by
  have hordered := ordered_of_run hrun
  refine ⟨allTracked hordered.tracked, fun kind => oneTask_of_exclusive (hordered.exclusive kind),
    fun hseparate game => oneTask_of_exclusive (exclusive_of_separate hrun hseparate), ?_, ?_⟩
  · rintro rfl
    exact separate_of_not_fast hrun
  · intro e he hnot
    obtain ⟨before, after, rfl⟩ := List.append_of_mem he
    obtain ⟨a, b, hbefore, ⟨rfl, rfl, hstep⟩, -⟩ := hrun.of_append_cons
    obtain ⟨game, hgame⟩ := not_forall.mp hnot
    obtain ⟨hstarts, hbusy⟩ := Classical.not_imp.mp hgame
    exact ⟨game, provenTwice_of_starts (ordered_of_run hbefore) hstep hstarts (not_not.mp hbusy)⟩

/-! ### A game challenged while its creation is confirmed

The main loop spawns a creation task, task 1.  Its transaction creates the game, which is
challenged before the receipt of the creation has the confirmations it is awaited with. -/

def exampleGame : Address := 0x42#160

/-- Two iterations of the main loop: the second finds the game, and spawns task 3. -/
def exampleLoop : List Label :=
  [.tick, .handled, .check, .answered true, .insert 8, .scanned none, .check, .answered true,
    .insert 0, .check, .answered false, .created 1 exampleGame, .tick, .handled, .check,
    .scanned (some exampleGame), .check, .blockNumber true, .insert 0]

/-- The receipt arrives, and with fast finality the creation task spawns task 4. -/
def exampleReceipt : List Label := [.receipt 1, .gameBlockNumber 1 true, .insertProving 1]

/-- The loop without fast finality, with the proving task of the game. -/
theorem no_duplicate_work_example :
    (endOf (step · false) new exampleLoop).Runs 3 (.gameProving exampleGame) ∧
      ∀ game, (endOf (step · false) new exampleLoop).OneTask (.gameProving game) := by
  have hrun : Run (Steps false) new (takenAll (step · false) new exampleLoop)
      (endOf (step · false) new exampleLoop) := run_takenAll rfl
  obtain ⟨-, -, hone, hseparate, -⟩ := no_duplicate_work_when hrun
  exact ⟨⟨.proving exampleGame, rfl, rfl⟩, hone (hseparate rfl)⟩

/-- **The failing run**: with fast finality tasks 3 and 4 both prove the game. -/
theorem game_proven_twice :
    ¬ ∀ fast tr s, Run (Steps fast) new tr s →
      s.AllTracked ∧ (∀ kind : Kind, s.OneTask kind.job) ∧
        ∀ game, s.OneTask (.gameProving game) := by
  intro hall
  have hrun : Run (Steps true) new (takenAll (step · true) new (exampleLoop ++ exampleReceipt))
      (endOf (step · true) new (exampleLoop ++ exampleReceipt)) := run_takenAll rfl
  have hone := (hall true _ _ hrun).2.2 exampleGame 3 4 ⟨.proving exampleGame, rfl, rfl⟩
    ⟨.proving exampleGame, rfl, rfl⟩
  cases hone

end Proposer
end OpSuccinct.FaultTasks
