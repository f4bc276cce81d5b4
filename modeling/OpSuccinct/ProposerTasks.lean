import OpSuccinct.Proposer

/-! # Tasks and requests of the proposer

What the steps of the proposer do to the database and to the tasks, the map being
taken with the handle that is about to be put into it (`Sys.view`).  Few things
happen (`Effect`): a live task moves on and writes to its own request, the main loop
drops a handle, writes to a request no live task is on, inserts requests or spawns a
task, and a restart ends all tasks and cleans up.

The main loop is in control of its tasks, and the status of a request with a live
task is the one the task left it in (`View.Ok`).  What it knows of the requests it
holds stays true while tasks move (`Assert`, `Assert.keeps`).
-/
namespace OpSuccinct.Validity

open Fleets Transition

/-! ## Tasks -/

def TaskPc.Live : TaskPc → Prop
  | .finished _ => False
  | _ => True

/-- The statuses before a request is with the prover. -/
def RequestStatus.InTask (status : RequestStatus) : Prop :=
  status = .unrequested ∨ status = .witnessGeneration ∨ status = .execution

/-- The statuses a task at a point leaves its request in. -/
def TaskPc.Allows : TaskPc → RequestStatus → Prop
  | .spawned, status => status = .unrequested
  | .fetching _, status | .witnessed, status => status = .witnessGeneration
  | .executing, status => status = .execution
  | .finished false, status => status.InTask
  | .finished true, _ => True

theorem TaskPc.Allows.inTask {pc : TaskPc} {status : RequestStatus} (h : pc.Allows status)
    (hpc : pc ≠ .finished true) : status.InTask := by
  match pc, h with
  | .spawned, h => exact .inl h
  | .fetching _, h | .witnessed, h => exact .inr (.inl h)
  | .executing, h => exact .inr (.inr h)
  | .finished false, h => exact h
  | .finished true, _ => exact absurd rfl hpc

theorem RequestStatus.InTask.isActive {status : RequestStatus} (h : status.InTask) :
    status.isActive = true := by
  rcases h with rfl | rfl | rfl <;> rfl

theorem RequestStatus.InTask.not_isDead {status : RequestStatus} (h : status.InTask) :
    ¬ status.IsDead := by
  rcases h with rfl | rfl | rfl <;> rintro (h | h) <;> cases h

/-- **A step of a task** is one of a live task, writes to no other request, and leaves
its own in a status that goes with the task. -/
theorem taskStep_spec {cfg : Config} {db db' : Db} {task : Task} {act : TaskAct} {pc : TaskPc}
    (h : taskStep cfg db task act = some (db', pc)) :
    task.state.Live ∧ ∃ g, Updates db db' task.datum.id g ∧
      ∀ status, task.state.Allows status → pc.Allows (g status) ∧ (g status).isActive = true := by
  obtain ⟨request, state⟩ := task
  cases act with
  | startWitnessGeneration =>
    obtain ⟨rfl, h⟩ := Option.ite_none_right_eq_some.mp h
    cases h
    exact ⟨trivial, _, updates_status _ _ _, fun _ _ => ⟨rfl, rfl⟩⟩
  | updateL1HeadBlockNumber n =>
    obtain ⟨⟨rfl, -⟩, h⟩ := Option.ite_none_right_eq_some.mp h
    cases h
    exact ⟨trivial, _, updates_l1Head _ _ _, fun status hs => ⟨hs, by cases hs; rfl⟩⟩
  | generateProofStdin =>
    obtain ⟨⟨hstate, -⟩, h⟩ := Option.ite_none_right_eq_some.mp h
    cases h
    rcases hstate with rfl | rfl <;>
      exact ⟨trivial, _, updates_rfl _ _, fun status hs => ⟨hs, by cases hs; rfl⟩⟩
  | startExecution =>
    obtain ⟨⟨rfl, -⟩, h⟩ := Option.ite_none_right_eq_some.mp h
    cases h
    exact ⟨trivial, _, updates_status _ _ _, fun _ _ => ⟨rfl, rfl⟩⟩
  | complete proof =>
    obtain ⟨hstate, h⟩ := Option.ite_none_right_eq_some.mp h
    cases h
    rcases hstate with rfl | ⟨rfl, -⟩ <;>
      exact ⟨trivial, _, updates_complete _ _ _, fun _ _ => ⟨trivial, rfl⟩⟩
  | prove proofId =>
    obtain ⟨⟨rfl, -⟩, h⟩ := Option.ite_none_right_eq_some.mp h
    cases h
    exact ⟨trivial, _, updates_prove _ _ _, fun _ _ => ⟨trivial, rfl⟩⟩
  | fail =>
    obtain ⟨hstate, h⟩ := Option.ite_none_left_eq_some.mp h
    cases h
    have hnot : state ≠ .finished true := fun heq => hstate (.inl heq)
    have hlive : state.Live := by
      cases state with
      | finished ok => cases ok <;> simp at hstate
      | _ => trivial
    exact ⟨hlive, _, updates_rfl _ _, fun status hs =>
      ⟨hs.inTask hnot, (hs.inTask hnot).isActive⟩⟩

/-! ## Effects -/

/-- The database and the tasks. -/
structure View where
  db : Db
  fleet : Fleet Nat Request TaskPc

/-- The map of the tasks, with the handle that is about to be put into it. -/
def Sys.handles (s : Sys) : Nat → Option (Nat × Request) :=
  match s.main.pending with
  | some (key, request) => Function.update s.tasks request.id (some (key, request))
  | none => s.tasks

def Sys.view (s : Sys) : View := ⟨s.db, ⟨s.handles, s.procs, s.nextKey⟩⟩

/-- No live task is on the request. -/
def View.NoLive (v : View) (id : Nat) : Prop := v.fleet.NoLive Request.id TaskPc.Live id

/-- The task of the request, if it is in the map, succeeded. -/
def View.Free (v : View) (id : Nat) : Prop :=
  ∀ key request, v.fleet.handles id = some (key, request) →
    v.fleet.workers key = some ⟨request, .finished true⟩

/-- A request the main loop holds: no live task is on it, and its row is as it was read,
in a status the main loop knows of. -/
structure View.Owned (cfg : Config) (v : View) (request : Request) (P : RequestStatus → Prop) :
    Prop where
  inScope : request.InScope cfg.scope
  noLive : v.NoLive request.id
  row : ∃ r, v.db.rows request.id = some r ∧ SameRequest request r ∧ P r.status

/-- The changes of a status the main loop makes. -/
def MainMoves (old new : RequestStatus) : Prop :=
  new = .failed ∨ old = .prove ∧ new = .complete ∨ old = .complete ∧ new = .relayed

/-- **What a step does**, with the requests it inserts. -/
inductive Effect (cfg : Config) (v : View) : List Request → View → Prop
  | none : Effect cfg v [] v
  | task {key : Nat} {task : Task} {act : TaskAct} {db : Db} {pc : TaskPc} :
      v.fleet.workers key = some task → taskStep cfg v.db task act = some (db, pc) →
      Effect cfg v [] ⟨db, v.fleet.move key task pc⟩
  | forget {id : Nat} : v.NoLive id → Effect cfg v [] ⟨v.db, v.fleet.forget id⟩
  | write {id : Nat} {g : RequestStatus → RequestStatus} {db : Db} :
      v.Free id → Updates v.db db id g →
      (∀ r, v.db.rows id = some r → MainMoves r.status (g r.status)) →
      Effect cfg v [] ⟨db, v.fleet⟩
  | insert (requests : List Request) : Effect cfg v requests ⟨v.db.insertAll requests, v.fleet⟩
  | spawn {request : Request} : v.Owned cfg request (· = .unrequested) →
      Effect cfg v [] ⟨v.db, v.fleet.spawn Request.id request .spawned⟩
  | restart : Effect cfg v [] ⟨v.db, v.fleet.crash⟩
  | clean {db : Db} : (∀ id, v.fleet.handles id = Option.none) → Cleans v.db db →
      Effect cfg v [] ⟨db, v.fleet⟩

/-- **The main loop is in control** of the tasks, and the rows of the requests it has
handles for are as the tasks left them. -/
structure View.Ok (cfg : Config) (v : View) : Prop where
  tracked : v.fleet.Tracked Request.id TaskPc.Live
  rows : ∀ id key request pc, v.fleet.handles id = some (key, request) →
    v.fleet.workers key = some ⟨request, pc⟩ →
    request.InScope cfg.scope ∧
      ∃ r, v.db.rows id = some r ∧ SameRequest request r ∧ pc.Allows r.status

variable {cfg : Config} {v v' : View} {requests : List Request}

/-- The row of a request with a live task. -/
theorem View.Ok.row_of_live (hv : v.Ok cfg) {key : Nat} {task : Task}
    (htask : v.fleet.workers key = some task) (hlive : task.state.Live) :
    ∃ r, v.db.rows task.datum.id = some r ∧ SameRequest task.datum r ∧
      task.state.Allows r.status :=
  (hv.rows _ key task.datum task.state (hv.tracked.live key task htask hlive) htask).2

theorem TaskPc.Live.ne_finished {pc : TaskPc} (h : pc.Live) (ok : Bool) : pc ≠ .finished ok := by
  rintro rfl
  exact h

/-- A request that left the tasks has no live task, and its handle is on a task that
succeeded. -/
theorem View.Ok.free_of_not_inTask (hv : v.Ok cfg) {r : Request} {id : Nat}
    (hr : v.db.rows id = some r) (hstatus : ¬ r.status.InTask) : v.Free id := by
  intro key request hhandle
  obtain ⟨hid, pc, hworker⟩ := hv.tracked.handle id key request hhandle
  obtain ⟨-, r', hr', -, hallows⟩ := hv.rows id key request pc hhandle hworker
  cases hr.symm.trans hr'
  by_cases hpc : pc = .finished true
  · rw [hworker, hpc]
  · exact absurd (hallows.inTask hpc) hstatus

theorem View.Ok.noLive_of_free (hv : v.Ok cfg) {id : Nat} (hfree : v.Free id) : v.NoLive id := by
  cases hhandle : v.fleet.handles id with
  | none => exact hv.tracked.noLive_of_none hhandle
  | some handle =>
    obtain ⟨key, request⟩ := handle
    exact hv.tracked.noLive_of_handle hhandle (hfree key request hhandle) fun hlive => hlive

/-! ## What steps preserve -/

theorem View.Ok.task (hv : v.Ok cfg) {key : Nat} {task : Task} {act : TaskAct} {db : Db}
    {pc : TaskPc} (htask : v.fleet.workers key = some task)
    (hstep : taskStep cfg v.db task act = some (db, pc)) :
    View.Ok cfg ⟨db, v.fleet.move key task pc⟩ := by
  obtain ⟨hlive, g, hupdates, hg⟩ := taskStep_spec hstep
  have hhandle := hv.tracked.live key task htask hlive
  refine ⟨hv.tracked.move pc htask hlive, fun id key' request pc' hid hworker => ?_⟩
  by_cases hkey : key' = key
  · -- the task that moved
    subst hkey
    rw [Fleet.workers_move, Function.update_self] at hworker
    cases hworker
    obtain ⟨rfl, -⟩ := hv.tracked.handle id key' _ hid
    obtain ⟨hscope, r, hr, hsame, hallows⟩ := hv.rows _ key' task.datum task.state hid htask
    obtain ⟨r', hr', hsame', hstatus⟩ := hupdates.row r hr
    exact ⟨hscope, r', hr', hsame.trans hsame', hstatus ▸ (hg _ hallows).1⟩
  · -- another task, so another request
    rw [Fleet.workers_move, Function.update_of_ne hkey] at hworker
    have hne : id ≠ task.datum.id := by
      rintro rfl
      rw [Fleet.handles_move, hhandle] at hid
      cases hid
      exact hkey rfl
    rw [hupdates.other id hne]
    exact hv.rows id key' request pc' hid hworker

/-- **The main loop stays in control.** -/
theorem View.Ok.effect (hv : v.Ok cfg) (h : Effect cfg v requests v') : v'.Ok cfg := by
  cases h with
  | none => exact hv
  | task htask hstep => exact hv.task htask hstep
  | @forget id hnone =>
    refine ⟨hv.tracked.forget hnone, fun id' key request pc hhandle hworker => ?_⟩
    rcases update_eq_some hhandle with ⟨-, hnew⟩ | ⟨-, hold⟩
    · cases hnew
    · exact hv.rows id' key request pc hold hworker
  | @write id g db hfree hupdates _ =>
    refine ⟨hv.tracked, fun id' key request pc hhandle hworker => ?_⟩
    obtain ⟨hscope, r, hr, hsame, hallows⟩ := hv.rows id' key request pc hhandle hworker
    by_cases hid : id' = id
    · -- a task that succeeded allows every status
      subst hid
      cases hworker.symm.trans (hfree key request hhandle)
      obtain ⟨r', hr', hsame', -⟩ := hupdates.row r hr
      exact ⟨hscope, r', hr', hsame.trans hsame', trivial⟩
    · exact ⟨hscope, r, (hupdates.other id' hid).trans hr, hsame, hallows⟩
  | insert requests =>
    refine ⟨hv.tracked, fun id key request pc hhandle hworker => ?_⟩
    obtain ⟨hscope, r, hr, hrest⟩ := hv.rows id key request pc hhandle hworker
    exact ⟨hscope, r, Db.rows_insertAll_of_some hr, hrest⟩
  | @spawn request howned =>
    refine ⟨hv.tracked.spawn .spawned howned.noLive, fun id key request' pc hhandle hworker => ?_⟩
    rcases update_eq_some hhandle with ⟨rfl, hnew⟩ | ⟨-, hold⟩
    · cases hnew
      rw [Fleet.workers_spawn, Function.update_self] at hworker
      cases hworker
      exact ⟨howned.inScope, howned.row⟩
    · obtain ⟨-, pc', hworker'⟩ := hv.tracked.handle id key request' hold
      have hkey : key ≠ v.fleet.nextKey := Nat.ne_of_lt (hv.tracked.fresh key _ hworker')
      rw [Fleet.workers_spawn, Function.update_of_ne hkey] at hworker
      exact hv.rows id key request' pc hold hworker
  | restart => exact ⟨Fleet.tracked_crash, fun _ _ _ _ hhandle => nomatch hhandle⟩
  | clean hnone _ =>
    refine ⟨hv.tracked, fun id key request pc hhandle _ => ?_⟩
    rw [hnone id] at hhandle
    cases hhandle

/-- The request failed or was cancelled. -/
def Db.Dead (db : Db) (id : Nat) : Prop := ∃ r, db.rows id = some r ∧ r.status.IsDead

/-- **A dead request stays dead.** -/
theorem View.Ok.dead (hv : v.Ok cfg) (h : Effect cfg v requests v') {id : Nat}
    (hdead : v.db.Dead id) : v'.db.Dead id := by
  obtain ⟨r, hr, hstatus⟩ := hdead
  cases h with
  | none | forget _ | spawn _ | restart => exact ⟨r, hr, hstatus⟩
  | @task key task _ db pc htask hstep =>
    obtain ⟨hlive, g, hupdates, -⟩ := taskStep_spec hstep
    -- A live task's request is in another status.
    have hne : id ≠ task.datum.id := by
      rintro rfl
      obtain ⟨r', hr', -, hallows⟩ := hv.row_of_live htask hlive
      cases hr.symm.trans hr'
      exact (hallows.inTask (hlive.ne_finished true)).not_isDead hstatus
    exact ⟨r, (hupdates.other id hne).trans hr, hstatus⟩
  | @write id' g db _ hupdates hg =>
    by_cases hid : id = id'
    · subst hid
      obtain ⟨r', hr', -, hr'status⟩ := hupdates.row r hr
      refine ⟨r', hr', .inl ?_⟩
      rw [hr'status]
      rcases hg r hr with hfailed | ⟨hold, -⟩ | ⟨hold, -⟩
      · exact hfailed
      · rcases hstatus with heq | heq <;> rw [hold] at heq <;> cases heq
      · rcases hstatus with heq | heq <;> rw [hold] at heq <;> cases heq
    · exact ⟨r, (hupdates.other id hid).trans hr, hstatus⟩
  | insert requests => exact ⟨r, Db.rows_insertAll_of_some hr, hstatus⟩
  | clean _ hcleans => exact ⟨r, hcleans.dead id r hr hstatus, hstatus⟩

/-! ## What the main loop knows of its requests -/

/-- Different requests, each with the prover when its row was read. -/
def View.Proving (cfg : Config) (v : View) (requests : List Request) : Prop :=
  (requests.map (·.id)).Nodup ∧ ∀ request ∈ requests, v.Owned cfg request (· = .prove)

/-- `handle_proving_requests` has other requests left. -/
def View.CallerOk (cfg : Config) (v : View) (request : Request) : RetryCaller → Prop
  | .ongoing _ => True
  | .proving rest => request.id ∉ rest.map (·.id) ∧ v.Proving cfg rest

/-- **What the main loop knows** where it is. -/
def Assert (cfg : Config) (v : View) : MainPc → Prop
  | .init _ => ∀ id, v.fleet.handles id = none
  | .proving (.process requests) => v.Proving cfg requests
  | .retry request (.setFailed _) caller =>
    v.Owned cfg request (fun status => status.InTask ∨ status = .prove) ∧ v.Free request.id ∧
      v.CallerOk cfg request caller
  | .retry request (.countFailed _) caller | .retry request .insertHalves caller =>
    v.Owned cfg request (· = .failed) ∧ v.CallerOk cfg request caller
  | .queue (.validate _ request) | .queue (.spawn request) => v.Owned cfg request (· = .unrequested)
  | .submit (.relay request) | .submit (.setRelayed request _) =>
      v.Owned cfg request (· = .complete)
  | _ => True

/-- Nothing changes for the requests without a live task that a step keeps its hands
off. -/
structure Keeps (kept : Nat → Prop) (v v' : View) : Prop where
  handles : ∀ id, v.fleet.handles id = none → v'.fleet.handles id = none
  noLive : ∀ id, v.NoLive id → v'.NoLive id
  free : ∀ id, v.Free id → v'.Free id
  row : ∀ id r, kept id → v.NoLive id → v.db.rows id = some r → v'.db.rows id = some r

theorem keeps_task {key : Nat} {task : Task} {act : TaskAct} {db : Db} {pc : TaskPc}
    (htask : v.fleet.workers key = some task)
    (hstep : taskStep cfg v.db task act = some (db, pc)) :
    Keeps (fun _ => True) v ⟨db, v.fleet.move key task pc⟩ := by
  obtain ⟨hlive, g, hupdates, -⟩ := taskStep_spec hstep
  refine ⟨fun _ h => h, fun id h => h.move pc htask hlive, fun id hfree key' request hid => ?_,
    fun id r _ hnone hr => ?_⟩
  · have hworker := hfree key' request hid
    have hkey : key' ≠ key := by
      rintro rfl
      cases hworker.symm.trans htask
      exact hlive
    rw [Fleet.workers_move, Function.update_of_ne hkey]
    exact hworker
  · have hne : id ≠ task.datum.id := by
      rintro rfl
      exact hnone key task htask rfl hlive
    exact (hupdates.other id hne).trans hr

theorem keeps_write {id : Nat} {g : RequestStatus → RequestStatus} {db : Db}
    (hupdates : Updates v.db db id g) : Keeps (· ≠ id) v ⟨db, v.fleet⟩ :=
  ⟨fun _ h => h, fun _ h => h, fun _ h => h,
    fun id' _ hne _ hr => (hupdates.other id' hne).trans hr⟩

theorem keeps_insert (v : View) (requests : List Request) :
    Keeps (fun _ => True) v ⟨v.db.insertAll requests, v.fleet⟩ :=
  ⟨fun _ h => h, fun _ h => h, fun _ h => h, fun _ _ _ _ hr => Db.rows_insertAll_of_some hr⟩

variable {kept : Nat → Prop} {request : Request} {P Q : RequestStatus → Prop}

theorem View.Owned.keeps (h : v.Owned cfg request P) (hkeeps : Keeps kept v v')
    (hkept : kept request.id) : v'.Owned cfg request P := by
  obtain ⟨r, hr, hrest⟩ := h.row
  exact ⟨h.inScope, hkeeps.noLive _ h.noLive, r, hkeeps.row _ r hkept h.noLive hr, hrest⟩

theorem View.Owned.imp (h : v.Owned cfg request P) (hPQ : ∀ status, P status → Q status) :
    v.Owned cfg request Q := by
  obtain ⟨r, hr, hsame, hP⟩ := h.row
  exact ⟨h.inScope, h.noLive, r, hr, hsame, hPQ _ hP⟩

/-- After a write to a held request. -/
theorem View.Owned.write (h : v.Owned cfg request P) {g : RequestStatus → RequestStatus} {db : Db}
    (hupdates : Updates v.db db request.id g) (hg : ∀ status, Q (g status)) :
    View.Owned cfg ⟨db, v.fleet⟩ request Q := by
  obtain ⟨r, hr, hsame, -⟩ := h.row
  obtain ⟨r', hr', hsame', hstatus⟩ := hupdates.row r hr
  exact ⟨h.inScope, h.noLive, r', hr', hsame.trans hsame', hstatus ▸ hg _⟩

theorem View.Proving.keeps (h : v.Proving cfg requests) (hkeeps : Keeps kept v v')
    (hkept : ∀ request ∈ requests, kept request.id) : v'.Proving cfg requests :=
  ⟨h.1, fun request hmem => (h.2 request hmem).keeps hkeeps (hkept request hmem)⟩

theorem View.CallerOk.keeps {caller : RetryCaller} (h : v.CallerOk cfg request caller)
    (hkeeps : Keeps kept v v') (hkept : ∀ id, id ≠ request.id → kept id) :
    v'.CallerOk cfg request caller := by
  cases caller with
  | ongoing completed => trivial
  | proving rest =>
    refine ⟨h.1, h.2.keeps hkeeps fun other hmem => hkept _ ?_⟩
    intro heq
    exact h.1 (heq ▸ List.mem_map_of_mem hmem)

/-- **What the main loop knows stays true** while tasks move. -/
theorem Assert.keeps {main : MainPc} (h : Assert cfg v main) (hkeeps : Keeps (fun _ => True) v v') :
    Assert cfg v' main := by
  cases main with
  | init pc => exact fun id => hkeeps.handles id (h id)
  | idle | ongoing _ | orphan _ | add _ | agg _ => trivial
  | proving pc =>
    cases pc with
    | fetch => trivial
    | process requests => exact View.Proving.keeps h hkeeps fun _ _ => trivial
  | retry request pc caller =>
    cases pc with
    | setFailed _ =>
      exact ⟨h.1.keeps hkeeps trivial, hkeeps.free _ h.2.1, h.2.2.keeps hkeeps fun _ _ => trivial⟩
    | countFailed _ | insertHalves =>
      exact ⟨h.1.keeps hkeeps trivial, h.2.keeps hkeeps fun _ _ => trivial⟩
  | queue pc =>
    cases pc with
    | validate _ request | spawn request => exact View.Owned.keeps h hkeeps trivial
    | _ => trivial
  | submit pc =>
    cases pc with
    | relay request | setRelayed request _ => exact View.Owned.keeps h hkeeps trivial
    | _ => trivial

/-- After `handle_failed_request`, whatever it returned. -/
theorem assert_onOk {caller : RetryCaller} (h : v.CallerOk cfg request caller) :
    Assert cfg v caller.onOk := by
  cases caller with
  | ongoing completed => trivial
  | proving rest => exact h.2

theorem assert_onErr (caller : RetryCaller) : Assert cfg v caller.onErr := by
  cases caller <;> trivial

end OpSuccinct.Validity
