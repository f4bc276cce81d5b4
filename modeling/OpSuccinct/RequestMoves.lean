import OpSuccinct.RequestVersions
import OpSuccinct.ProposerLifeCycle

/-! # How requests move

What a step of the proposer does to one row of its database, whoever takes the step.  A row
that is there after the step was inserted by it, unrequested, or was there before, in a status
from which there is a move (`StatusMove`) to the one it has now (`row_of_step`).  The tasks that
wait for their first status write are those that waited before, and one that was just spawned
(`waiting_of_step`).
-/
namespace OpSuccinct.Validity

open Fleets Transition

/-- The statuses of a request that is worked on. -/
def RequestStatus.inFlight : RequestStatus → Bool
  | .witnessGeneration | .execution | .prove => true
  | _ => false

/-- **The moves of a request**; `waiting` tells if a task that was spawned for it is to write its
first status. -/
inductive StatusMove (waiting : Prop) : RequestStatus → RequestStatus → Prop
  | stay (status : RequestStatus) : StatusMove waiting status status
  | generate : waiting → StatusMove waiting .unrequested .witnessGeneration
  | execute : StatusMove waiting .witnessGeneration .execution
  | request : StatusMove waiting .witnessGeneration .prove
  | complete {status : RequestStatus} : status.inFlight = true →
      StatusMove waiting status .complete
  | drop {status status' : RequestStatus} : status'.isActive = false →
      StatusMove waiting status status'

theorem isActive_of_inFlight {status : RequestStatus} (h : status.inFlight = true) :
    status.isActive = true := by
  cases status <;> first | rfl | cases h

/-- What is active after a move was active before. -/
theorem StatusMove.isActive {waiting : Prop} {status status' : RequestStatus}
    (h : StatusMove waiting status status') (hactive : status'.isActive = true) :
    status.isActive = true := by
  cases h with
  | stay => exact hactive
  | generate | execute | request => rfl
  | complete hflight => exact isActive_of_inFlight hflight
  | drop hnot =>
    rw [hnot] at hactive
    cases hactive

/-- A task for the request has been spawned, and has not written a status yet. -/
def Sys.Waiting (s : Sys) (id : Nat) : Prop :=
  ∃ key task, s.procs key = some task ∧ task.datum.id = id ∧ task.state = .spawned

variable {cfg : Config} {s t : Sys} {act : Act} {r r' : Request} {id : Nat} {w : DbWrite}

/-- The status of the row of a live task's request. -/
theorem Sys.Ok.status_of_task (hs : s.Ok cfg) {key : Nat} {task : Task}
    (htask : s.procs key = some task) (hlive : task.state.Live)
    (hr : s.db.rows task.datum.id = some r) : task.state.Allows r.status := by
  obtain ⟨r₀, hr₀, -, hallows⟩ := hs.1.row_of_live htask hlive
  obtain rfl := Option.some.inj (hr.symm.trans hr₀)
  exact hallows

/-- A write of a task leaves all rows but its own. -/
theorem move_of_task (hs : s.Ok cfg) {key : Nat} {task : Task} (htask : s.procs key = some task)
    (hlive : task.state.Live) (hr : s.db.rows r.id = some r) {waiting : Prop}
    (hother : r.id ≠ task.datum.id → w.onRow r = r)
    (hself : r.id = task.datum.id → task.state.Allows r.status →
      StatusMove waiting r.status (w.onRow r).status) :
    StatusMove waiting r.status (w.onRow r).status := by
  by_cases hid : r.id = task.datum.id
  · exact hself hid (hs.status_of_task htask hlive (hid ▸ hr))
  · rw [hother hid]
    exact .stay _

theorem onRow_status {status : RequestStatus} (hid : r.id = id) :
    ((DbWrite.updateRequestStatus id status).onRow r).status = status := by
  rw [DbWrite.onRow, if_pos hid]

theorem onRow_prove {proofId : Bytes32} (hid : r.id = id) :
    ((DbWrite.updateRequestToProve id proofId).onRow r).status = .prove := by
  rw [DbWrite.onRow, if_pos hid]

theorem onRow_complete {proof : Bytes} (hid : r.id = id) :
    ((DbWrite.updateProofToComplete id proof).onRow r).status = .complete := by
  rw [DbWrite.onRow, if_pos hid]

/-- **A row that a step writes to** makes a move. -/
theorem move_of_writes (hs : s.Ok cfg) (h : Writes cfg s act w) (hr : s.db.rows r.id = some r) :
    StatusMove (s.Waiting r.id) r.status (w.onRow r).status := by
  cases h with
  | @startWitnessGeneration key task htask hstate =>
    refine move_of_task hs htask (by rw [hstate]; trivial) hr (fun hne => if_neg hne) ?_
    intro hid hallows
    rw [hstate] at hallows
    have hstatus : r.status = .unrequested := hallows
    rw [onRow_status hid, hstatus]
    exact .generate ⟨key, task, htask, hid.symm, hstate⟩
  | @l1Head key task n htask hstate =>
    refine move_of_task hs htask (by rw [hstate]; trivial) hr (fun hne => if_neg hne) ?_
    intro hid _
    rw [DbWrite.onRow, if_pos hid]
    exact .stay _
  | @startExecution key task htask hstate =>
    refine move_of_task hs htask (by rw [hstate]; trivial) hr (fun hne => if_neg hne) ?_
    intro hid hallows
    rw [hstate] at hallows
    have hstatus : r.status = .witnessGeneration := hallows
    rw [onRow_status hid, hstatus]
    exact .execute
  | @complete key task proof htask hstate =>
    refine move_of_task hs htask ?_ hr (fun hne => if_neg hne) fun hid hallows => ?_
    · rcases hstate with hstate | hstate <;> rw [hstate] <;> trivial
    · rw [onRow_complete hid]
      refine .complete ?_
      rcases hstate with hstate | hstate
      · rw [hstate] at hallows
        have hstatus : r.status = .witnessGeneration := hallows
        rw [hstatus]
        rfl
      · rw [hstate] at hallows
        have hstatus : r.status = .execution := hallows
        rw [hstatus]
        rfl
  | @prove key task proofId htask hstate =>
    refine move_of_task hs htask (by rw [hstate]; trivial) hr (fun hne => if_neg hne) ?_
    intro hid hallows
    rw [hstate] at hallows
    have hstatus : r.status = .witnessGeneration := hallows
    rw [onRow_prove hid, hstatus]
    exact .request
  | @store request rest status proof hmain hdelivers =>
    have hassert := hs.2
    rw [hmain] at hassert
    by_cases hid : r.id = request.id
    · obtain ⟨r₀, hr₀, -, hprove⟩ := (hassert.2 request List.mem_cons_self).row
      obtain rfl : r = r₀ := Option.some.inj ((hid ▸ hr).symm.trans hr₀)
      rw [onRow_complete hid]
      refine .complete ?_
      rw [hprove]
      rfl
    · simp only [DbWrite.onRow, hid, if_false]
      exact .stay _
  | orphan | setFailed | setRelayed | cancel =>
    simp only [DbWrite.onRow]
    split
    · exact .drop rfl
    · exact .stay _
  | delete | insertHalves | insertRanges | insertAgg => exact .stay _

/-- The columns no write changes, with the key of the aggregation program. -/
theorem aggregationVkeyHash_onRow (r : Request) (w : DbWrite) :
    (w.onRow r).aggregationVkeyHash = r.aggregationVkeyHash := by
  cases w with
  | insertRequests _ | deleteAllRequestsWithStatuses _ _ _ => rfl
  | _ =>
    dsimp only [DbWrite.onRow]
    split <;> rfl

/-- An inserted request is unrequested. -/
theorem status_of_inserted {requests : List Request}
    (h : Writes cfg s act (.insertRequests requests)) (hr : r ∈ requests) :
    r ∈ inserted cfg s act ∧ r.status = .unrequested := by
  generalize hw : DbWrite.insertRequests requests = w at h
  cases h with
  | insertHalves hmain =>
    obtain rfl := DbWrite.insertRequests.inj hw
    rw [inserted, hmain]
    refine ⟨hr, ?_⟩
    rcases List.mem_cons.mp hr with rfl | hr
    · rfl
    · rw [List.mem_singleton.mp hr]
      rfl
  | insertRanges hmain =>
    obtain rfl := DbWrite.insertRequests.inj hw
    rw [inserted, hmain]
    obtain ⟨range, -, rfl⟩ := List.mem_map.mp hr
    exact ⟨hr, rfl⟩
  | insertAgg hmain =>
    obtain rfl := DbWrite.insertRequests.inj hw
    rw [inserted, hmain]
    rw [List.mem_singleton.mp hr]
    exact ⟨List.mem_singleton_self _, rfl⟩
  | _ => cases hw

/-- **A row after a step** was inserted, or was there before and made a move. -/
theorem row_of_step (hs : s.Ok cfg) (h : step cfg s act = some t) (hr' : t.db.rows id = some r') :
    (∃ r ∈ inserted cfg s act, r.status = .unrequested ∧ s.db.nextId ≤ id ∧
        r' = { r with id := id }) ∨
      ∃ r, s.db.rows id = some r ∧ SameInputs r r' ∧
        r'.aggregationVkeyHash = r.aggregationVkeyHash ∧
        StatusMove (s.Waiting id) r.status r'.status := by
  rcases step_written h with heq | ⟨w, hw, heq⟩
  · rw [heq] at hr'
    exact .inr ⟨r', hr', SameInputs.refl r', rfl, .stay _⟩
  · rw [heq] at hr'
    rcases rows_apply_back hr' with ⟨r, hr, rfl⟩ | ⟨requests, r, rfl, hmem, hnext, rfl⟩
    · have hid := s.db.id_eq id r hr
      have hmove := move_of_writes hs hw (hid.symm ▸ hr)
      rw [hid] at hmove
      exact .inr ⟨r, hr, sameInputs_onRow r w, aggregationVkeyHash_onRow r w, hmove⟩
    · obtain ⟨hinserted, hstatus⟩ := status_of_inserted hw hmem
      exact .inl ⟨r, hinserted, hstatus, hnext, rfl⟩

theorem taskStep_not_spawned {db db' : Db} {task : Task} {taskAct : TaskAct} {pc : TaskPc}
    (h : taskStep cfg db task taskAct = some (db', pc)) : pc ≠ .spawned := by
  rintro rfl
  cases taskAct <;> simp [taskStep] at h

/-- **A task that waits after a step** waited before, or was just spawned. -/
theorem waiting_of_step (h : step cfg s act = some t) (hwaiting : t.Waiting id) :
    s.Waiting id ∨
      ∃ answer request, act = .call answer ∧ s.main = .queue (.spawn request) ∧
        request.id = id := by
  obtain ⟨key, waiter, hwaiter, hid, hstate⟩ := hwaiting
  have hsame (hold : s.procs key = some waiter) : s.Waiting id := ⟨key, waiter, hold, hid, hstate⟩
  cases moves_of_step h with
  | advance _ | start _ _ | fail _ => exact .inl (hsame hwaiter)
  | restart => cases hwaiter
  | task htask hstep =>
    rcases update_eq_some hwaiter with ⟨rfl, hnew⟩ | ⟨-, hold⟩
    · cases hnew
      exact absurd hstate (taskStep_not_spawned hstep)
    · exact .inl (hsame hold)
  | call hcall =>
    rcases procs_step h hwaiter with hold | ⟨_, _, _, _, hact, -⟩ | ⟨request, hmain, rfl⟩
    · exact .inl (hsame hold)
    · cases hact
    · exact .inr ⟨_, request, rfl, hmain, hid⟩

end OpSuccinct.Validity
