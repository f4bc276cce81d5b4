import OpSuccinct.ProposerRanges
import OpSuccinct.RequestVersions

/-! # Completed range requests

A range request that is completed keeps its row for good (`complete_stays`): no live task
is on it, `handle_proving_requests` and `handle_failed_request` write to requests in other
statuses, only an aggregation request is relayed, and `set_orphaned_tasks_to_failed`
fails no request that completed after it was read (`Sys.Orphans`).

And all range requests have blocks (`Sys.NonEmptyRanges`), so what is known of a completed
range can be kept for its blocks.
-/
namespace OpSuccinct.Validity

open Fleets Transition

variable {cfg : Config} {s t : Sys} {act : Act} {answer : Answer} {r : Request}

/-! ## Orphans -/

/-- The requests `set_orphaned_tasks_to_failed` has read and not gone through. -/
def MainPc.orphans : MainPc → List Request
  | .orphan (.executionRequests requests) | .orphan (.requests requests) => requests
  | _ => []

/-- The request's task is in the map, or there is none and it is not completed. -/
def Sys.Orphan (s : Sys) (request : Request) : Prop :=
  s.tasks request.id ≠ none ∨
    s.view.NoLive request.id ∧ ∀ r, s.db.rows request.id = some r → r.status ≠ .complete

def Sys.Orphans (s : Sys) : Prop := ∀ request ∈ s.main.orphans, s.Orphan request

/-- A request that is read before it is completed. -/
theorem orphan_of_row (hv : s.view.Ok cfg) (hpending : s.main.pending = none) {request : Request}
    (hrow : s.db.rows request.id = some request) (hstatus : request.status ≠ .complete) :
    s.Orphan request := by
  by_cases htask : s.tasks request.id = none
  · have hnone : s.view.fleet.handles request.id = none := by
      show s.handles request.id = none
      rw [handles_eq hpending, htask]
    refine .inr ⟨hv.tracked.noLive_of_none hnone, fun r hr => ?_⟩
    cases hrow.symm.trans hr
    exact hstatus
  · exact .inl htask

theorem orphan_of_fetch (hv : s.view.Ok cfg) (hpending : s.main.pending = none)
    {status : RequestStatus} (hstatus : status ≠ .complete) {rows : List Request}
    (hperm : rows.Perm (s.db.fetchRequestsByStatus cfg.scope status)) {request : Request}
    (hmem : request ∈ rows) : s.Orphan request := by
  obtain ⟨hrow, hp⟩ := Db.mem_select.mp (hperm.mem_iff.mp hmem)
  simp only [Bool.and_eq_true, beq_iff_eq] at hp
  exact orphan_of_row hv hpending hrow (hp.2 ▸ hstatus)

theorem orphanStep_orphans {pc : OrphanPc} (hv : s.view.Ok cfg) (ho : s.Orphans)
    (hmain : s.main = .orphan pc) (h : orphanStep cfg s pc answer = some t) : t.Orphans := by
  have hpending : s.main.pending = none := by rw [hmain]; rfl
  unfold orphanStep at h
  split at h
  · obtain ⟨hperm, h⟩ := Option.ite_none_right_eq_some.mp h
    cases h
    exact fun request hmem => orphan_of_fetch hv hpending (by decide) hperm hmem
  · rename_i witnessgenRequests rows
    obtain ⟨hperm, h⟩ := Option.ite_none_right_eq_some.mp h
    cases h
    intro request hmem
    rcases List.mem_append.mp hmem with hmem | hmem
    · exact ho request (by rw [hmain]; exact hmem)
    · exact orphan_of_fetch hv hpending (by decide) hperm hmem
  · cases h
    intro request hmem
    cases hmem
  · rename_i request requests
    have hrest : ∀ other ∈ requests, s.Orphan other := fun other hmem =>
      ho other (by rw [hmain]; exact List.mem_cons_of_mem request hmem)
    split at h
    · cases h
      exact hrest
    · cases h
      intro other hmem
      rcases hrest other hmem with htask | ⟨hnone, hstatus⟩
      · exact .inl htask
      · refine .inr ⟨hnone, fun r hr => ?_⟩
        have hupdates := updates_status s.db request.id .failed
        obtain ⟨r', hr', -, hnew⟩ := hupdates.back hr
        rw [hnew]
        split
        · decide
        · exact hstatus r' hr'
  · cases h

theorem orphans_of_atStart {main : MainPc} (h : main.AtStart) : main.orphans = [] := by
  unfold MainPc.AtStart at h
  split at h <;> first | rfl | cases h

theorem orphan_of_orphans {main : MainPc} {request : Request} (h : request ∈ main.orphans) :
    main.fn = some .setOrphanedTasksToFailed := by
  unfold MainPc.orphans at h
  split at h <;> first | rfl | cases h

/-- **What is read of orphans stays true** while tasks move. -/
theorem orphans_step (hv : s.view.Ok cfg) (ho : s.Orphans) (h : step cfg s act = some t) :
    t.Orphans := by
  have hstart {main : MainPc} (hmain : main.AtStart) : (s.goto main).Orphans := by
    intro request hmem
    rw [show (s.goto main).main.orphans = [] from orphans_of_atStart hmain] at hmem
    cases hmem
  cases moves_of_step h with
  | advance _ => exact ho
  | restart =>
    intro request hmem
    cases hmem
  | @task key task _ _ _ htask hstep =>
    intro request hmem
    rcases ho request hmem with hhandle | ⟨hnone, hstatus⟩
    · exact .inl hhandle
    · have hkeeps := keeps_task (v := s.view) htask hstep
      obtain ⟨hlive, g, hupdates, -⟩ := taskStep_spec hstep
      refine .inr ⟨hkeeps.noLive _ hnone, fun r hr => hstatus r ?_⟩
      have hne : request.id ≠ task.datum.id := fun heq => hnone key task htask heq.symm hlive
      exact (hupdates.other request.id hne).symm.trans hr
  | start f _ => exact hstart (atStart_entry cfg f)
  | fail hnext => exact hstart (atStart_onErr hnext)
  | call hcall =>
    intro request hmem
    obtain ⟨pc, hmain⟩ := orphan_of_fn (mainStep_fn hcall (orphan_of_orphans hmem))
    rw [mainStep, hmain] at hcall
    exact orphanStep_orphans hv ho hmain hcall request hmem

/-! ## Completed range requests stay -/

/-- A live task is on a request before it is with the prover. -/
theorem ne_of_live (hv : s.view.Ok cfg) (hr : s.db.rows r.id = some r)
    (hstatus : r.status = .complete) {key : Nat} {task : Task} (htask : s.procs key = some task)
    (hlive : task.state.Live) : r.id ≠ task.datum.id := by
  intro heq
  obtain ⟨r', hr', -, hallows⟩ := hv.row_of_live (v := s.view) htask hlive
  rw [← heq] at hr'
  cases hr.symm.trans hr'
  have hinTask := hallows.inTask (hlive.ne_finished true)
  rw [hstatus] at hinTask
  rcases hinTask with h | h | h <;> cases h

/-- A request the main loop holds in another status is another one. -/
theorem ne_of_owned (hr : s.db.rows r.id = some r) (hstatus : r.status = .complete)
    {request : Request} {P : RequestStatus → Prop} (howned : s.view.Owned cfg request P)
    (hnot : ¬ P .complete) : r.id ≠ request.id := by
  intro heq
  obtain ⟨r', hr', -, hP⟩ := howned.row
  rw [← heq] at hr'
  cases hr.symm.trans hr'
  exact hnot (hstatus ▸ hP)

/-- **A completed range request keeps its row.** -/
theorem complete_stays (hs : s.Ok cfg) (ho : s.Orphans) (hsubmits : s.SubmitsCompleted)
    (h : step cfg s act = some t) (hr : s.db.rows r.id = some r) (htype : r.reqType = .range)
    (hstatus : r.status = .complete) : t.db.rows r.id = some r := by
  obtain ⟨hv, ha⟩ := hs
  rcases step_written h with hdb | ⟨w, hw, hdb⟩
  · rw [hdb]
    exact hr
  rw [hdb]
  have hother {id : Nat} {g : RequestStatus → RequestStatus} {db : Db}
      (hupdates : Updates s.db db id g) (hne : r.id ≠ id) : db.rows r.id = some r :=
    (hupdates.other _ hne).trans hr
  have hlive {key : Nat} {task : Task} (htask : s.procs key = some task) (hlive : task.state.Live) :
      r.id ≠ task.datum.id := ne_of_live hv hr hstatus htask hlive
  cases hw with
  | startWitnessGeneration htask hstate =>
    exact hother (updates_status _ _ _) (hlive htask (by rw [hstate]; trivial))
  | l1Head htask hstate =>
    exact hother (updates_l1Head _ _ _) (hlive htask (by rw [hstate]; trivial))
  | startExecution htask hstate =>
    exact hother (updates_status _ _ _) (hlive htask (by rw [hstate]; trivial))
  | complete htask hstate =>
    refine hother (updates_complete _ _ _) (hlive htask ?_)
    rcases hstate with hstate | hstate <;> rw [hstate] <;> trivial
  | prove htask hstate =>
    exact hother (updates_prove _ _ _) (hlive htask (by rw [hstate]; trivial))
  | delete _ =>
    show (s.db.rows r.id).filter _ = some r
    rw [hr]
    simp [hstatus]
  | cancel _ =>
    show (s.db.rows r.id).map _ = some r
    rw [hr]
    simp [hstatus]
  | @orphan request requests hmain htask =>
    refine hother (updates_status _ _ _) fun heq => ?_
    rcases ho request (by rw [hmain]; exact List.mem_cons_self) with hhandle | ⟨-, hnot⟩
    · exact hhandle htask
    · exact hnot r (heq ▸ hr) hstatus
  | setFailed hmain =>
    rw [hmain] at ha
    refine hother (updates_status _ _ _) (ne_of_owned hr hstatus ha.1 ?_)
    rintro ((h | h | h) | h) <;> cases h
  | store hmain _ =>
    rw [hmain] at ha
    have howned := ha.2 _ List.mem_cons_self
    exact hother (updates_complete _ _ _) (ne_of_owned hr hstatus howned (by decide))
  | setRelayed hmain =>
    refine hother (updates_relayed _ _ _ _) fun heq => ?_
    obtain ⟨hagg, -⟩ := hsubmits _ (by rw [hmain]; rfl)
    rw [hmain] at ha
    obtain ⟨r', hr', hsame, -⟩ := View.Owned.row ha
    have hr' : s.db.rows r.id = some r' := heq ▸ hr'
    cases hr.symm.trans hr'
    cases htype.symm.trans (hsame.reqType.trans hagg)
  | insertHalves _ | insertRanges _ | insertAgg _ => exact Db.rows_insertAll_of_some hr

/-! ## Range requests have blocks -/

/-- The ranges that are about to be inserted have blocks. -/
def MainPc.InsertsNonEmpty : MainPc → Prop
  | .add (.insert _ rangesToProve) => ∀ range ∈ rangesToProve, range.1 < range.2
  | .retry request .insertHalves _ => 1 < request.endBlock - request.startBlock
  | _ => True

/-- **Range requests have blocks**, those there are and those that are to be inserted. -/
structure Sys.NonEmptyRanges (s : Sys) : Prop where
  rows : ∀ i r, s.db.rows i = some r → r.reqType = .range → r.startBlock < r.endBlock
  inserts : s.main.InsertsNonEmpty

theorem insertsNonEmpty_onOk (caller : RetryCaller) : caller.onOk.InsertsNonEmpty := by
  cases caller <;> trivial

theorem insertsNonEmpty_call (h : mainStep cfg s answer = some t) : t.main.InsertsNonEmpty := by
  unfold mainStep at h
  split at h
  · cases h
  · cases h
    rename_i pc _
    cases pc <;> trivial
  · unfold ongoingStep at h
    (repeat' split at h) <;> cases h <;> trivial
  · unfold orphanStep at h
    (repeat' split at h) <;> cases h <;> trivial
  · unfold provingStep processProofRequestStatus at h
    dsimp only at h
    (repeat' split at h) <;> cases h <;> trivial
  · cases h
    rename_i request pc caller _
    cases pc with
    | setFailed unexecutable => trivial
    | countFailed unexecutable =>
      rw [retryStep]
      by_cases hsplits : splits cfg s.db request unexecutable
      · rw [if_pos hsplits]
        simp only [splits, Bool.and_eq_true, decide_eq_true_eq] at hsplits
        exact hsplits.1.1
      · rw [if_neg hsplits]
        exact insertsNonEmpty_onOk caller
    | insertHalves => exact insertsNonEmpty_onOk caller
  · unfold addStep at h
    split at h
    · cases h
      trivial
    · cases h
      trivial
    · cases h
      trivial
    · obtain ⟨-, h⟩ := Option.ite_none_right_eq_some.mp h
      dsimp only at h
      split at h
      · cases h
      · cases h
        trivial
      · rename_i hranges
        cases h
        exact getRangesToProve_nonempty hranges
    · cases h
      trivial
    · cases h
  · unfold aggStep at h
    (repeat' split at h) <;> cases h <;> trivial
  · unfold queueStep at h
    dsimp only at h
    (repeat' split at h) <;> cases h <;> trivial
  · unfold submitStep at h
    (repeat' split at h) <;> cases h <;> trivial

theorem insertsNonEmpty_of_atStart {main : MainPc} (h : main.AtStart) : main.InsertsNonEmpty := by
  unfold MainPc.AtStart at h
  split at h <;> trivial

theorem insertsNonEmpty_step (hs : s.main.InsertsNonEmpty) (h : step cfg s act = some t) :
    t.main.InsertsNonEmpty := by
  cases moves_of_step h with
  | advance _ | task _ _ => exact hs
  | restart => trivial
  | start f _ => exact insertsNonEmpty_of_atStart (atStart_entry cfg f)
  | fail hnext => exact insertsNonEmpty_of_atStart (atStart_onErr hnext)
  | call hcall => exact insertsNonEmpty_call hcall

theorem nonEmptyRanges_step (hs : s.NonEmptyRanges) (h : step cfg s act = some t) :
    t.NonEmptyRanges := by
  refine ⟨fun i r' hr' htype => ?_, insertsNonEmpty_step hs.inserts h⟩
  rcases step_written h with hdb | ⟨w, hw, hdb⟩
  · exact hs.rows i r' (hdb ▸ hr') htype
  rcases rows_apply_back (hdb ▸ hr') with ⟨r, hr, rfl⟩ | ⟨requests, r, rfl, hmem, -, rfl⟩
  · have hsame := sameInputs_onRow r w
    rw [hsame.startBlock, hsame.endBlock]
    exact hs.rows i r hr (hsame.reqType.symm.trans htype)
  · cases hw with
    | @insertHalves request caller answer hmain =>
      have hinserts := hs.inserts
      rw [hmain] at hinserts
      obtain ⟨hleft, hright⟩ := midBlock_between hinserts
      rcases List.mem_pair.mp hmem with rfl | rfl
      · exact hleft
      · exact hright
    | insertRanges hmain =>
      have hinserts := hs.inserts
      rw [hmain] at hinserts
      obtain ⟨range, hrange, rfl⟩ := List.mem_map.mp hmem
      exact hinserts range hrange
    | insertAgg hmain =>
      obtain rfl := List.mem_singleton.mp hmem
      cases htype

/-! ## All of it along a run -/

/-- What keeps completed range requests as they are. -/
structure Sys.Controlled (cfg : Config) (s : Sys) : Prop where
  ok : s.Ok cfg
  orphans : s.Orphans
  submits : s.SubmitsCompleted
  ranges : s.NonEmptyRanges

theorem controlled_step (hs : s.Controlled cfg) (hfresh : selectsFresh s act = true)
    (h : step cfg s act = some t) : t.Controlled cfg where
  ok :=
    have hnext := step_next hs.ok hfresh h
    ⟨hs.ok.1.effect hnext.effect, hnext.holds⟩
  orphans := orphans_step hs.ok.1 hs.orphans h
  submits := submitsCompleted_step hs.submits h
  ranges := nonEmptyRanges_step hs.ranges h

theorem controlled_start (cfg : Config) (latest : Nat) :
    (Sys.start .empty latest).Controlled cfg where
  ok := Sys.ok_start .empty latest
  orphans := by
    intro request hmem
    cases hmem
  submits := by
    intro request hsubmitted
    cases hsubmitted
  ranges := by
    refine ⟨fun i r hr => ?_, trivial⟩
    cases hr

/-- A restart may bring another configuration. -/
theorem controlled_restart {cfg' : Config} (hs : s.Controlled cfg)
    (h : step cfg' s .restart = some t) : t.Controlled cfg' := by
  have hranges := nonEmptyRanges_step hs.ranges h
  have hsubmits := submitsCompleted_step hs.submits h
  have hcrash : s.view.fleet.crash.Tracked Request.id TaskPc.Live := Fleet.tracked_crash
  cases h
  refine ⟨⟨⟨hcrash, ?_⟩, fun _ => rfl⟩, fun request hmem => ?_, hsubmits, hranges⟩
  · intro id key request pc hhandle
    cases hhandle
  · cases hmem

end OpSuccinct.Validity
