import OpSuccinct.ProposerTasks

/-! # Steps of the proposer

Every step has one of the effects of `Effect` and establishes what the main loop
knows where it gets to (`step_next`), function by function of the loop.  The one
assumption is about the requests `request_queued_proofs` selects: no task spawned
for one of them before still waits for its first status write (`selectsFresh`).

So in every run of such steps no two live tasks work on one request, and a request
that failed or was cancelled stays so (`one_task_per_request`).
-/
namespace OpSuccinct.Validity

open Fleets Transition

/-- The requests a call of the main loop inserts. -/
def MainPc.inserted (cfg : Config) : MainPc → List Request
  | .add (.insert _ rangesToProve) =>
    rangesToProve.map fun range => newRangeRequest cfg.scope cfg.mode range.1 range.2
  | .retry request .insertHalves _ => halves cfg request
  | .agg (.insert latestProposed highestProven number hash) =>
    [newAggRequest cfg.scope cfg.mode latestProposed highestProven number hash cfg.proverAddress]
  | _ => []

/-- The requests a step inserts. -/
def inserted (cfg : Config) (s : Sys) : Act → List Request
  | .call _ => s.main.inserted cfg
  | _ => []

/-- The effect of a step that inserts the requests, and what holds after it. -/
structure Next (cfg : Config) (s : Sys) (requests : List Request) (t : Sys) : Prop where
  effect : Effect cfg s.view requests t.view
  holds : Assert cfg t.view t.main

variable {cfg : Config} {s t : Sys} {answer : Answer} {main : MainPc}

theorem handles_eq (h : s.main.pending = none) : s.handles = s.tasks := by
  rw [Sys.handles, h]

theorem view_goto (hs : s.main.pending = none) (hmain : main.pending = none) :
    (s.goto main).view = s.view := by
  have h : (s.goto main).handles = s.handles :=
    (handles_eq (s := s.goto main) hmain).trans (handles_eq hs).symm
  rw [Sys.view, h]
  rfl

theorem view_write (hs : s.main.pending = none) (hmain : main.pending = none) (w : DbWrite) :
    (s.write w main).view = ⟨s.db.apply w, s.view.fleet⟩ := by
  have h : (s.write w main).handles = s.handles :=
    (handles_eq (s := s.write w main) hmain).trans (handles_eq hs).symm
  rw [Sys.view, h]
  rfl

theorem next_goto (hs : s.main.pending = none) (hmain : main.pending = none)
    (h : Assert cfg s.view main) : Next cfg s [] (s.goto main) := by
  have hview := view_goto hs hmain
  exact ⟨hview ▸ Effect.none, show Assert cfg (s.goto main).view main from hview ▸ h⟩

theorem next_write (hs : s.main.pending = none) (hmain : main.pending = none) {w : DbWrite}
    {requests : List Request} (heffect : Effect cfg s.view requests ⟨s.db.apply w, s.view.fleet⟩)
    (h : Assert cfg ⟨s.db.apply w, s.view.fleet⟩ main) : Next cfg s requests (s.write w main) := by
  have hview := view_write hs hmain w
  exact ⟨hview ▸ heffect, show Assert cfg (s.write w main).view main from hview ▸ h⟩

theorem view_forget (hs : s.main.pending = none) (hmain : main.pending = none) (id : Nat) :
    { s with tasks := Function.update s.tasks id none, main }.view =
      ⟨s.db, s.view.fleet.forget id⟩ := by
  rw [Sys.view, handles_eq (s := { s with tasks := Function.update s.tasks id none, main }) hmain,
    ← handles_eq hs]
  rfl

theorem next_forget (hs : s.main.pending = none) (hmain : main.pending = none) {id : Nat}
    (hnone : s.view.NoLive id) (h : Assert cfg ⟨s.db, s.view.fleet.forget id⟩ main) :
    Next cfg s [] { s with tasks := Function.update s.tasks id none, main } := by
  have hview := view_forget hs hmain id
  exact ⟨hview ▸ .forget hnone, show Assert cfg (Sys.view _) main from hview ▸ h⟩

/-! ## Functions without writes to requests they hold -/

theorem initStep_next {pc : InitPc} (hs : s.main = .init pc) (ha : Assert cfg s.view s.main) :
    Next cfg s [] (initStep cfg s pc) := by
  have hpending : s.main.pending = none := by rw [hs]; rfl
  rw [hs] at ha
  cases pc with
  | delete =>
    refine next_write hpending rfl (.clean ha (cleans_delete _ _ ?_)) ha
    intro status hstatus hdead
    rcases hdead with rfl | rfl <;> simp at hstatus
  | cancel => exact next_write hpending rfl (.clean ha (cleans_cancel _)) trivial

theorem addStep_next {pc : AddPc} (hs : s.main = .add pc) (h : addStep cfg s pc answer = some t) :
    Next cfg s (MainPc.inserted cfg (.add pc)) t := by
  have hpending : s.main.pending = none := by rw [hs]; rfl
  unfold addStep at h
  split at h
  · cases h
    exact next_goto hpending rfl trivial
  · cases h
    exact next_goto hpending rfl trivial
  · cases h
    exact next_goto hpending rfl trivial
  · obtain ⟨-, h⟩ := Option.ite_none_right_eq_some.mp h
    dsimp only at h
    split at h
    · cases h
    · cases h
      exact next_goto hpending rfl trivial
    · cases h
      exact next_goto hpending rfl trivial
  · rename_i latestProposed rangesToProve
    cases h
    have hnext : Next cfg s (MainPc.inserted cfg (.add (.insert latestProposed rangesToProve)))
        (s.write (.insertRequests _) .idle) := next_write hpending rfl (.insert _) trivial
    exact ⟨hnext.effect, hnext.holds⟩
  · cases h

theorem aggStep_next {pc : AggPc} (hs : s.main = .agg pc) (h : aggStep cfg s pc answer = some t) :
    Next cfg s (MainPc.inserted cfg (.agg pc)) t := by
  have hpending : s.main.pending = none := by rw [hs]; rfl
  unfold aggStep at h
  split at h
  · cases h
    exact next_goto hpending rfl trivial
  · cases h
    split <;> exact next_goto hpending rfl trivial
  · obtain ⟨-, h⟩ := Option.ite_none_right_eq_some.mp h
    split at h <;> cases h <;> exact next_goto hpending rfl trivial
  · cases h
    split <;> exact next_goto hpending rfl trivial
  · obtain ⟨-, h⟩ := Option.ite_none_right_eq_some.mp h
    cases h
    exact next_goto hpending rfl trivial
  · obtain ⟨-, h⟩ := Option.ite_none_right_eq_some.mp h
    split at h
    · cases h
      exact next_goto hpending rfl trivial
    · cases h
  · cases h
    exact next_goto hpending rfl trivial
  · cases h
    exact next_write hpending rfl (.insert _) trivial
  · cases h

/-! ## Functions that write to requests -/

/-- Setting a request to `Failed`. -/
theorem effect_setFailed {id : Nat} (hfree : s.view.Free id) :
    Effect cfg s.view [] ⟨s.db.apply (.updateRequestStatus id .failed), s.view.fleet⟩ :=
  .write hfree (updates_status s.db id .failed) fun _ _ => .inl rfl

theorem orphanStep_next {pc : OrphanPc} (hs : s.main = .orphan pc)
    (h : orphanStep cfg s pc answer = some t) : Next cfg s [] t := by
  have hpending : s.main.pending = none := by rw [hs]; rfl
  unfold orphanStep at h
  split at h
  · obtain ⟨-, h⟩ := Option.ite_none_right_eq_some.mp h
    cases h
    exact next_goto hpending rfl trivial
  · obtain ⟨-, h⟩ := Option.ite_none_right_eq_some.mp h
    cases h
    exact next_goto hpending rfl trivial
  · cases h
    exact next_goto hpending rfl trivial
  · rename_i request requests
    split at h
    · cases h
      exact next_goto hpending rfl trivial
    · rename_i hnone
      cases h
      have hfree : s.view.Free request.id := by
        intro key request' hhandle
        have hhandle : s.handles request.id = some (key, request') := hhandle
        rw [handles_eq hpending] at hhandle
        simp [hhandle] at hnone
      exact next_write hpending rfl (effect_setFailed hfree) trivial
  · cases h

theorem ongoingStep_next {pc : OngoingPc} (hv : s.view.Ok cfg) (hs : s.main = .ongoing pc)
    (h : ongoingStep s pc answer = some t) : Next cfg s [] t := by
  have hpending : s.main.pending = none := by rw [hs]; rfl
  unfold ongoingStep at h
  split at h
  · obtain ⟨-, h⟩ := Option.ite_none_right_eq_some.mp h
    cases h
    exact next_goto hpending rfl trivial
  · cases h
    exact next_goto hpending rfl trivial
  · rename_i id completed
    split at h
    · cases h
      exact next_goto hpending rfl trivial
    · rename_i key request htasks
      split at h
      · rename_i request' ok hproc
        cases h
        have hhandle : s.view.fleet.handles id = some (key, request) := by
          show s.handles id = _
          rw [handles_eq hpending, htasks]
        obtain ⟨rfl, pc, hworker⟩ := hv.tracked.handle id key request hhandle
        cases hworker.symm.trans hproc
        have hnone : s.view.NoLive request.id :=
          hv.tracked.noLive_of_handle hhandle hworker fun hlive => hlive
        cases ok with
        | true =>
          have hnext : Next cfg s [] { s with
              tasks := Function.update s.tasks request.id none
              main := .ongoing (.process completed) } := next_forget hpending rfl hnone trivial
          exact hnext
        | false =>
          obtain ⟨hscope, r, hr, hsame, hallows⟩ := hv.rows _ key request _ hhandle hworker
          have howned : View.Owned cfg ⟨s.db, s.view.fleet.forget request.id⟩ request
              (fun status => status.InTask ∨ status = .prove) :=
            ⟨hscope, hnone, r, hr, hsame, .inl hallows⟩
          have hfree : View.Free ⟨s.db, s.view.fleet.forget request.id⟩ request.id := by
            intro key' request' hhandle'
            rw [Fleet.handles_forget, Function.update_self] at hhandle'
            cases hhandle'
          have hnext : Next cfg s [] { s with
              tasks := Function.update s.tasks request.id none
              main := .retry request (.setFailed false) (.ongoing completed) } :=
            next_forget hpending rfl hnone ⟨howned, hfree, trivial⟩
          exact hnext
      · cases h
  · cases h

theorem pending_onOk (caller : RetryCaller) : caller.onOk.pending = none := by
  cases caller <;> rfl

theorem retryStep_next {request : Request} {pc : RetryPc} {caller : RetryCaller}
    (hs : s.main = .retry request pc caller) (ha : Assert cfg s.view s.main) :
    Next cfg s (MainPc.inserted cfg (.retry request pc caller))
      (retryStep cfg s request caller pc) := by
  have hpending : s.main.pending = none := by rw [hs]; rfl
  rw [hs] at ha
  cases pc with
  | setFailed unexecutable =>
    obtain ⟨howned, hfree, hcaller⟩ := ha
    have hupdates := updates_status s.db request.id .failed
    refine next_write hpending rfl (effect_setFailed hfree) ⟨howned.write hupdates fun _ => rfl, ?_⟩
    exact hcaller.keeps (keeps_write hupdates) fun _ hne => hne
  | countFailed unexecutable =>
    rw [retryStep]
    by_cases hsplits : splits cfg s.db request unexecutable
    · rw [if_pos hsplits]
      exact next_goto hpending rfl ha
    · rw [if_neg hsplits]
      exact next_goto hpending (pending_onOk caller) (assert_onOk ha.2)
  | insertHalves =>
    have hcaller := ha.2.keeps (keeps_insert s.view (halves cfg request)) fun _ _ => trivial
    exact next_write hpending (pending_onOk caller) (.insert _) (assert_onOk hcaller)

/-- A request the main loop read after its task was done with it. -/
theorem owned_of_row (hv : s.view.Ok cfg) {request : Request}
    (hrow : s.db.rows request.id = some request) (hscope : request.InScope cfg.scope)
    (hstatus : ¬ request.status.InTask) : s.view.Owned cfg request (· = request.status) :=
  ⟨hscope, hv.noLive_of_free (hv.free_of_not_inTask hrow hstatus), request, hrow,
    SameRequest.refl request, rfl⟩

theorem processProofRequestStatus_next {request : Request} {rest : List Request}
    {status : ProofStatus} (hv : s.view.Ok cfg) (hpending : s.main.pending = none)
    (hproving : s.view.Proving cfg (request :: rest))
    (h : processProofRequestStatus s request rest status = some t) : Next cfg s [] t := by
  obtain ⟨hids, howned⟩ := hproving
  obtain ⟨hid, hids⟩ := List.nodup_cons.mp hids
  have hrequest := howned request List.mem_cons_self
  have hrest : s.view.Proving cfg rest :=
    ⟨hids, fun other hmem => howned other (List.mem_cons_of_mem _ hmem)⟩
  have hfree : s.view.Free request.id := by
    obtain ⟨r, hr, -, hstatus⟩ := hrequest.row
    refine hv.free_of_not_inTask hr ?_
    rw [hstatus]
    rintro (h | h | h) <;> cases h
  have hretry : Next cfg s []
      (s.goto (.retry request (.setFailed status.unexecutable) (.proving rest))) :=
    next_goto hpending rfl ⟨hrequest.imp fun _ h => .inr h, hfree, hid, hrest⟩
  have hcomplete (proof : Bytes) : Next cfg s []
      (s.write (.updateProofToComplete request.id proof) (.proving (.process rest))) := by
    have hupdates := updates_complete s.db request.id proof
    refine next_write hpending rfl (.write hfree hupdates fun r hr => .inr (.inl ?_)) ?_
    · obtain ⟨r', hr', -, hstatus⟩ := hrequest.row
      cases hr.symm.trans hr'
      exact ⟨hstatus, rfl⟩
    · refine hrest.keeps (keeps_write hupdates) fun other hmem heq => hid ?_
      exact List.mem_map.mpr ⟨other, hmem, heq⟩
  unfold processProofRequestStatus at h
  dsimp only at h
  split at h
  · cases h
    exact hretry
  · split at h
    · split at h <;> cases h
      · exact next_goto hpending rfl trivial
      · exact hcomplete _
      · exact hcomplete _
      · exact hcomplete _
    · cases h
      exact hretry
    · cases h
      exact next_goto hpending rfl hrest

theorem provingStep_next {pc : ProvingPc} (hv : s.view.Ok cfg) (hs : s.main = .proving pc)
    (ha : Assert cfg s.view s.main) (h : provingStep cfg s pc answer = some t) :
    Next cfg s [] t := by
  have hpending : s.main.pending = none := by rw [hs]; rfl
  rw [hs] at ha
  unfold provingStep at h
  split at h
  · rename_i rows
    obtain ⟨hperm, h⟩ := Option.ite_none_right_eq_some.mp h
    cases h
    refine next_goto hpending rfl ⟨?_, fun request hmem => ?_⟩
    · exact (hperm.map _).nodup_iff.mpr (Db.nodup_select _ _)
    · obtain ⟨hrow, hp⟩ := Db.mem_select.mp (hperm.mem_iff.mp hmem)
      simp only [Bool.and_eq_true, decide_eq_true_eq, beq_iff_eq] at hp
      obtain ⟨hscope, hstatus⟩ := hp
      rw [← hstatus]
      refine owned_of_row hv hrow hscope ?_
      rw [hstatus]
      rintro (h | h | h) <;> cases h
  · cases h
    exact next_goto hpending rfl trivial
  · rename_i request rest
    obtain ⟨-, h⟩ := Option.ite_none_right_eq_some.mp h
    cases h
    have hids := List.nodup_cons.mp ha.1
    exact next_goto hpending rfl
      ⟨hids.2, fun other hmem => ha.2 other (List.mem_cons_of_mem _ hmem)⟩
  · obtain ⟨-, h⟩ := Option.ite_none_right_eq_some.mp h
    exact processProofRequestStatus_next hv hpending ha h
  · cases h

/-! ## Functions that select a request -/

/-- The request a step selects in `get_next_unrequested_proof`, also one that
`validate_aggregation_request` then refuses. -/
def selected (s : Sys) : Act → Option Request
  | .call (.row request) =>
    match s.main with
    | .queue (.aggProof _) | .queue (.rangeProof _) => request
    | _ => none
  | _ => none

/-- A task spawned for the request still waits for its first status write. -/
def Sys.isWaiting (s : Sys) (id : Nat) : Bool :=
  (List.range s.nextKey).any fun key =>
    (s.procs key).any fun task => task.datum.id == id && task.state == .spawned

/-- **No waiting task's request is selected.** -/
def selectsFresh (s : Sys) (act : Act) : Bool :=
  (selected s act).all fun request => !s.isWaiting request.id

theorem isWaiting_of_proc {id key : Nat} {task : Task} (hkey : key < s.nextKey)
    (htask : s.procs key = some task) (hid : task.datum.id = id) (hstate : task.state = .spawned) :
    s.isWaiting id = true := by
  refine List.any_eq_true.mpr ⟨key, List.mem_range.mpr hkey, ?_⟩
  rw [htask, Option.any_some, hid, hstate]
  simp

/-- The main loop holds the unrequested request it selects. -/
theorem owned_of_selected (hv : s.view.Ok cfg) {request : Request}
    (hrow : s.db.rows request.id = some request) (hscope : request.InScope cfg.scope)
    (hstatus : request.status = .unrequested) (hfresh : s.isWaiting request.id = false) :
    s.view.Owned cfg request (· = .unrequested) := by
  refine ⟨hscope, fun key task htask hid hlive => ?_, request, hrow, SameRequest.refl request,
    hstatus⟩
  have hkey : key < s.nextKey := hv.tracked.fresh key task htask
  refine Bool.eq_false_iff.mp hfresh (isWaiting_of_proc hkey htask hid ?_)
  -- A live task on an unrequested request has not written yet.
  obtain ⟨r, hr, -, hallows⟩ := hv.row_of_live htask hlive
  rw [hid] at hr
  cases hrow.symm.trans hr
  rw [hstatus] at hallows
  cases hstate : task.state with
  | spawned => rfl
  | finished ok => rw [hstate] at hlive; cases hlive
  | _ => rw [hstate] at hallows; cases hallows

theorem mem_inStatus {db : Db} {scope : Scope} {reqType : RequestType} {status : RequestStatus}
    {p : Request → Bool} {request : Request}
    (h : request ∈ db.inStatus scope reqType status p) :
    db.rows request.id = some request ∧ request.InScope scope ∧ request.reqType = reqType ∧
      request.status = status := by
  obtain ⟨hrow, hp⟩ := Db.mem_select.mp h
  simp only [Bool.and_eq_true, decide_eq_true_eq, beq_iff_eq] at hp
  exact ⟨hrow, hp.1.1.1, hp.1.1.2, hp.1.2⟩

theorem queueStep_next {pc : QueuePc} (hv : s.view.Ok cfg) (hs : s.main = .queue pc)
    (ha : Assert cfg s.view s.main) (hfresh : selectsFresh s (.call answer) = true)
    (h : queueStep cfg s pc answer = some t) : Next cfg s [] t := by
  unfold queueStep at h
  split at h
  · cases h
    exact next_goto (by rw [hs]; rfl) rfl trivial
  · cases h
    exact next_goto (by rw [hs]; rfl) rfl trivial
  · dsimp only at h
    (repeat' split at h) <;> cases h <;> exact next_goto (by rw [hs]; rfl) rfl trivial
  · cases h
    exact next_goto (by rw [hs]; rfl) rfl trivial
  · rename_i latestProposed selected
    obtain ⟨hfirst, h⟩ := Option.ite_none_right_eq_some.mp h
    cases selected with
    | none =>
      cases h
      exact next_goto (by rw [hs]; rfl) rfl trivial
    | some request =>
      cases h
      obtain ⟨hrow, hscope, -, hstatus⟩ := mem_inStatus (Db.mem_of_isFirstByStart hfirst)
      simp only [selectsFresh, selected, hs, Option.all_some, Bool.not_eq_true'] at hfresh
      exact next_goto (by rw [hs]; rfl) rfl (owned_of_selected hv hrow hscope hstatus hfresh)
  · rename_i latestProposed request rangeProofs
    obtain ⟨-, h⟩ := Option.ite_none_right_eq_some.mp h
    cases h
    rw [hs] at ha
    by_cases hvalid : validateAggregationRequest rangeProofs request
    · rw [if_pos hvalid]
      exact next_goto (by rw [hs]; rfl) rfl ha
    · rw [if_neg hvalid]
      exact next_goto (by rw [hs]; rfl) rfl trivial
  · rename_i latestProposed selected
    obtain ⟨hfirst, h⟩ := Option.ite_none_right_eq_some.mp h
    cases selected with
    | none =>
      cases h
      exact next_goto (by rw [hs]; rfl) rfl trivial
    | some request =>
      cases h
      obtain ⟨hrow, hscope, -, hstatus⟩ := mem_inStatus (Db.mem_of_isFirstByStart hfirst)
      simp only [selectsFresh, selected, hs, Option.all_some, Bool.not_eq_true'] at hfresh
      exact next_goto (by rw [hs]; rfl) rfl (owned_of_selected hv hrow hscope hstatus hfresh)
  · -- The spawned task is counted as the request's from here on.
    rename_i request
    cases h
    have hpending : s.main.pending = none := by rw [hs]; rfl
    rw [hs] at ha
    have heffect : Effect cfg s.view [] ⟨s.db, s.view.fleet.spawn Request.id request .spawned⟩ :=
      .spawn ha
    refine ⟨?_, trivial⟩
    rw [Fleet.spawn, show s.view.fleet.handles = s.tasks from handles_eq hpending] at heffect
    exact heffect
  · rename_i key request
    cases h
    have hhandles : s.handles = Function.update s.tasks request.id (some (key, request)) := by
      rw [Sys.handles, hs]
      rfl
    have hview : s.view = Sys.view
        { s with
          tasks := Function.update s.tasks request.id (some (key, request))
          main := .idle } := by
      rw [Sys.view, hhandles]
      rfl
    exact ⟨hview ▸ .none, trivial⟩
  · cases h

theorem submitStep_next {pc : SubmitPc} (hv : s.view.Ok cfg) (hs : s.main = .submit pc)
    (ha : Assert cfg s.view s.main) (h : submitStep cfg s pc answer = some t) :
    Next cfg s [] t := by
  have hpending : s.main.pending = none := by rw [hs]; rfl
  rw [hs] at ha
  unfold submitStep at h
  split at h
  · cases h
    exact next_goto hpending rfl trivial
  · obtain ⟨-, h⟩ := Option.ite_none_right_eq_some.mp h
    cases h
    exact next_goto hpending rfl trivial
  · rename_i latestProposed request
    obtain ⟨hmem, h⟩ := Option.ite_none_right_eq_some.mp h
    cases h
    obtain ⟨hrow, hscope, -, hstatus⟩ := mem_inStatus hmem
    have howned := owned_of_row hv hrow hscope (by rw [hstatus]; rintro (h | h | h) <;> cases h)
    rw [hstatus] at howned
    exact next_goto hpending rfl howned
  · obtain ⟨-, h⟩ := Option.ite_none_right_eq_some.mp h
    cases h
    exact next_goto hpending rfl ha
  · rename_i request transactionHash
    cases h
    have hupdates := updates_relayed s.db request.id transactionHash cfg.l2ooAddress
    obtain ⟨r, hr, -, hstatus⟩ := View.Owned.row ha
    have hfree : s.view.Free request.id :=
      hv.free_of_not_inTask hr (by rw [hstatus]; rintro (h | h | h) <;> cases h)
    refine next_write hpending rfl (.write hfree hupdates fun r' hr' => .inr (.inr ?_)) trivial
    cases hr.symm.trans hr'
    exact ⟨hstatus, rfl⟩
  · cases h

/-! ## Every step -/

/-- **What a step is**, by its label. -/
inductive Moves (cfg : Config) (s : Sys) : Act → Sys → Prop
  | advance {latest : Nat} : s.latest ≤ latest → Moves cfg s (.advance latest) { s with latest }
  | restart : Moves cfg s .restart
      { s with main := .init .delete, tasks := fun _ => none, procs := fun _ => none }
  | task {key : Nat} {task : Task} {act : TaskAct} {db : Db} {pc : TaskPc} :
      s.procs key = some task → taskStep cfg s.db task act = some (db, pc) →
      Moves cfg s (.task key act)
        { s with db, procs := Function.update s.procs key (some ⟨task.datum, pc⟩) }
  | start (f : LoopFn) : s.main = .idle → Moves cfg s (.start f) (s.goto (f.entry cfg))
  | fail {next : MainPc} : s.main.onErr = some next → Moves cfg s .fail (s.goto next)
  | call {answer : Answer} {t : Sys} : mainStep cfg s answer = some t →
      Moves cfg s (.call answer) t

theorem moves_of_step {act : Act} (h : step cfg s act = some t) : Moves cfg s act t := by
  cases act with
  | advance latest =>
    obtain ⟨hle, h⟩ := Option.ite_none_right_eq_some.mp h
    cases h
    exact .advance hle
  | restart =>
    cases h
    exact .restart
  | task key act =>
    obtain ⟨task, htask, h⟩ := Option.bind_eq_some_iff.mp h
    obtain ⟨⟨db, pc⟩, hstep, h⟩ := Option.bind_eq_some_iff.mp h
    cases h
    exact .task htask hstep
  | start f =>
    rw [step] at h
    split at h
    · rename_i hmain
      cases h
      exact .start f hmain
    · cases h
  | fail =>
    obtain ⟨next, hnext, rfl⟩ := Option.map_eq_some_iff.mp h
    exact .fail hnext
  | call answer => exact .call h

/-- Where a function of the loop starts, or where the main loop is after an error. -/
def MainPc.AtStart : MainPc → Prop
  | .init .delete | .idle | .ongoing _ | .orphan .witnessgenRequests | .proving .fetch
  | .add .latest | .agg .latest | .queue .witnessGenCount | .submit .latest => True
  | _ => False

theorem atStart_entry (cfg : Config) (f : LoopFn) : (f.entry cfg).AtStart := by
  cases f with
  | handleProvingRequests => rw [LoopFn.entry]; split <;> trivial
  | _ => trivial

theorem atStart_onErr {next : MainPc} (h : main.onErr = some next) : next.AtStart := by
  cases main with
  | queue pc => cases pc <;> cases h <;> trivial
  | retry request pc caller => cases caller <;> cases h <;> trivial
  | idle | ongoing pc => cases h
  | _ => cases h; trivial

theorem pending_of_atStart (h : main.AtStart) : main.pending = none := by
  unfold MainPc.AtStart at h
  split at h <;> first | rfl | cases h

theorem pending_of_onErr {next : MainPc} (h : main.onErr = some next) : main.pending = none := by
  cases main with
  | queue pc => cases pc <;> cases h <;> rfl
  | _ => rfl

theorem assert_of_onErr {v : View} {main next : MainPc} (hmain : main.onErr = some next)
    (h : Assert cfg v main) : Assert cfg v next := by
  cases main with
  | init pc => cases hmain; exact h
  | queue pc => cases pc <;> cases hmain <;> trivial
  | retry request pc caller => cases hmain; exact assert_onErr caller
  | idle | ongoing pc => cases hmain
  | _ => cases hmain; trivial

theorem assert_entry (v : View) (f : LoopFn) : Assert cfg v (f.entry cfg) := by
  cases f with
  | handleProvingRequests => rw [LoopFn.entry]; split <;> trivial
  | _ => trivial

/-- The main loop is in control, and what it knows holds. -/
def Sys.Ok (cfg : Config) (s : Sys) : Prop := s.view.Ok cfg ∧ Assert cfg s.view s.main

theorem mainStep_next (hs : s.Ok cfg) (hfresh : selectsFresh s (.call answer) = true)
    (h : mainStep cfg s answer = some t) : Next cfg s (s.main.inserted cfg) t := by
  obtain ⟨hv, ha⟩ := hs
  unfold mainStep at h
  split at h <;> rename_i hmain <;> try rw [hmain]
  · cases h
  · cases h
    exact initStep_next hmain ha
  · exact ongoingStep_next hv hmain h
  · exact orphanStep_next hmain h
  · exact provingStep_next hv hmain ha h
  · cases h
    exact retryStep_next hmain ha
  · exact addStep_next hmain h
  · exact aggStep_next hmain h
  · exact queueStep_next hv hmain ha hfresh h
  · exact submitStep_next hv hmain ha h

/-- **Every step** has an effect, and establishes what the main loop then knows. -/
theorem step_next {act : Act} (hs : s.Ok cfg) (hfresh : selectsFresh s act = true)
    (h : step cfg s act = some t) : Next cfg s (inserted cfg s act) t := by
  cases moves_of_step h with
  | advance _ => exact ⟨.none, hs.2⟩
  | restart => exact ⟨.restart, fun _ => rfl⟩
  | task htask hstep => exact ⟨.task htask hstep, hs.2.keeps (keeps_task htask hstep)⟩
  | start f hmain =>
    exact next_goto (by rw [hmain]; rfl) (pending_of_atStart (atStart_entry cfg f))
      (assert_entry _ f)
  | fail hnext =>
    exact next_goto (pending_of_onErr hnext) (pending_of_atStart (atStart_onErr hnext))
      (assert_of_onErr hnext hs.2)
  | call hcall => exact mainStep_next hs hfresh hcall

end OpSuccinct.Validity
