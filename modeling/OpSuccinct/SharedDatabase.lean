import OpSuccinct.RequestVersions
import OpSuccinct.ProposerLifeCycle

/-! # Proposers of different chains on one database

The rows of a database carry their chains, so proposers of several chains may share it.  They
take their steps in any order, and each reads and writes the one table (`Cluster`).

A proposer reads rows of its own chain, so it holds requests of its chain, and what it writes
to by id is of its chain too (`Contained`).  A step therefore leaves all rows of other chains as
they are, also those that are deleted or cancelled by their status (`rows_of_foreign`), and for
a proposer nothing changes while others take steps (`chains_do_not_interfere`).
-/
namespace OpSuccinct.Validity

open Fleets Transition

def Request.OnChain (scope : Scope) (r : Request) : Prop :=
  r.l1ChainId = scope.l1ChainId ∧ r.l2ChainId = scope.l2ChainId

variable {cfg : Config} {s t : Sys} {act : Act} {answer : Answer} {r r' : Request} {id : Nat}
  {scope : Scope} {w : DbWrite}

theorem Request.InScope.onChain (h : r.InScope scope) : r.OnChain scope := h.2.2

theorem SameInputs.onChain_iff (h : SameInputs r r') : r'.OnChain scope ↔ r.OnChain scope := by
  unfold Request.OnChain
  rw [h.l1ChainId, h.l2ChainId]

/-! ## What a proposer reads -/

theorem inScope_of_select {p : Request → Bool} (h : r ∈ s.db.select p)
    (hp : p r = true → r.InScope cfg.scope) : r.InScope cfg.scope :=
  hp (Db.mem_select.mp h).2

theorem inScope_of_fetch {status : RequestStatus} {rows : List Request}
    (hperm : rows.Perm (s.db.fetchRequestsByStatus cfg.scope status)) (hr : r ∈ rows) :
    r.InScope cfg.scope := by
  refine inScope_of_select (hperm.mem_iff.mp hr) fun hp => ?_
  rw [Bool.and_eq_true, decide_eq_true_eq] at hp
  exact hp.1

/-- What the main loop holds is what it, a task or the map held, or is of its scope. -/
def HeldOrInScope (cfg : Config) (s : Sys) (main : MainPc) : Prop :=
  ∀ r ∈ main.requests, s.Holds r ∨ r.InScope cfg.scope

theorem heldOrInScope_of_main {main main' : MainPc} (hs : s.main = main)
    (h : ∀ r ∈ main'.requests, r ∈ main.requests) : HeldOrInScope cfg s main' :=
  fun r hr => .inl (.inl (hs ▸ h r hr))

theorem heldOrInScope_of_nil {main : MainPc} (h : main.requests = []) :
    HeldOrInScope cfg s main := by
  intro r hr
  rw [h] at hr
  cases hr

/-- The request of a task that failed comes out of the map. -/
theorem ongoingStep_reads {pc : OngoingPc} (h : ongoingStep s pc answer = some t) :
    HeldOrInScope cfg s t.main := by
  unfold ongoingStep at h
  split at h
  · obtain ⟨-, h⟩ := Option.ite_none_right_eq_some.mp h
    cases h
    exact heldOrInScope_of_nil rfl
  · cases h
    exact heldOrInScope_of_nil rfl
  · rename_i id completed
    split at h
    · cases h
      exact heldOrInScope_of_nil rfl
    · rename_i key request htask
      split at h
      · rename_i ok hproc
        cases h
        cases ok with
        | true => exact heldOrInScope_of_nil rfl
        | false =>
          intro r hr
          rw [List.mem_singleton.mp hr]
          exact .inl (.inr (.inr ⟨id, key, htask⟩))
      · cases h
  · cases h

theorem orphanStep_reads {pc : OrphanPc} (hs : s.main = .orphan pc)
    (h : orphanStep cfg s pc answer = some t) : HeldOrInScope cfg s t.main := by
  unfold orphanStep at h
  split at h
  · obtain ⟨hperm, h⟩ := Option.ite_none_right_eq_some.mp h
    cases h
    exact fun r hr => .inr (inScope_of_fetch hperm hr)
  · obtain ⟨hperm, h⟩ := Option.ite_none_right_eq_some.mp h
    cases h
    intro r hr
    rcases List.mem_append.mp hr with hr | hr
    · exact .inl (.inl (hs ▸ hr))
    · exact .inr (inScope_of_fetch hperm hr)
  · cases h
    exact heldOrInScope_of_nil rfl
  · split at h <;> cases h <;>
      exact heldOrInScope_of_main hs fun r hr => List.mem_cons_of_mem _ hr
  · cases h

theorem provingStep_reads {pc : ProvingPc} (hs : s.main = .proving pc)
    (h : provingStep cfg s pc answer = some t) : HeldOrInScope cfg s t.main := by
  unfold provingStep at h
  split at h
  · obtain ⟨hperm, h⟩ := Option.ite_none_right_eq_some.mp h
    cases h
    exact fun r hr => .inr (inScope_of_fetch hperm hr)
  · cases h
    exact heldOrInScope_of_nil rfl
  · obtain ⟨-, h⟩ := Option.ite_none_right_eq_some.mp h
    cases h
    exact heldOrInScope_of_main hs fun r hr => List.mem_cons_of_mem _ hr
  · obtain ⟨-, h⟩ := Option.ite_none_right_eq_some.mp h
    dsimp only [processProofRequestStatus] at h
    (repeat' split at h) <;> cases h
    · exact heldOrInScope_of_main hs fun _ hr => hr
    · exact heldOrInScope_of_nil rfl
    · exact heldOrInScope_of_main hs fun r hr => List.mem_cons_of_mem _ hr
    · exact heldOrInScope_of_main hs fun r hr => List.mem_cons_of_mem _ hr
    · exact heldOrInScope_of_main hs fun r hr => List.mem_cons_of_mem _ hr
    · exact heldOrInScope_of_main hs fun _ hr => hr
    · exact heldOrInScope_of_main hs fun r hr => List.mem_cons_of_mem _ hr
  · cases h

theorem retryStep_reads {request : Request} {pc : RetryPc} {caller : RetryCaller}
    (hs : s.main = .retry request pc caller) :
    HeldOrInScope cfg s (retryStep cfg s request caller pc).main := by
  have hcaller : HeldOrInScope cfg s caller.onOk := by
    refine heldOrInScope_of_main hs fun r hr => ?_
    rw [requests_onOk] at hr
    exact List.mem_cons_of_mem _ hr
  cases pc with
  | setFailed unexecutable => exact heldOrInScope_of_main hs fun _ hr => hr
  | countFailed unexecutable =>
    rw [retryStep]
    split
    · exact heldOrInScope_of_main hs fun _ hr => hr
    · exact hcaller
  | insertHalves => exact hcaller

/-- `request_queued_proofs` selects within its scope, and may spawn a task on what it holds. -/
theorem queueStep_reads {pc : QueuePc} (hs : s.main = .queue pc)
    (h : queueStep cfg s pc answer = some t) (hr : t.Holds r) :
    s.Holds r ∨ r.InScope cfg.scope := by
  have hkeep {main : MainPc} (hmain : HeldOrInScope cfg s main) (hr : (s.goto main).Holds r) :
      s.Holds r ∨ r.InScope cfg.scope := by
    rcases hr with hr | hr
    · exact hmain r hr
    · exact .inl (.inr hr)
  unfold queueStep at h
  split at h
  · cases h
    exact hkeep (heldOrInScope_of_nil rfl) hr
  · cases h
    exact hkeep (heldOrInScope_of_nil rfl) hr
  · dsimp only at h
    (repeat' split at h) <;> cases h <;> exact hkeep (heldOrInScope_of_nil rfl) hr
  · cases h
    exact hkeep (heldOrInScope_of_nil rfl) hr
  · obtain ⟨hfirst, h⟩ := Option.ite_none_right_eq_some.mp h
    split at h <;> cases h
    · exact hkeep (heldOrInScope_of_nil rfl) hr
    · refine hkeep (fun r hr => .inr ?_) hr
      rw [List.mem_singleton.mp hr]
      exact (mem_inStatus (Db.mem_of_isFirstByStart hfirst)).2.1
  · obtain ⟨-, h⟩ := Option.ite_none_right_eq_some.mp h
    cases h
    refine hkeep (heldOrInScope_of_main hs fun r hr => ?_) hr
    split at hr
    · exact hr
    · cases hr
  · obtain ⟨hfirst, h⟩ := Option.ite_none_right_eq_some.mp h
    split at h <;> cases h
    · exact hkeep (heldOrInScope_of_nil rfl) hr
    · refine hkeep (fun r hr => .inr ?_) hr
      rw [List.mem_singleton.mp hr]
      exact (mem_inStatus (Db.mem_of_isFirstByStart hfirst)).2.1
  · -- The new task works on the request the main loop holds.
    cases h
    rcases hr with hr | ⟨key, task, htask, rfl⟩ | hr
    · exact .inl (.inl (hs ▸ hr))
    · rcases update_eq_some htask with ⟨-, hnew⟩ | ⟨-, hold⟩
      · cases hnew
        exact .inl (.inl (hs ▸ List.mem_singleton_self _))
      · exact .inl (.inr (.inl ⟨key, task, hold, rfl⟩))
    · exact .inl (.inr (.inr hr))
  · cases h
    rcases hr with hr | hr | ⟨id, key, htask⟩
    · cases hr
    · exact .inl (.inr (.inl hr))
    · rcases update_eq_some htask with ⟨-, hnew⟩ | ⟨-, hold⟩
      · cases hnew
        exact .inl (.inl (hs ▸ List.mem_singleton_self _))
      · exact .inl (.inr (.inr ⟨id, key, hold⟩))
  · cases h

theorem submitStep_reads {pc : SubmitPc} (hs : s.main = .submit pc)
    (h : submitStep cfg s pc answer = some t) : HeldOrInScope cfg s t.main := by
  unfold submitStep at h
  split at h
  · cases h
    exact heldOrInScope_of_nil rfl
  · obtain ⟨-, h⟩ := Option.ite_none_right_eq_some.mp h
    cases h
    exact heldOrInScope_of_nil rfl
  · obtain ⟨hmem, h⟩ := Option.ite_none_right_eq_some.mp h
    cases h
    intro r hr
    rw [List.mem_singleton.mp hr]
    exact .inr (mem_inStatus hmem).2.1
  · obtain ⟨-, h⟩ := Option.ite_none_right_eq_some.mp h
    cases h
    exact heldOrInScope_of_main hs fun _ hr => hr
  · cases h
    exact heldOrInScope_of_nil rfl
  · cases h

theorem MainHolds.reads (h : MainHolds s t) (hmain : HeldOrInScope cfg s t.main)
    (hr : t.Holds r) : s.Holds r ∨ r.InScope cfg.scope := by
  rcases hr with hr | hr | ⟨id, key, hr⟩
  · exact hmain r hr
  · rw [h.procs] at hr
    exact .inl (.inr (.inl hr))
  · exact .inl (h.tasks id key r hr)

theorem mainStep_reads (h : mainStep cfg s answer = some t) (hr : t.Holds r) :
    s.Holds r ∨ r.InScope cfg.scope := by
  unfold mainStep at h
  split at h <;> rename_i hmain
  · cases h
  · cases h
    rename_i pc
    rcases hr with hr | hr
    · cases pc <;> cases hr
    · cases pc <;> exact .inl (.inr hr)
  · exact (ongoingStep_holds hmain h).reads (ongoingStep_reads h) hr
  · exact (orphanStep_holds hmain h).reads (orphanStep_reads hmain h) hr
  · exact (provingStep_holds hmain h).reads (provingStep_reads hmain h) hr
  · cases h
    exact (retryStep_holds hmain).reads (retryStep_reads hmain) hr
  · refine (addStep_holds h).reads (heldOrInScope_of_nil ?_) hr
    unfold addStep at h
    dsimp only at h
    (repeat' split at h) <;> cases h <;> rfl
  · refine (aggStep_holds h).reads (heldOrInScope_of_nil ?_) hr
    unfold aggStep at h
    (repeat' split at h) <;> cases h <;> rfl
  · exact queueStep_reads hmain h hr
  · exact (submitStep_holds hmain h).reads (submitStep_reads hmain h) hr

/-- **What is held after a step** was held before it, or is of the proposer's scope. -/
theorem step_reads (h : step cfg s act = some t) (hr : t.Holds r) :
    s.Holds r ∨ r.InScope cfg.scope := by
  -- At a start the main loop holds nothing.
  have hstart {main : MainPc} (hmain : main.AtStart) (hr : (s.goto main).Holds r) :
      s.Holds r ∨ r.InScope cfg.scope := by
    rcases hr with hr | hr
    · rw [show (s.goto main).main.requests = [] from requests_of_atStart hmain] at hr
      cases hr
    · exact .inl (.inr hr)
  cases moves_of_step h with
  | advance _ => exact .inl hr
  | restart => rcases hr with hr | ⟨key, task, hr, -⟩ | ⟨id, key, hr⟩ <;> cases hr
  | @task key task _ _ _ htask _ =>
    rcases hr with hr | ⟨key', task', hr, rfl⟩ | hr
    · exact .inl (.inl hr)
    · rcases update_eq_some hr with ⟨-, hnew⟩ | ⟨-, hold⟩
      · cases hnew
        exact .inl (.inr (.inl ⟨key, task, htask, rfl⟩))
      · exact .inl (.inr (.inl ⟨key', task', hold, rfl⟩))
    · exact .inl (.inr (.inr hr))
  | start f _ => exact hstart (atStart_entry cfg f) hr
  | fail hnext => exact hstart (atStart_onErr hnext) hr
  | call hcall => exact mainStep_reads hcall hr

/-! ## What a proposer writes to -/

/-- The request's id was given out, and its row, if there still is one, is of the chain. -/
structure Db.Chained (db : Db) (scope : Scope) (id : Nat) : Prop where
  id_lt : id < db.nextId
  row : ∀ r, db.rows id = some r → r.OnChain scope

/-- **All that the proposer holds is of its chain.** -/
def Sys.Contained (s : Sys) (cfg : Config) : Prop :=
  ∀ r, s.Holds r → r.OnChain cfg.scope ∧ s.db.Chained cfg.scope r.id

/-- A row that was there before a step and after it. -/
theorem sameInputs_of_step (h : step cfg s act = some t) (hid : id < s.db.nextId)
    (hr' : t.db.rows id = some r') : ∃ r, s.db.rows id = some r ∧ SameInputs r r' := by
  rcases step_written h with hdb | ⟨w, -, hdb⟩
  · exact ⟨r', hdb ▸ hr', SameInputs.refl r'⟩
  · rcases rows_apply_back (hdb ▸ hr') with ⟨r, hr, rfl⟩ | ⟨requests, r, -, -, hnext, -⟩
    · exact ⟨r, hr, sameInputs_onRow r w⟩
    · omega

/-- Whoever takes a step, a request stays on its chain. -/
theorem Db.Chained.step (hid : s.db.Chained scope id) (h : step cfg s act = some t) :
    t.db.Chained scope id := by
  refine ⟨Nat.lt_of_lt_of_le hid.id_lt (nextId_step h), fun r' hr' => ?_⟩
  obtain ⟨r, hr, hsame⟩ := sameInputs_of_step h hid.id_lt hr'
  exact hsame.onChain_iff.mpr (hid.row r hr)

theorem contained_step (hs : s.Contained cfg) (h : step cfg s act = some t) : t.Contained cfg := by
  intro r hr
  have hbefore : r.OnChain cfg.scope ∧ s.db.Chained cfg.scope r.id := by
    rcases step_reads h hr with hheld | hscope
    · exact hs r hheld
    · rcases step_holds h hr with hrow | hheld
      · refine ⟨hscope.onChain, Db.id_lt hrow, fun r₀ hr₀ => ?_⟩
        obtain rfl := Option.some.inj (hrow.symm.trans hr₀)
        exact hscope.onChain
      · exact hs r hheld
  exact ⟨hbefore.1, hbefore.2.step h⟩

/-- **A write leaves the rows of other chains.** -/
theorem onRow_of_foreign (hs : s.Contained cfg) (h : Writes cfg s act w)
    (hrow : s.db.rows r.id = some r) (hforeign : ¬ r.OnChain cfg.scope) : w.onRow r = r := by
  have hne (request : Request) (hheld : s.Holds request) : r.id ≠ request.id := by
    intro heq
    exact hforeign ((hs request hheld).2.row r (heq ▸ hrow))
  have hmain {main : MainPc} {request : Request} (hmain : s.main = main)
      (hmem : request ∈ main.requests) : r.id ≠ request.id :=
    hne request (.inl (hmain ▸ hmem))
  cases h with
  | startWitnessGeneration htask | l1Head htask | startExecution htask | complete htask
  | prove htask => exact if_neg (hne _ (.inr (.inl ⟨_, _, htask, rfl⟩)))
  | orphan hs | store hs => exact if_neg (hmain hs List.mem_cons_self)
  | setFailed hs | setRelayed hs => exact if_neg (hmain hs (by simp [MainPc.requests]))
  | cancel =>
    refine if_neg fun hcancelled => hforeign ?_
    simp only [Bool.and_eq_true, beq_iff_eq] at hcancelled
    exact ⟨hcancelled.1.2, hcancelled.2⟩
  | delete | insertHalves | insertRanges | insertAgg => rfl

theorem onChain_of_inserted {requests : List Request}
    (h : Writes cfg s act (.insertRequests requests)) (hr : r ∈ requests) :
    r.OnChain cfg.scope := by
  generalize hw : DbWrite.insertRequests requests = w at h
  cases h with
  | insertHalves hmain =>
    obtain rfl := DbWrite.insertRequests.inj hw
    rcases List.mem_cons.mp hr with rfl | hr
    · exact ⟨rfl, rfl⟩
    · rw [List.mem_singleton.mp hr]
      exact ⟨rfl, rfl⟩
  | insertRanges hmain =>
    obtain rfl := DbWrite.insertRequests.inj hw
    obtain ⟨range, -, rfl⟩ := List.mem_map.mp hr
    exact ⟨rfl, rfl⟩
  | insertAgg hmain =>
    obtain rfl := DbWrite.insertRequests.inj hw
    rw [List.mem_singleton.mp hr]
    exact ⟨rfl, rfl⟩
  | _ => cases hw

theorem rows_update_of_some {db : Db} {id i : Nat} {f : Request → Request}
    (h : db.rows i = some r) :
    (db.update id f).rows i = some (if r.id = id then { f r with id := r.id } else r) := by
  by_cases hi : i = id
  · subst hi
    have hself : (db.update i f).rows i = (db.rows i).map fun r => { f r with id := r.id } :=
      Function.update_self _ _ _
    rw [hself, h, if_pos (db.id_eq i r h)]
    rfl
  · have hother : (db.update id f).rows i = db.rows i := Function.update_of_ne hi _ _
    rw [hother, h, if_neg (db.id_eq i r h ▸ hi)]

/-- A row is still there after a write that is no deletion on its chain. -/
theorem rows_apply_of_some {db : Db} {i : Nat} (h : db.rows i = some r)
    (hkept : ∀ statuses l1ChainId l2ChainId,
      w = .deleteAllRequestsWithStatuses statuses l1ChainId l2ChainId →
        ¬ (r.l1ChainId = l1ChainId ∧ r.l2ChainId = l2ChainId)) :
    (db.apply w).rows i = some (w.onRow r) := by
  cases w with
  | insertRequests requests => exact Db.rows_insertAll_of_some h
  | deleteAllRequestsWithStatuses statuses l1ChainId l2ChainId =>
    show (db.rows i).filter _ = some r
    have hchain := hkept statuses l1ChainId l2ChainId rfl
    rw [h, Option.filter_some, if_pos]
    rw [Bool.not_eq_true', Bool.eq_false_iff]
    intro hdeleted
    simp only [Bool.and_eq_true, beq_iff_eq] at hdeleted
    exact hchain ⟨hdeleted.1.2, hdeleted.2⟩
  | cancelProveRequestsWithDifferentCommitmentConfig scope =>
    show (db.rows i).map _ = _
    rw [h]
    rfl
  | _ => exact rows_update_of_some h

/-- **A step leaves the rows of other chains**: none is changed, deleted or inserted. -/
theorem rows_of_foreign (hs : s.Contained cfg) (h : step cfg s act = some t)
    (hforeign : ¬ r.OnChain cfg.scope) : t.db.rows id = some r ↔ s.db.rows id = some r := by
  rcases step_written h with hdb | ⟨w, hw, hdb⟩
  · rw [hdb]
  · rw [hdb]
    constructor
    · intro hr
      rcases rows_apply_back hr with ⟨r₀, hr₀, rfl⟩ | ⟨requests, r₀, rfl, hmem, -, rfl⟩
      · have hforeign₀ : ¬ r₀.OnChain cfg.scope :=
          fun hchain => hforeign ((sameInputs_onRow r₀ w).onChain_iff.mpr hchain)
        rw [onRow_of_foreign hs hw (s.db.id_eq id r₀ hr₀ ▸ hr₀) hforeign₀, hr₀]
      · exact absurd (onChain_of_inserted hw hmem) hforeign
    · intro hr
      have hrow := rows_apply_of_some (w := w) hr ?_
      · rw [hrow, onRow_of_foreign hs hw (s.db.id_eq id r hr ▸ hr) hforeign]
      · rintro statuses l1ChainId l2ChainId rfl hchain
        cases hw
        exact hforeign hchain

/-! ## Queries -/

/-- A query goes through the rows by id, as far as there are any. -/
theorem Db.select_eq (db : Db) (p : Request → Bool) {n : Nat} (hn : db.nextId ≤ n) :
    db.select p = (List.range n).filterMap fun i => (db.rows i).filter p := by
  induction n, hn using Nat.le_induction with
  | base => rw [Db.select, Db.all, List.filter_filterMap]
  | succ n hn ih =>
    have hlast : db.rows n = none := db.fresh n hn
    rw [List.range_succ, List.filterMap_append, ← ih]
    simp [hlast]

/-- A query answers as its rows are. -/
theorem Db.select_congr {db db' : Db} {p : Request → Bool}
    (h : ∀ i r, p r = true → (db'.rows i = some r ↔ db.rows i = some r)) :
    db'.select p = db.select p := by
  rw [db.select_eq p (le_max_left _ db'.nextId), db'.select_eq p (le_max_right db.nextId _)]
  apply List.filterMap_congr
  intro i _
  ext r
  simp only [Option.filter_eq_some_iff]
  constructor
  · rintro ⟨hr, hp⟩
    exact ⟨(h i r hp).mp hr, hp⟩
  · rintro ⟨hr, hp⟩
    exact ⟨(h i r hp).mpr hr, hp⟩

/-- The databases have the same rows of the chain. -/
def SameRows (scope : Scope) (db db' : Db) : Prop :=
  ∀ i r, r.OnChain scope → (db'.rows i = some r ↔ db.rows i = some r)

section Queries
variable {db db' : Db} {reqType : RequestType} {status : RequestStatus} {p : Request → Bool}
  {startBlock endBlock : Int}

theorem SameRows.select (h : SameRows scope db db') (hp : ∀ r, p r = true → r.InScope scope) :
    db'.select p = db.select p :=
  Db.select_congr fun i r hr => h i r (hp r hr).onChain

theorem SameRows.inStatus (h : SameRows scope db db') :
    db'.inStatus scope reqType status p = db.inStatus scope reqType status p :=
  h.select fun r hr => by simp_all

theorem SameRows.fetchRequestsByStatus (h : SameRows scope db db') :
    db'.fetchRequestsByStatus scope status = db.fetchRequestsByStatus scope status :=
  h.select fun r hr => by simp_all

theorem SameRows.fetchRequestCount (h : SameRows scope db db') :
    db'.fetchRequestCount scope status = db.fetchRequestCount scope status :=
  congrArg List.length (h.select fun r hr => by simp_all)

theorem SameRows.fetchFailedRequestCountByBlockRange (h : SameRows scope db db') :
    db'.fetchFailedRequestCountByBlockRange scope startBlock endBlock =
      db.fetchFailedRequestCountByBlockRange scope startBlock endBlock :=
  congrArg List.length (h.select fun r hr => by simp_all)

theorem SameRows.fetchRangesAfterBlock (h : SameRows scope db db') :
    db'.fetchRangesAfterBlock scope startBlock = db.fetchRangesAfterBlock scope startBlock :=
  congrArg (List.map _) (h.select fun r hr => by simp_all)

theorem SameRows.fetchActiveAggProofsCount (h : SameRows scope db db') :
    db'.fetchActiveAggProofsCount scope startBlock =
      db.fetchActiveAggProofsCount scope startBlock :=
  congrArg List.length (h.select fun r hr => by simp_all)

theorem SameRows.getConsecutiveCompleteRangeProofs (h : SameRows scope db db') :
    db'.getConsecutiveCompleteRangeProofs scope startBlock endBlock =
      db.getConsecutiveCompleteRangeProofs scope startBlock endBlock :=
  congrArg (List.insertionSort _) h.inStatus

theorem SameRows.fetchCompletedRanges (h : SameRows scope db db') :
    db'.fetchCompletedRanges scope startBlock = db.fetchCompletedRanges scope startBlock := by
  rw [Db.fetchCompletedRanges, Db.fetchCompletedRanges, h.inStatus]

end Queries

/-! ## Steps on other databases with the same rows of the chain -/

def Sys.on (s : Sys) (db : Db) : Sys := { s with db }

@[simp] theorem Sys.on_db (s : Sys) (db : Db) : (s.on db).db = db := rfl
@[simp] theorem Sys.on_main (s : Sys) (db : Db) : (s.on db).main = s.main := rfl
@[simp] theorem Sys.on_tasks (s : Sys) (db : Db) : (s.on db).tasks = s.tasks := rfl
@[simp] theorem Sys.on_procs (s : Sys) (db : Db) : (s.on db).procs = s.procs := rfl

/-- What a step leads to from another database: to the same but for the database, with the
same write. -/
structure Carried (s t : Sys) (db' : Db) (t' : Sys) : Prop where
  same : t' = t.on t'.db
  db : t.db = s.db ∧ t'.db = db' ∨ ∃ w, t.db = s.db.apply w ∧ t'.db = db'.apply w

variable {db' : Db}

theorem carried_goto (main : MainPc) : Carried s (s.goto main) db' ((s.on db').goto main) :=
  ⟨rfl, .inl ⟨rfl, rfl⟩⟩

theorem carried_write (w : DbWrite) (main : MainPc) :
    Carried s (s.write w main) db' ((s.on db').write w main) :=
  ⟨rfl, .inr ⟨w, rfl, rfl⟩⟩

theorem aggStep_on {pc : AggPc} (hsame : SameRows cfg.scope s.db db')
    (h : aggStep cfg s pc answer = some t) :
    ∃ t', aggStep cfg (s.on db') pc answer = some t' ∧ Carried s t db' t' := by
  unfold aggStep at h ⊢
  simp only [Sys.on_db, hsame.fetchActiveAggProofsCount, hsame.fetchCompletedRanges,
    Db.failedAggRequestsWithCheckpoint, hsame.inStatus] at h ⊢
  split at h
  · cases h
    exact ⟨_, rfl, carried_goto _⟩
  · cases h
    exact ⟨_, rfl, carried_goto _⟩
  · obtain ⟨hcond, h⟩ := Option.ite_none_right_eq_some.mp h
    rw [if_pos hcond]
    split at h <;> cases h <;> exact ⟨_, rfl, carried_goto _⟩
  · cases h
    exact ⟨_, rfl, carried_goto _⟩
  · obtain ⟨hcond, h⟩ := Option.ite_none_right_eq_some.mp h
    cases h
    exact ⟨_, if_pos hcond, carried_goto _⟩
  · obtain ⟨hcond, h⟩ := Option.ite_none_right_eq_some.mp h
    rw [if_pos hcond]
    split at h
    · cases h
      exact ⟨_, rfl, carried_goto _⟩
    · cases h
  · cases h
    exact ⟨_, rfl, carried_goto _⟩
  · cases h
    exact ⟨_, rfl, carried_write _ _⟩
  · cases h

theorem orphanStep_on {pc : OrphanPc} (hsame : SameRows cfg.scope s.db db')
    (h : orphanStep cfg s pc answer = some t) :
    ∃ t', orphanStep cfg (s.on db') pc answer = some t' ∧ Carried s t db' t' := by
  unfold orphanStep at h ⊢
  simp only [Sys.on_db, Sys.on_tasks, hsame.fetchRequestsByStatus] at h ⊢
  split at h
  · obtain ⟨hcond, h⟩ := Option.ite_none_right_eq_some.mp h
    cases h
    exact ⟨_, if_pos hcond, carried_goto _⟩
  · obtain ⟨hcond, h⟩ := Option.ite_none_right_eq_some.mp h
    cases h
    exact ⟨_, if_pos hcond, carried_goto _⟩
  · cases h
    exact ⟨_, rfl, carried_goto _⟩
  · split at h <;> rename_i hhandle <;> cases h
    · exact ⟨_, if_pos hhandle, carried_goto _⟩
    · exact ⟨_, if_neg hhandle, carried_write _ _⟩
  · cases h

theorem provingStep_on {pc : ProvingPc} (hsame : SameRows cfg.scope s.db db')
    (h : provingStep cfg s pc answer = some t) :
    ∃ t', provingStep cfg (s.on db') pc answer = some t' ∧ Carried s t db' t' := by
  unfold provingStep at h ⊢
  simp only [Sys.on_db, hsame.fetchRequestsByStatus] at h ⊢
  split at h
  · obtain ⟨hcond, h⟩ := Option.ite_none_right_eq_some.mp h
    cases h
    exact ⟨_, if_pos hcond, carried_goto _⟩
  · cases h
    exact ⟨_, rfl, carried_goto _⟩
  · obtain ⟨hcond, h⟩ := Option.ite_none_right_eq_some.mp h
    cases h
    exact ⟨_, if_pos hcond, carried_goto _⟩
  · obtain ⟨hcond, h⟩ := Option.ite_none_right_eq_some.mp h
    rw [if_pos hcond]
    unfold processProofRequestStatus at h ⊢
    dsimp only at h ⊢
    split at h <;> rename_i hlate
    · cases h
      exact ⟨_, if_pos hlate, carried_goto _⟩
    · rw [if_neg hlate]
      split at h
      · split at h <;> cases h
        · exact ⟨_, rfl, carried_goto _⟩
        · exact ⟨_, rfl, carried_write _ _⟩
        · exact ⟨_, rfl, carried_write _ _⟩
        · exact ⟨_, rfl, carried_write _ _⟩
      · cases h
        exact ⟨_, rfl, carried_goto _⟩
      · cases h
        exact ⟨_, rfl, carried_goto _⟩
  · cases h

theorem addStep_on {pc : AddPc} (hsame : SameRows cfg.scope s.db db')
    (h : addStep cfg s pc answer = some t) :
    ∃ t', addStep cfg (s.on db') pc answer = some t' ∧ Carried s t db' t' := by
  unfold addStep at h ⊢
  simp only [Sys.on_db, hsame.fetchRangesAfterBlock] at h ⊢
  split at h
  · cases h
    exact ⟨_, rfl, carried_goto _⟩
  · cases h
    exact ⟨_, rfl, carried_goto _⟩
  · cases h
    exact ⟨_, rfl, carried_goto _⟩
  · obtain ⟨hcond, h⟩ := Option.ite_none_right_eq_some.mp h
    rw [if_pos hcond]
    split at h <;> cases h <;> exact ⟨_, rfl, carried_goto _⟩
  · rename_i latestProposed rangesToProve
    cases h
    exact ⟨_, rfl, ⟨rfl, .inr ⟨.insertRequests (rangesToProve.map fun range =>
      newRangeRequest cfg.scope cfg.mode range.1 range.2), rfl, rfl⟩⟩⟩
  · cases h

theorem queueStep_on {pc : QueuePc} (hsame : SameRows cfg.scope s.db db')
    (h : queueStep cfg s pc answer = some t) :
    ∃ t', queueStep cfg (s.on db') pc answer = some t' ∧ Carried s t db' t' := by
  unfold queueStep at h ⊢
  simp only [Sys.on_db, hsame.fetchRequestCount, Db.unrequestedAggProofs, Db.unrequestedRangeProofs,
    hsame.inStatus, hsame.getConsecutiveCompleteRangeProofs] at h ⊢
  split at h
  · cases h
    exact ⟨_, rfl, carried_goto _⟩
  · cases h
    exact ⟨_, rfl, carried_goto _⟩
  · split at h <;> rename_i hproofs
    · cases h
      exact ⟨_, if_pos hproofs, carried_goto _⟩
    · rw [if_neg hproofs]
      split at h <;> rename_i hwitnessGen <;> cases h
      · exact ⟨_, if_pos hwitnessGen, carried_goto _⟩
      · exact ⟨_, if_neg hwitnessGen, carried_goto _⟩
  · cases h
    exact ⟨_, rfl, carried_goto _⟩
  · obtain ⟨hcond, h⟩ := Option.ite_none_right_eq_some.mp h
    rw [if_pos hcond]
    split at h <;> cases h <;> exact ⟨_, rfl, carried_goto _⟩
  · obtain ⟨hcond, h⟩ := Option.ite_none_right_eq_some.mp h
    cases h
    exact ⟨_, if_pos hcond, carried_goto _⟩
  · obtain ⟨hcond, h⟩ := Option.ite_none_right_eq_some.mp h
    rw [if_pos hcond]
    split at h <;> cases h <;> exact ⟨_, rfl, carried_goto _⟩
  · cases h
    exact ⟨_, rfl, ⟨rfl, .inl ⟨rfl, rfl⟩⟩⟩
  · cases h
    exact ⟨_, rfl, ⟨rfl, .inl ⟨rfl, rfl⟩⟩⟩
  · cases h

theorem submitStep_on {pc : SubmitPc} (hsame : SameRows cfg.scope s.db db')
    (h : submitStep cfg s pc answer = some t) :
    ∃ t', submitStep cfg (s.on db') pc answer = some t' ∧ Carried s t db' t' := by
  unfold submitStep at h ⊢
  simp only [Sys.on_db, Db.completedAggProofs, hsame.inStatus] at h ⊢
  split at h
  · cases h
    exact ⟨_, rfl, carried_goto _⟩
  · obtain ⟨hcond, h⟩ := Option.ite_none_right_eq_some.mp h
    cases h
    exact ⟨_, if_pos hcond, carried_goto _⟩
  · obtain ⟨hcond, h⟩ := Option.ite_none_right_eq_some.mp h
    cases h
    exact ⟨_, if_pos hcond, carried_goto _⟩
  · obtain ⟨hcond, h⟩ := Option.ite_none_right_eq_some.mp h
    cases h
    exact ⟨_, if_pos hcond, carried_goto _⟩
  · cases h
    exact ⟨_, rfl, carried_write _ _⟩
  · cases h

/-- The scope of a request of the chain is of the chain. -/
theorem SameRows.scopeOf {db : Db} (h : SameRows cfg.scope db db') (hr : r.OnChain cfg.scope) :
    SameRows (cfg.scopeOf r) db db' := by
  intro i r' hr'
  exact h i r' ⟨hr'.1.trans hr.1, hr'.2.trans hr.2⟩

theorem ongoingStep_on {pc : OngoingPc} (h : ongoingStep s pc answer = some t) :
    ∃ t', ongoingStep (s.on db') pc answer = some t' ∧ Carried s t db' t' := by
  unfold ongoingStep at h ⊢
  simp only [Sys.on_tasks, Sys.on_procs] at h ⊢
  split at h
  · obtain ⟨hcond, h⟩ := Option.ite_none_right_eq_some.mp h
    cases h
    exact ⟨_, if_pos hcond, carried_goto _⟩
  · cases h
    exact ⟨_, rfl, carried_goto _⟩
  · split at h
    · cases h
      exact ⟨_, rfl, carried_goto _⟩
    · split at h <;> cases h
      exact ⟨_, rfl, ⟨rfl, .inl ⟨rfl, rfl⟩⟩⟩
  · cases h

theorem retryStep_on {pc : RetryPc} {caller : RetryCaller} (hsame : SameRows cfg.scope s.db db')
    (hr : r.OnChain cfg.scope) :
    Carried s (retryStep cfg s r caller pc) db' (retryStep cfg (s.on db') r caller pc) := by
  cases pc with
  | setFailed unexecutable => exact carried_write _ _
  | countFailed unexecutable =>
    have hsplits : splits cfg db' r unexecutable = splits cfg s.db r unexecutable := by
      rw [splits, splits, (hsame.scopeOf hr).fetchFailedRequestCountByBlockRange]
    simp only [retryStep, Sys.on_db, hsplits]
    exact carried_goto _
  | insertHalves => exact carried_write _ _

theorem initStep_on (pc : InitPc) :
    Carried s (initStep cfg s pc) db' (initStep cfg (s.on db') pc) := by
  cases pc <;> exact carried_write _ _

theorem mainStep_on (hs : s.Contained cfg) (hsame : SameRows cfg.scope s.db db')
    (h : mainStep cfg s answer = some t) :
    ∃ t', mainStep cfg (s.on db') answer = some t' ∧ Carried s t db' t' := by
  unfold mainStep at h ⊢
  rw [Sys.on_main]
  split at h <;> rename_i hmain
  · cases h
  · cases h
    exact ⟨_, rfl, initStep_on _⟩
  · exact ongoingStep_on h
  · exact orphanStep_on hsame h
  · exact provingStep_on hsame h
  · rename_i request pc caller
    cases h
    have hheld : s.Holds request := .inl (by rw [hmain]; exact List.mem_cons_self)
    exact ⟨_, rfl, retryStep_on hsame (hs request hheld).1⟩
  · exact addStep_on hsame h
  · exact aggStep_on hsame h
  · exact queueStep_on hsame h
  · exact submitStep_on hsame h

theorem stdinReady_on {request : Request} (hsame : SameRows cfg.scope s.db db')
    (hr : request.OnChain cfg.scope) :
    stdinReady cfg db' request = stdinReady cfg s.db request := by
  unfold stdinReady
  rw [(hsame.scopeOf hr).getConsecutiveCompleteRangeProofs]

theorem taskStep_on {task : Task} {taskAct : TaskAct} {db : Db} {pc : TaskPc}
    (hsame : SameRows cfg.scope s.db db') (hr : task.datum.OnChain cfg.scope)
    (h : taskStep cfg s.db task taskAct = some (db, pc)) :
    ∃ db₁, taskStep cfg db' task taskAct = some (db₁, pc) ∧
      (db = s.db ∧ db₁ = db' ∨ ∃ w, db = s.db.apply w ∧ db₁ = db'.apply w) := by
  cases taskAct with
  | generateProofStdin =>
    obtain ⟨hcond, h⟩ := Option.ite_none_right_eq_some.mp h
    cases h
    rw [← stdinReady_on hsame hr] at hcond
    exact ⟨_, if_pos hcond, .inl ⟨rfl, rfl⟩⟩
  | fail =>
    obtain ⟨hcond, h⟩ := Option.ite_none_left_eq_some.mp h
    cases h
    exact ⟨_, if_neg hcond, .inl ⟨rfl, rfl⟩⟩
  | _ =>
    obtain ⟨hcond, h⟩ := Option.ite_none_right_eq_some.mp h
    cases h
    exact ⟨_, if_pos hcond, .inr ⟨_, rfl, rfl⟩⟩

/-- **A step goes the same way** on every database with the same rows of the chain. -/
theorem step_on (hs : s.Contained cfg) (hsame : SameRows cfg.scope s.db db')
    (h : step cfg s act = some t) :
    ∃ t', step cfg (s.on db') act = some t' ∧ Carried s t db' t' := by
  cases act with
  | advance latest =>
    obtain ⟨hle, h⟩ := Option.ite_none_right_eq_some.mp h
    cases h
    exact ⟨_, if_pos hle, ⟨rfl, .inl ⟨rfl, rfl⟩⟩⟩
  | restart =>
    cases h
    exact ⟨_, rfl, ⟨rfl, .inl ⟨rfl, rfl⟩⟩⟩
  | task key taskAct =>
    obtain ⟨task, htask, h⟩ := Option.bind_eq_some_iff.mp h
    obtain ⟨⟨db, pc⟩, hstep, h⟩ := Option.bind_eq_some_iff.mp h
    cases h
    have hheld : s.Holds task.datum := .inr (.inl ⟨key, task, htask, rfl⟩)
    obtain ⟨db₁, hstep', hdb⟩ := taskStep_on hsame (hs _ hheld).1 hstep
    refine ⟨{ s with
      db := db₁, procs := Function.update s.procs key (some ⟨task.datum, pc⟩) }, ?_, ⟨rfl, hdb⟩⟩
    simp only [step, Sys.on_procs, htask, Sys.on_db, Option.bind_some, hstep', Option.bind_eq_bind]
    rfl
  | start f =>
    simp only [step, Sys.on_main] at h ⊢
    split at h <;> cases h
    exact ⟨_, rfl, carried_goto _⟩
  | fail =>
    obtain ⟨main, hmain, rfl⟩ := Option.map_eq_some_iff.mp h
    exact ⟨_, Option.map_eq_some_iff.mpr ⟨main, hmain, rfl⟩, carried_goto main⟩
  | call answer => exact mainStep_on hs hsame h

/-! ## Proposers together -/

section Cluster
variable {ι : Type}

/-- Proposers on one database.  The database in a proposer's own state is not used. -/
structure Cluster (ι : Type) where
  db : Db
  sys : ι → Sys

/-- A proposer, with the common database. -/
def Cluster.at (c : Cluster ι) (i : ι) : Sys := (c.sys i).on c.db

/-- All proposers start, on a database with whatever rows. -/
def Cluster.start (db : Db) (latest : ι → Nat) : Cluster ι :=
  ⟨db, fun i => Sys.start db (latest i)⟩

/-- A proposer has taken a step. -/
def Cluster.put [DecidableEq ι] (c : Cluster ι) (i : ι) (t : Sys) : Cluster ι :=
  ⟨t.db, Function.update c.sys i t⟩

/-- A step of one of the proposers. -/
def Cluster.step [DecidableEq ι] (cfgs : ι → Config) (c : Cluster ι) (l : ι × Act) :
    Option (Cluster ι) :=
  (Validity.step (cfgs l.1) (c.at l.1) l.2).map (c.put l.1)

/-- No two proposers work for the same chains. -/
def ChainsApart (cfgs : ι → Config) : Prop :=
  ∀ i j, i ≠ j → ¬ ((cfgs i).scope.l1ChainId = (cfgs j).scope.l1ChainId ∧
    (cfgs i).scope.l2ChainId = (cfgs j).scope.l2ChainId)

variable {cfgs : ι → Config} {c c' : Cluster ι} {i j : ι}

theorem ChainsApart.foreign (h : ChainsApart cfgs) (hij : i ≠ j) (hr : r.OnChain (cfgs j).scope) :
    ¬ r.OnChain (cfgs i).scope :=
  fun hr' => h i j hij ⟨hr'.1.symm.trans hr.1, hr'.2.symm.trans hr.2⟩

theorem clusterContained_start (db : Db) (latest : ι → Nat) (j : ι) :
    ((Cluster.start db latest).at j).Contained (cfgs j) := by
  rintro r (hr | ⟨key, task, hr, -⟩ | ⟨id, key, hr⟩) <;> cases hr

variable [DecidableEq ι]

theorem Cluster.at_self (c : Cluster ι) (i : ι) (t : Sys) : (c.put i t).at i = t := by
  show (Function.update c.sys i t i).on t.db = t
  rw [Function.update_self]
  rfl

theorem Cluster.at_other (c : Cluster ι) (t : Sys) (hij : j ≠ i) :
    (c.put i t).at j = (c.at j).on t.db := by
  show (Function.update c.sys i t j).on t.db = _
  rw [Function.update_of_ne hij]
  rfl

/-- **Every proposer stays on its chain**, whoever takes a step. -/
theorem clusterContained_step (hc : ∀ j, (c.at j).Contained (cfgs j)) {l : ι × Act}
    (h : stepOf (Cluster.step cfgs) c l c') : ∀ j, (c'.at j).Contained (cfgs j) := by
  obtain ⟨t, ht, rfl⟩ := Option.map_eq_some_iff.mp h
  intro j
  by_cases hj : j = l.1
  · rw [hj, Cluster.at_self]
    exact contained_step (hc l.1) ht
  · rw [Cluster.at_other c t hj]
    intro r hr
    obtain ⟨hchain, hchained⟩ := hc j r hr
    have hbefore : (c.at l.1).db.Chained (cfgs j).scope r.id := hchained
    have hafter : t.db.Chained (cfgs j).scope r.id := hbefore.step ht
    exact ⟨hchain, hafter⟩

/-- Another's step leaves the rows of the chain. -/
theorem sameRows_step (hchains : ChainsApart cfgs) (hc : ∀ j, (c.at j).Contained (cfgs j))
    {l : ι × Act} (hj : l.1 ≠ j) (h : stepOf (Cluster.step cfgs) c l c') :
    SameRows (cfgs j).scope c.db c'.db := by
  obtain ⟨t, ht, rfl⟩ := Option.map_eq_some_iff.mp h
  intro id r hr
  exact rows_of_foreign (hc l.1) ht (hchains.foreign hj hr)

/-- **Proposers of different chains do not interfere.**  In every run of proposers that share a
database, in whatever order they take their steps: while the others take steps, none of the
rows of a proposer's chain is changed, deleted or inserted, every query for rows of its chain
answers the same, and every step it could take it can still take, with the same outcome but for
the rows of the others. -/
theorem chains_do_not_interfere {db : Db} {latest : ι → Nat} {trace others : List (ι × Act)}
    (hchains : ChainsApart cfgs)
    (hrun : Run (stepOf (Cluster.step cfgs)) (Cluster.start db latest) trace c)
    (hrun' : Run (stepOf (Cluster.step cfgs)) c others c') (hothers : ∀ l ∈ others, l.1 ≠ j) :
    (∀ id r, r.OnChain (cfgs j).scope → (c'.db.rows id = some r ↔ c.db.rows id = some r)) ∧
      (∀ p : Request → Bool, (∀ r, p r = true → r.OnChain (cfgs j).scope) →
        c'.db.select p = c.db.select p) ∧
      ∀ act t, Validity.step (cfgs j) (c.at j) act = some t →
        ∃ t', Validity.step (cfgs j) (c'.at j) act = some t' ∧ Carried (c.at j) t c'.db t' := by
  have hc : ∀ i, (c.at i).Contained (cfgs i) :=
    hrun.invariant (I := fun c => ∀ i, (c.at i).Contained (cfgs i))
      (fun _ _ _ ha => clusterContained_step ha) (clusterContained_start db latest)
  have hsame : SameRows (cfgs j).scope c.db c'.db ∧ c'.sys j = c.sys j := by
    have hinv : (∀ l ∈ others, l.1 ≠ j) → (∀ i, (c'.at i).Contained (cfgs i)) ∧
        SameRows (cfgs j).scope c.db c'.db ∧ c'.sys j = c.sys j := by
      refine hrun'.traceInvariant (I := fun tr c' => (∀ l ∈ tr, l.1 ≠ j) →
        (∀ i, (c'.at i).Contained (cfgs i)) ∧ SameRows (cfgs j).scope c.db c'.db ∧
          c'.sys j = c.sys j) ?_ fun _ => ⟨hc, fun _ _ _ => Iff.rfl, rfl⟩
      intro tr a l b ih hstep hothers
      obtain ⟨ha, hsame, hsys⟩ := ih fun l hl => hothers l (List.mem_append_left _ hl)
      have hne : l.1 ≠ j := hothers l (by simp)
      refine ⟨clusterContained_step ha hstep, fun id r hr => ?_, ?_⟩
      · exact (sameRows_step hchains ha hne hstep id r hr).trans (hsame id r hr)
      · obtain ⟨t, -, rfl⟩ := Option.map_eq_some_iff.mp hstep
        rw [← hsys]
        exact Function.update_of_ne hne.symm _ _
    exact (hinv hothers).2
  refine ⟨hsame.1, fun p hp => Db.select_congr fun id r hr => hsame.1 id r (hp r hr), ?_⟩
  intro act t ht
  have hat : c'.at j = (c.at j).on c'.db := by
    rw [Cluster.at, hsame.2]
    rfl
  rw [hat]
  exact step_on (hc j) hsame.1 ht

end Cluster

/-! ### Two chains -/

/-- The proposer of the examples, and one for another L2 chain. -/
def twoChains (other : Bool) : Config :=
  if other then { exampleConfig with scope := { exampleConfig.scope with l2ChainId := 13 } }
  else exampleConfig

/-- The range request of the other chain, the second row. -/
def otherRequest : Request :=
  { newRangeRequest (twoChains true).scope .real 0 100 with id := 2 }

def twoStart : Cluster Bool := Cluster.start .empty fun _ => 0

/-- The first proposer adds its range and spawns a task. -/
def firstChainSteps : List (Bool × Act) := firstSelection.map fun act => (false, act)

/-- The other one adds its range and selects it, after it cleaned up. -/
def otherChainSteps : List (Bool × Act) :=
  [.call .ok, .call .ok,
    .start .addNewRanges, .call .ok, .call (.finalizedBlock (some 100)), .call (.ranges []),
    .call .ok,
    .start .requestQueuedProofs, .call .ok, .call .ok, .call .ok, .call .ok, .call (.row none),
    .call (.row (some otherRequest)), .call .ok, .call .ok].map fun act => (true, act)

/-- The range of the first chain is as it was. -/
theorem chains_do_not_interfere_example :
    (endOf (Cluster.step twoChains) (endOf (Cluster.step twoChains) twoStart firstChainSteps)
        otherChainSteps).db.rows 1 = some exampleRequest := by
  have hfirst : Run (stepOf (Cluster.step twoChains)) twoStart firstChainSteps
      (endOf (Cluster.step twoChains) twoStart firstChainSteps) := run_endOf (by decide +kernel)
  have hother : Run (stepOf (Cluster.step twoChains))
      (endOf (Cluster.step twoChains) twoStart firstChainSteps) otherChainSteps
      (endOf (Cluster.step twoChains) (endOf (Cluster.step twoChains) twoStart firstChainSteps)
        otherChainSteps) := run_endOf (by decide +kernel)
  have hchains : ChainsApart twoChains := by
    intro i j hij
    cases i <;> cases j <;> first | exact absurd rfl hij | decide
  obtain ⟨hrows, -⟩ := chains_do_not_interfere (j := false) hchains hfirst hother (by decide)
  exact (hrows 1 exampleRequest ⟨rfl, rfl⟩).mpr (by decide +kernel)

end OpSuccinct.Validity
