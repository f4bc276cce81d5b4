import Mathlib.Data.Set.Card
import OpSuccinct.RequestMoves

/-! # The limits of `request_queued_proofs`

`request_queued_proofs` counts the requests in `WitnessGeneration`, in `Execution` and in
`Prove`, one query after the other, while its tasks move requests from one of these statuses to
the next.  The queries are in the order of the statuses, so a request that moves in between is
counted twice, and never missed: what is at a stage or before it only gets less
(`underway_step`), until the main loop spawns a task.

So in every run whose counts begin when no task waits for its first status write, neither the
requests in flight nor those in witness generation get more than the configured limits, unless
there were more at the start (`in_flight_limited`).
-/
namespace OpSuccinct.Validity

open Fleets Transition

/-- How far a request that is worked on is. -/
def RequestStatus.stage : RequestStatus → Option Nat
  | .witnessGeneration => some 1
  | .execution => some 2
  | .prove => some 3
  | _ => none

theorem RequestStatus.stage_pos {status : RequestStatus} {k : Nat} (h : status.stage = some k) :
    0 < k := by
  cases status <;> cases h <;> decide

theorem RequestStatus.stage_inj {status status' : RequestStatus} {k : Nat}
    (h : status.stage = some k) (h' : status'.stage = some k) : status = status' := by
  cases status <;> cases h <;> cases status' <;> first | rfl | cases h'

theorem RequestStatus.isActive_of_stage {status : RequestStatus} {k : Nat}
    (h : status.stage = some k) : status.isActive = true := by
  cases status <;> first | rfl | cases h

/-- A move never goes back to an earlier stage. -/
theorem StatusMove.stage {waiting : Prop} {status status' : RequestStatus}
    (h : StatusMove waiting status status') {k : Nat} (hk : status'.stage = some k) :
    waiting ∨ ∃ j ≤ k, status.stage = some j := by
  cases h with
  | stay => exact .inr ⟨k, le_refl k, hk⟩
  | generate hwaiting => exact .inl hwaiting
  | execute =>
    cases hk
    exact .inr ⟨1, by decide, rfl⟩
  | request =>
    cases hk
    exact .inr ⟨1, by decide, rfl⟩
  | complete => cases hk
  | drop hnot =>
    rw [RequestStatus.isActive_of_stage hk] at hnot
    cases hnot

/-- The requests at the stage or an earlier one, with those whose task has yet to start. -/
def Sys.Underway (s : Sys) (cfg : Config) (k : Nat) : Set Nat :=
  {id | s.Waiting id ∨
    ∃ r j, s.db.rows id = some r ∧ r.InScope cfg.scope ∧ r.status.stage = some j ∧ j ≤ k}

/-- No task waits for its first status write. -/
def Sys.Settled (s : Sys) : Prop := ∀ id, ¬ s.Waiting id

variable {cfg : Config} {s t : Sys} {act : Act} {answer : Answer} {k : Nat}

/-! ## What a query counts -/

/-- As many requests have a property as a query for it returns. -/
theorem encard_select (db : Db) (p : Request → Bool) :
    {id | ∃ r, db.rows id = some r ∧ p r = true}.encard = (db.select p).length := by
  have hids : {id | ∃ r, db.rows id = some r ∧ p r = true} =
      (((db.select p).map (·.id)).toFinset : Set Nat) := by
    ext id
    simp only [Set.mem_ofPred_eq, List.coe_toFinset, List.mem_map]
    constructor
    · rintro ⟨r, hr, hp⟩
      have hid := db.id_eq id r hr
      exact ⟨r, Db.mem_select.mpr ⟨hid.symm ▸ hr, hp⟩, hid⟩
    · rintro ⟨r, hmem, rfl⟩
      exact ⟨r, Db.mem_select.mp hmem⟩
  rw [hids, Set.encard_coe_eq_coe_finsetCard, List.toFinset_card_of_nodup (db.nodup_select p),
    List.length_map]

/-- **One count more**: up to the next stage there are at most as many requests as up to this
one and the query of that stage's status together. -/
theorem encard_underway_succ (cfg : Config) (s : Sys) (status : RequestStatus)
    (hstage : status.stage = some (k + 1)) :
    (s.Underway cfg (k + 1)).encard ≤
      (s.Underway cfg k).encard + s.db.fetchRequestCount cfg.scope status := by
  have hsplit : s.Underway cfg (k + 1) ⊆
      s.Underway cfg k ∪
        {id | ∃ r, s.db.rows id = some r ∧ (r.InScope cfg.scope && r.status == status) = true} := by
    rintro id (hwaiting | ⟨r, j, hr, hscope, hj, hle⟩)
    · exact .inl (.inl hwaiting)
    · by_cases hlast : j = k + 1
      · rw [hlast] at hj
        have hstatus := RequestStatus.stage_inj hj hstage
        exact .inr ⟨r, hr, by simp [hscope, hstatus]⟩
      · exact .inl (.inr ⟨r, j, hr, hscope, hj, by omega⟩)
  refine (Set.encard_mono hsplit).trans ((Set.encard_union_le _ _).trans ?_)
  exact add_le_add le_rfl (encard_select s.db _).le

/-- Nothing is before the first stage once all tasks have started. -/
theorem Sys.Settled.underway_zero (hs : s.Settled) : s.Underway cfg 0 = ∅ := by
  refine Set.eq_empty_of_forall_notMem fun id hid => ?_
  rcases hid with hwaiting | ⟨r, j, -, -, hj, hle⟩
  · exact hs id hwaiting
  · have hpos := RequestStatus.stage_pos hj
    omega

/-! ## What steps do -/

/-- **What is underway after a step** was underway before, or its task was just spawned. -/
theorem underway_step (hs : s.Ok cfg) (h : step cfg s act = some t) {id : Nat}
    (hid : id ∈ t.Underway cfg k) :
    id ∈ s.Underway cfg k ∨
      ∃ answer request, act = .call answer ∧ s.main = .queue (.spawn request) ∧
        request.id = id := by
  rcases hid with hwaiting | ⟨r', j, hr', hscope', hj, hle⟩
  · exact (waiting_of_step h hwaiting).imp_left .inl
  · rcases row_of_step hs h hr' with ⟨r, -, hstatus, -, rfl⟩ | ⟨r, hr, hsame, -, hmove⟩
    · -- An inserted request is at no stage.
      have hj : r.status.stage = some j := hj
      rw [hstatus] at hj
      cases hj
    · have hscope := hsame.toSameRequest.inScope_iff.mp hscope'
      rcases hmove.stage hj with hwaiting | ⟨i, hi, hstage⟩
      · exact .inl (.inl hwaiting)
      · exact .inl (.inr ⟨r, i, hr, hscope, hstage, by omega⟩)

/-- Nothing new is underway, and no task waits that did not wait before. -/
structure Shrinks (cfg : Config) (s t : Sys) : Prop where
  underway : ∀ k, t.Underway cfg k ⊆ s.Underway cfg k
  waiting : ∀ id, t.Waiting id → s.Waiting id

theorem Shrinks.settled (h : Shrinks cfg s t) (hs : s.Settled) : t.Settled :=
  fun id hwaiting => hs id (h.waiting id hwaiting)

theorem Shrinks.encard_le (h : Shrinks cfg s t) {n : ℕ∞} (hn : (s.Underway cfg k).encard ≤ n) :
    (t.Underway cfg k).encard ≤ n :=
  (Set.encard_mono (h.underway k)).trans hn

/-- A step that spawns no task. -/
theorem shrinks_of_not_spawn (hs : s.Ok cfg) (h : step cfg s act = some t)
    (hspawn : ∀ answer request, act = .call answer → s.main ≠ .queue (.spawn request)) :
    Shrinks cfg s t where
  underway := by
    intro k id hid
    rcases underway_step hs h hid with hold | ⟨answer, request, hact, hmain, -⟩
    · exact hold
    · exact absurd hmain (hspawn answer request hact)
  waiting := by
    intro id hwaiting
    rcases waiting_of_step h hwaiting with hold | ⟨answer, request, hact, hmain, -⟩
    · exact hold
    · exact absurd hmain (hspawn answer request hact)

/-- A step that spawns a task adds one request. -/
theorem encard_le_of_spawn (hs : s.Ok cfg) (h : step cfg s act = some t) {request : Request}
    (hmain : s.main = .queue (.spawn request)) {n : Nat}
    (hn : (s.Underway cfg k).encard ≤ n) : (t.Underway cfg k).encard ≤ (n + 1 : Nat) := by
  have hone : t.Underway cfg k ⊆ insert request.id (s.Underway cfg k) := by
    intro id hid
    rcases underway_step hs h hid with hold | ⟨_, request', -, hmain', rfl⟩
    · exact .inr hold
    · cases hmain.symm.trans hmain'
      exact .inl rfl
  calc (t.Underway cfg k).encard
      ≤ (insert request.id (s.Underway cfg k)).encard := Set.encard_mono hone
    _ ≤ (s.Underway cfg k).encard + 1 := Set.encard_insert_le _ _
    _ ≤ (n : ℕ∞) + 1 := add_le_add hn le_rfl
    _ = (n + 1 : Nat) := by push_cast; rfl

/-! ## What the counts say -/

/-- Fewer than the limit are underway. -/
def Sys.Below (s : Sys) (cfg : Config) (k : Nat) (limit : Int) : Prop :=
  ∃ n : Nat, (n : Int) < limit ∧ (s.Underway cfg k).encard ≤ n

/-- What `request_queued_proofs` knows from its counts. -/
def Counted (cfg : Config) (s : Sys) : QueuePc → Prop
  | .witnessGenCount | .insert _ _ => True
  | .executionCount witnessGenCount =>
    s.Settled ∧ (s.Underway cfg 1).encard ≤ witnessGenCount
  | .proveCount witnessGenCount executionCount =>
    s.Settled ∧ (s.Underway cfg 1).encard ≤ witnessGenCount ∧
      (s.Underway cfg 2).encard ≤ (witnessGenCount + executionCount : Nat)
  | .latest | .aggProof _ | .validate _ _ | .rangeProof _ | .spawn _ =>
    s.Settled ∧ s.Below cfg 1 (asI64 cfg.maxConcurrentWitnessGen) ∧
      s.Below cfg 3 (asI64 cfg.maxConcurrentProofRequests)

theorem Sys.Below.shrinks {limit : Int} (hs : s.Below cfg k limit) (h : Shrinks cfg s t) :
    t.Below cfg k limit := by
  obtain ⟨n, hlt, hn⟩ := hs
  exact ⟨n, hlt, h.encard_le hn⟩

/-- What it knows stays true while other requests move on. -/
theorem Counted.shrinks {pc : QueuePc} (hs : Counted cfg s pc) (h : Shrinks cfg s t) :
    Counted cfg t pc := by
  cases pc with
  | witnessGenCount | insert => trivial
  | executionCount wg => exact ⟨h.settled hs.1, h.encard_le hs.2⟩
  | proveCount wg ex => exact ⟨h.settled hs.1, h.encard_le hs.2.1, h.encard_le hs.2.2⟩
  | _ => exact ⟨h.settled hs.1, hs.2.1.shrinks h, hs.2.2.shrinks h⟩

/-- **The counts.**  A turn that begins when all tasks have started knows what its queries
say of all three stages. -/
theorem counted_of_queueStep {pc pc' : QueuePc} (hs : Counted cfg s pc)
    (hbegin : pc = .witnessGenCount → s.Settled) (h : queueStep cfg s pc answer = some t)
    (hmain' : t.main = .queue pc') (hshrinks : Shrinks cfg s t) : Counted cfg t pc' := by
  unfold queueStep at h
  split at h
  · cases h
    cases hmain'
    have hsettled := hbegin rfl
    refine ⟨hsettled, ?_⟩
    have hsucc := encard_underway_succ cfg s .witnessGeneration rfl
    rw [zero_add, hsettled.underway_zero, Set.encard_empty, zero_add] at hsucc
    exact hsucc
  · cases h
    cases hmain'
    obtain ⟨hsettled, hwg⟩ := hs
    refine ⟨hsettled, hwg, ?_⟩
    have hsucc := encard_underway_succ cfg s .execution rfl
    push_cast
    exact hsucc.trans (add_le_add hwg le_rfl)
  · rename_i wg ex
    obtain ⟨hsettled, hwg, hex⟩ := hs
    dsimp only at h
    split at h
    · cases h
      cases hmain'
    · rename_i hproofs
      split at h
      · cases h
        cases hmain'
      · rename_i hwitness
        cases h
        cases hmain'
        refine ⟨hsettled, ⟨wg, by omega, hwg⟩,
          ⟨wg + ex + s.db.fetchRequestCount cfg.scope .prove, ?_, ?_⟩⟩
        · push_cast
          omega
        · have hsucc := encard_underway_succ cfg s .prove rfl
          push_cast at hex ⊢
          exact hsucc.trans (add_le_add hex le_rfl)
  · cases h
    cases hmain'
    exact Counted.shrinks hs hshrinks
  · obtain ⟨-, h⟩ := Option.ite_none_right_eq_some.mp h
    split at h <;> cases h <;> cases hmain' <;> exact Counted.shrinks hs hshrinks
  · obtain ⟨-, h⟩ := Option.ite_none_right_eq_some.mp h
    cases h
    split at hmain' <;> cases hmain' <;> exact Counted.shrinks hs hshrinks
  · obtain ⟨-, h⟩ := Option.ite_none_right_eq_some.mp h
    split at h <;> cases h <;> cases hmain'
    exact Counted.shrinks hs hshrinks
  · cases h
    cases hmain'
    trivial
  · cases h
    cases hmain'
  · cases h

/-! ## Every run -/

theorem queue_of_fn {main : MainPc} (h : main.fn = some .requestQueuedProofs) :
    ∃ pc, main = .queue pc := by
  cases main with
  | queue pc => exact ⟨pc, rfl⟩
  | retry request pc caller => cases caller <;> cases h
  | _ => cases h

/-- `request_queued_proofs` gets to a point by its own calls. -/
theorem queue_step {pc : QueuePc} (h : step cfg s act = some t) (hmain' : t.main = .queue pc) :
    s.main = .queue pc ∧ (∀ answer, act ≠ .call answer) ∨
      (∃ pc' answer, act = .call answer ∧ s.main = .queue pc' ∧
        queueStep cfg s pc' answer = some t) ∨
      pc = .witnessGenCount := by
  have hfn : t.main.fn = some .requestQueuedProofs := by rw [hmain']; rfl
  rcases step_fn h hfn with ⟨hsame, hcall⟩ | ⟨answer, rfl, hs, hcall⟩ | ⟨-, hentry⟩ |
    ⟨completed, -, hongoing⟩
  · exact .inl ⟨hsame.symm.trans hmain', hcall⟩
  · obtain ⟨pc', hpc⟩ := queue_of_fn hs
    rw [mainStep, hpc] at hcall
    exact .inr (.inl ⟨pc', answer, rfl, hpc, hcall⟩)
  · cases hmain'.symm.trans hentry
    exact .inr (.inr rfl)
  · cases hmain'.symm.trans hongoing

theorem main_of_spawn {request : Request} (h : queueStep cfg s (.spawn request) answer = some t) :
    ∃ key, t.main = .queue (.insert key request) := by
  cases answer <;> cases h
  exact ⟨s.nextKey, rfl⟩

/-- The first count is made only when no task waits for its first status write. -/
def beginsSettled (s : Sys) : Act → Bool
  | .call _ =>
    match s.main with
    | .queue .witnessGenCount =>
      (List.range s.nextKey).all fun key => (s.procs key).all fun task => task.state != .spawned
    | _ => true
  | _ => true

/-- A step, with counts that begin when all tasks have started. -/
def settledStep (cfg : Config) (s : Sys) (act : Act) : Option Sys :=
  if beginsSettled s act then step cfg s act else none

theorem settled_of_beginsSettled (hs : s.Ok cfg) (hmain : s.main = .queue .witnessGenCount)
    (h : beginsSettled s (.call answer) = true) : s.Settled := by
  simp only [beginsSettled, hmain] at h
  rintro id ⟨key, task, htask, -, hstate⟩
  have hkey : key < s.nextKey := hs.1.tracked.fresh key task htask
  have hall := List.all_eq_true.mp h key (List.mem_range.mpr hkey)
  rw [htask, Option.all_some, hstate] at hall
  cases hall

/-- No waiting task's request is selected once all tasks have started. -/
theorem Sys.Settled.selectsFresh (hs : s.Settled) : selectsFresh s act = true := by
  unfold Validity.selectsFresh
  cases selected s act with
  | none => rfl
  | some request =>
    rw [Option.all_some, Bool.not_eq_true', Bool.eq_false_iff]
    intro hwaiting
    obtain ⟨key, -, hkey⟩ := List.any_eq_true.mp hwaiting
    cases htask : s.procs key with
    | none =>
      rw [htask] at hkey
      cases hkey
    | some task =>
      rw [htask, Option.any_some, Bool.and_eq_true, beq_iff_eq, beq_iff_eq] at hkey
      exact hs request.id ⟨key, task, htask, hkey⟩

/-- **Within the limits.** -/
structure Limited (cfg : Config) (witnessGenMax proofMax : Nat) (s : Sys) : Prop where
  ok : s.Ok cfg
  counted : ∀ pc, s.main = .queue pc → Counted cfg s pc
  witnessGen : (s.Underway cfg 1).encard ≤ witnessGenMax
  inFlight : (s.Underway cfg 3).encard ≤ proofMax

variable {witnessGenMax proofMax : Nat}

theorem Limited.selectsFresh (hs : Limited cfg witnessGenMax proofMax s) :
    selectsFresh s act = true := by
  by_cases hsettled : s.Settled
  · exact hsettled.selectsFresh
  · -- Selections are made only after the counts.
    unfold Validity.selectsFresh selected
    split
    · split
      · rename_i hmain
        exact absurd (hs.counted _ hmain).1 hsettled
      · rename_i hmain
        exact absurd (hs.counted _ hmain).1 hsettled
      · rfl
    · rfl

theorem Limited.counted_of_step (hs : Limited cfg witnessGenMax proofMax s)
    (hbegin : beginsSettled s act = true) (h : step cfg s act = some t) {pc : QueuePc}
    (hmain' : t.main = .queue pc) : Counted cfg t pc := by
  rcases queue_step h hmain' with ⟨hmain, hcall⟩ | ⟨pc', answer, rfl, hmain, hqueue⟩ | rfl
  · have hspawn : ∀ answer request, act = .call answer → s.main ≠ .queue (.spawn request) :=
      fun answer _ hact => absurd hact (hcall answer)
    exact (hs.counted pc hmain).shrinks (shrinks_of_not_spawn hs.ok h hspawn)
  · by_cases hspawn : ∃ request, pc' = .spawn request
    · obtain ⟨request, rfl⟩ := hspawn
      obtain ⟨key, hinsert⟩ := main_of_spawn hqueue
      cases hmain'.symm.trans hinsert
      trivial
    · refine counted_of_queueStep (hs.counted pc' hmain) ?_ hqueue hmain'
        (shrinks_of_not_spawn hs.ok h ?_)
      · rintro rfl
        exact settled_of_beginsSettled hs.ok hmain hbegin
      · intro _ request _ hmain''
        cases hmain.symm.trans hmain''
        exact hspawn ⟨request, rfl⟩
  · trivial

/-- **A step** stays within the limits: a task is spawned only when there is room. -/
theorem Limited.step (hs : Limited cfg witnessGenMax proofMax s)
    (hwitnessGen : asI64 cfg.maxConcurrentWitnessGen ≤ witnessGenMax)
    (hproof : asI64 cfg.maxConcurrentProofRequests ≤ proofMax)
    (h : stepOf (settledStep cfg) s act t) : Limited cfg witnessGenMax proofMax t := by
  obtain ⟨hbegin, h⟩ := Option.ite_none_right_eq_some.mp h
  have hok : t.Ok cfg := freshStep_ok hs.ok (show freshStep cfg s act = some t by
    rw [freshStep, if_pos hs.selectsFresh, h])
  have hcounted : ∀ pc, t.main = .queue pc → Counted cfg t pc :=
    fun _ => hs.counted_of_step hbegin h
  by_cases hspawn : ∃ answer request, act = .call answer ∧ s.main = .queue (.spawn request)
  · obtain ⟨_, request, -, hmain⟩ := hspawn
    obtain ⟨-, ⟨n, hn, hle⟩, ⟨m, hm, hle'⟩⟩ := hs.counted _ hmain
    refine ⟨hok, hcounted, (encard_le_of_spawn hs.ok h hmain hle).trans ?_,
      (encard_le_of_spawn hs.ok h hmain hle').trans ?_⟩
    · exact_mod_cast (by omega : n + 1 ≤ witnessGenMax)
    · exact_mod_cast (by omega : m + 1 ≤ proofMax)
  · have hshrinks : Shrinks cfg s t := shrinks_of_not_spawn hs.ok h
      fun answer request hact hmain => hspawn ⟨answer, request, hact, hmain⟩
    exact ⟨hok, hcounted, hshrinks.encard_le hs.witnessGen, hshrinks.encard_le hs.inFlight⟩

/-- The requests in flight, over the three statuses. -/
def Db.inFlightCount (db : Db) (scope : Scope) : Nat :=
  (db.select fun r => r.InScope scope && r.status.inFlight).length

theorem inFlight_of_stage {status : RequestStatus} (h : status.stage = some k) :
    status.inFlight = true := by
  cases status <;> first | rfl | cases h

theorem stage_of_inFlight {status : RequestStatus} (h : status.inFlight = true) :
    ∃ k ≤ 3, status.stage = some k := by
  cases status <;> first | exact ⟨_, by decide, rfl⟩ | cases h

/-- The task of a live worker is for a request that is underway. -/
theorem Sys.Ok.underway_of_live (hs : s.Ok cfg) {key : Nat} {task : Task}
    (htask : s.procs key = some task) (hlive : task.state.Live) :
    task.datum.id ∈ s.Underway cfg 3 := by
  have hhandle := hs.1.tracked.live key task htask hlive
  obtain ⟨hscope, r, hr, hsame, hallows⟩ := hs.1.rows _ key task.datum task.state hhandle htask
  have hrscope := hsame.inScope_iff.mpr hscope
  have hat {k : Nat} (hk : k ≤ 3) (hstage : r.status.stage = some k) :
      task.datum.id ∈ s.Underway cfg 3 := .inr ⟨r, k, hr, hrscope, hstage, hk⟩
  cases hstate : task.state with
  | spawned => exact .inl ⟨key, task, htask, rfl, hstate⟩
  | fetching _ | witnessed =>
    rw [hstate] at hallows
    have hstatus : r.status = .witnessGeneration := hallows
    exact hat (k := 1) (by decide) (by rw [hstatus]; rfl)
  | executing =>
    rw [hstate] at hallows
    have hstatus : r.status = .execution := hallows
    exact hat (k := 2) (by decide) (by rw [hstatus]; rfl)
  | finished ok =>
    rw [hstate] at hlive
    cases hlive

/-- Live tasks work on different requests, so there are no more of them than of these. -/
theorem Sys.Ok.card_live_le (hs : s.Ok cfg) {keys : Finset Nat}
    (hkeys : ∀ key ∈ keys, ∃ task, s.procs key = some task ∧ task.state.Live) :
    (keys.card : ℕ∞) ≤ (s.Underway cfg 3).encard := by
  let requestOf (key : Nat) : Nat := ((s.procs key).map fun task => task.datum.id).getD 0
  have hinj : Set.InjOn requestOf keys := by
    intro key hkey key' hkey' heq
    obtain ⟨task, htask, hlive⟩ := hkeys key hkey
    obtain ⟨task', htask', hlive'⟩ := hkeys key' hkey'
    simp only [requestOf, htask, htask', Option.map_some, Option.getD_some] at heq
    exact hs.oneTaskPerRequest key key' task task' htask htask' hlive hlive' heq
  have hsub : requestOf '' keys ⊆ s.Underway cfg 3 := by
    rintro _ ⟨key, hkey, rfl⟩
    obtain ⟨task, htask, hlive⟩ := hkeys key hkey
    simp only [requestOf, htask, Option.map_some, Option.getD_some]
    exact hs.underway_of_live htask hlive
  calc (keys.card : ℕ∞)
      = (keys : Set Nat).encard := (Set.encard_coe_eq_coe_finsetCard keys).symm
    _ = (requestOf '' keys).encard := hinj.encard_image.symm
    _ ≤ (s.Underway cfg 3).encard := Set.encard_mono hsub

/-- The requests in flight are underway. -/
theorem inFlightCount_le (s : Sys) :
    (s.db.inFlightCount cfg.scope : ℕ∞) ≤ (s.Underway cfg 3).encard := by
  rw [Db.inFlightCount, ← encard_select]
  refine Set.encard_mono ?_
  rintro id ⟨r, hr, hp⟩
  simp only [Bool.and_eq_true, decide_eq_true_eq] at hp
  obtain ⟨k, hk, hstage⟩ := stage_of_inFlight hp.2
  exact .inr ⟨r, k, hr, hp.1, hstage, hk⟩

theorem witnessGenCount_le (s : Sys) :
    (s.db.fetchRequestCount cfg.scope .witnessGeneration : ℕ∞) ≤ (s.Underway cfg 1).encard := by
  rw [Db.fetchRequestCount, ← encard_select]
  refine Set.encard_mono ?_
  rintro id ⟨r, hr, hp⟩
  simp only [Bool.and_eq_true, decide_eq_true_eq, beq_iff_eq] at hp
  exact .inr ⟨r, 1, hr, hp.1, by rw [hp.2]; rfl, le_refl 1⟩

theorem limited_start {db : Db} {latest : Nat} (hwitnessGen :
    db.fetchRequestCount cfg.scope .witnessGeneration ≤ witnessGenMax)
    (hproof : db.inFlightCount cfg.scope ≤ proofMax) :
    Limited cfg witnessGenMax proofMax (Sys.start db latest) where
  ok := Sys.ok_start db latest
  counted := fun _ hmain => nomatch hmain
  witnessGen := by
    have hsucc := encard_underway_succ cfg (Sys.start db latest) .witnessGeneration rfl
    have hsettled : (Sys.start db latest).Settled := fun _ ⟨_, _, htask, _⟩ => nomatch htask
    rw [zero_add, hsettled.underway_zero, Set.encard_empty, zero_add] at hsucc
    exact hsucc.trans (by exact_mod_cast hwitnessGen)
  inFlight := by
    have hrows : (Sys.start db latest).Underway cfg 3 ⊆
        {id | ∃ r, db.rows id = some r ∧ (r.InScope cfg.scope && r.status.inFlight) = true} := by
      rintro id (⟨_, _, htask, -⟩ | ⟨r, j, hr, hscope, hj, -⟩)
      · cases htask
      · exact ⟨r, hr, by simp [hscope, inFlight_of_stage hj]⟩
    refine (Set.encard_mono hrows).trans ?_
    rw [encard_select]
    exact_mod_cast hproof

/-- **The limits of `request_queued_proofs`.**  In every run whose counts begin when no task
waits for its first status write, whatever the tasks do while the counts are made and whenever
the process is restarted: the requests in flight, the requests in witness generation and the
tasks that run are never more than the configured limits, or than they were at the start. -/
theorem in_flight_limited {db : Db} {latest : Nat} {trace : List Act}
    (hrun : Run (stepOf (settledStep cfg)) (Sys.start db latest) trace s) :
    (s.db.inFlightCount cfg.scope : Int) ≤
        max (db.inFlightCount cfg.scope : Int) (asI64 cfg.maxConcurrentProofRequests) ∧
      (s.db.fetchRequestCount cfg.scope .witnessGeneration : Int) ≤
        max (db.fetchRequestCount cfg.scope .witnessGeneration : Int)
          (asI64 cfg.maxConcurrentWitnessGen) ∧
      ∀ keys : Finset Nat, (∀ key ∈ keys, ∃ task, s.procs key = some task ∧ task.state.Live) →
        (keys.card : Int) ≤
          max (db.inFlightCount cfg.scope : Int) (asI64 cfg.maxConcurrentProofRequests) := by
  let witnessGenMax :=
    max (db.fetchRequestCount cfg.scope .witnessGeneration)
      (asI64 cfg.maxConcurrentWitnessGen).toNat
  let proofMax := max (db.inFlightCount cfg.scope) (asI64 cfg.maxConcurrentProofRequests).toNat
  have hlimited : Limited cfg witnessGenMax proofMax s :=
    hrun.invariant (fun _ _ _ ha => ha.step (by omega) (by omega))
      (limited_start (le_max_left _ _) (le_max_left _ _))
  have hflight := (inFlightCount_le s).trans hlimited.inFlight
  have hwitness := (witnessGenCount_le s).trans hlimited.witnessGen
  refine ⟨?_, ?_, fun keys hkeys => ?_⟩
  · have hle : s.db.inFlightCount cfg.scope ≤ proofMax := by exact_mod_cast hflight
    omega
  · have hle : s.db.fetchRequestCount cfg.scope .witnessGeneration ≤ witnessGenMax := by
      exact_mod_cast hwitness
    omega
  · have hle : keys.card ≤ proofMax := by
      exact_mod_cast (hlimited.ok.card_live_le hkeys).trans hlimited.inFlight
    omega

/-! ### One task at a time -/

def singleTaskConfig : Config :=
  { exampleConfig with maxConcurrentWitnessGen := 1, maxConcurrentProofRequests := 1 }

/-- The first range is to be proved, its task has started, and another range was added. -/
def singleTaskRun : List Act :=
  firstSelection ++
    [.task 0 .startWitnessGeneration,
      .start .addNewRanges, .call .ok, .call (.finalizedBlock (some 200)),
      .call (.ranges [(0, 100)]), .call .ok,
      .start .requestQueuedProofs, .call .ok, .call .ok, .call .ok]

/-- The second range has to wait. -/
theorem in_flight_limited_example :
    (endOf (settledStep singleTaskConfig) exampleStart singleTaskRun).db.inFlightCount
        singleTaskConfig.scope = 1 ∧
      ((endOf (settledStep singleTaskConfig) exampleStart singleTaskRun).db.inFlightCount
        singleTaskConfig.scope : Int) ≤ 1 := by
  have hrun : Run (stepOf (settledStep singleTaskConfig)) exampleStart singleTaskRun
      (endOf (settledStep singleTaskConfig) exampleStart singleTaskRun) :=
    run_endOf (by decide +kernel)
  exact ⟨by decide +kernel, (in_flight_limited hrun).1.trans (by decide +kernel)⟩

end OpSuccinct.Validity
