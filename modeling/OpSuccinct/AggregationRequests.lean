import OpSuccinct.ProposerLimits
import OpSuccinct.AggregationChain

/-! # One aggregation request for a start block

`create_aggregation_proofs` inserts a request only after it found no active one that starts at
the latest proposed block, and makes many calls in between.  None of them, and no task that
moves on meanwhile, makes a request active that was not (`activeAggs_of_not_insert`).

So in every run of fresh selections no step makes a second request active for a start block,
whichever one it is, and whether the requests fail, are retried or are taken up again after a
restart (`one_active_aggregation`).
-/
namespace OpSuccinct.Validity

open Fleets Transition

/-- What `fetch_active_agg_proofs_count` counts. -/
def Request.isActiveAgg (scope : Scope) (startBlock : Int) (r : Request) : Bool :=
  r.InScope scope && r.aggregationVkeyHash == some scope.commitments.aggVkeyHash &&
    r.status.isActive && r.reqType == .aggregation && r.startBlock == startBlock

/-- The active aggregation requests from the block. -/
def Db.activeAggs (db : Db) (scope : Scope) (startBlock : Int) : Set Nat :=
  {id | ∃ r, db.rows id = some r ∧ r.isActiveAgg scope startBlock = true}

theorem Db.encard_activeAggs (db : Db) (scope : Scope) (startBlock : Int) :
    (db.activeAggs scope startBlock).encard = db.fetchActiveAggProofsCount scope startBlock :=
  encard_select db _

variable {cfg : Config} {s t : Sys} {act : Act} {answer : Answer} {startBlock : Int}

/-- A row that is one after a move was one before. -/
theorem isActiveAgg_of_move {waiting : Prop} {r r' : Request} (hsame : SameInputs r r')
    (hvkey : r'.aggregationVkeyHash = r.aggregationVkeyHash)
    (hmove : StatusMove waiting r.status r'.status)
    (h : r'.isActiveAgg cfg.scope startBlock = true) :
    r.isActiveAgg cfg.scope startBlock = true := by
  simp only [Request.isActiveAgg, Bool.and_eq_true, decide_eq_true_eq, beq_iff_eq] at h ⊢
  obtain ⟨⟨⟨⟨hscope, hhash⟩, hactive⟩, htype⟩, hstart⟩ := h
  exact ⟨⟨⟨⟨hsame.toSameRequest.inScope_iff.mp hscope, hvkey ▸ hhash⟩, hmove.isActive hactive⟩,
    hsame.reqType ▸ htype⟩, hsame.startBlock ▸ hstart⟩

/-- `create_aggregation_proofs` is about to insert a request from the block. -/
def Sys.InsertsAgg (s : Sys) (startBlock : Int) : Prop :=
  ∃ (latestProposed : Nat) (highestProven number : Int) (hash : Bytes32),
    s.main = .agg (.insert latestProposed highestProven number hash) ∧ startBlock = latestProposed

/-- The only aggregation request that a step inserts is that of `create_aggregation_proofs`. -/
theorem insertsAgg_of_inserted {r : Request} (hr : r ∈ inserted cfg s act)
    (hagg : r.reqType = .aggregation) :
    (∃ answer, act = .call answer) ∧ s.InsertsAgg r.startBlock := by
  unfold inserted at hr
  split at hr
  · refine ⟨⟨_, rfl⟩, ?_⟩
    unfold MainPc.inserted at hr
    split at hr
    · -- Ranges.
      obtain ⟨range, -, rfl⟩ := List.mem_map.mp hr
      cases hagg
    · -- The halves of a range.
      rcases List.mem_cons.mp hr with rfl | hr
      · cases hagg
      · rw [List.mem_singleton.mp hr] at hagg
        cases hagg
    · rename_i latestProposed highestProven number hash hmain
      rw [List.mem_singleton.mp hr]
      exact ⟨latestProposed, highestProven, number, hash, hmain, rfl⟩
    · cases hr
  · cases hr

theorem nextId_of_insertsAgg (h : step cfg s (.call answer) = some t)
    (hinserts : s.InsertsAgg startBlock) : t.db.nextId = s.db.nextId + 1 := by
  obtain ⟨latestProposed, highestProven, number, hash, hmain, -⟩ := hinserts
  simp only [step, mainStep, hmain] at h
  cases answer <;> cases h
  rfl

/-- **An active aggregation request after a step** was one before, or was just inserted. -/
theorem activeAggs_step (hs : s.Ok cfg) (h : step cfg s act = some t) {id : Nat}
    (hid : id ∈ t.db.activeAggs cfg.scope startBlock) :
    id ∈ s.db.activeAggs cfg.scope startBlock ∨
      (∃ answer, act = .call answer) ∧ s.InsertsAgg startBlock ∧ id = s.db.nextId := by
  obtain ⟨r', hr', hactive⟩ := hid
  rcases row_of_step hs h hr' with ⟨r, hmem, -, hnext, rfl⟩ | ⟨r, hr, hsame, hvkey, hmove⟩
  · have hparts := hactive
    simp only [Request.isActiveAgg, Bool.and_eq_true, beq_iff_eq] at hparts
    obtain ⟨⟨answer, rfl⟩, hinserts⟩ := insertsAgg_of_inserted hmem hparts.1.2
    have hlt := Db.id_lt hr'
    rw [nextId_of_insertsAgg h hinserts] at hlt
    exact .inr ⟨⟨answer, rfl⟩, hparts.2 ▸ hinserts, by omega⟩
  · exact .inl ⟨r, hr, isActiveAgg_of_move hsame hvkey hmove hactive⟩

theorem activeAggs_of_not_insert (hs : s.Ok cfg) (h : step cfg s act = some t)
    (hnot : (∃ answer, act = .call answer) → ¬ s.InsertsAgg startBlock) :
    t.db.activeAggs cfg.scope startBlock ⊆ s.db.activeAggs cfg.scope startBlock := by
  intro id hid
  rcases activeAggs_step hs h hid with hold | ⟨hcall, hinserts, -⟩
  · exact hold
  · exact absurd hinserts (hnot hcall)

/-! ## From the count to the insertion -/

/-- The block for which `create_aggregation_proofs` has found no active request. -/
def AggPc.planned : AggPc → Option Nat
  | .latest | .activeCount _ => none
  | .completedRanges latestProposed | .submissionInterval latestProposed _
  | .existing latestProposed _ | .checkpoint latestProposed _
  | .insert latestProposed _ _ _ => some latestProposed

/-- There is no active request from the planned block. -/
def Sys.PlanHolds (s : Sys) (cfg : Config) : Prop :=
  ∀ pc latestProposed, s.main = .agg pc → pc.planned = some latestProposed →
    s.db.activeAggs cfg.scope latestProposed = ∅

theorem planHolds_start (db : Db) (latest : Nat) : (Sys.start db latest).PlanHolds cfg :=
  fun _ _ hmain => nomatch hmain

/-- A call of `create_aggregation_proofs` that plans comes after one that did, or is the
count. -/
theorem planned_of_aggStep {pc pc' : AggPc} {latestProposed : Nat}
    (h : aggStep cfg s pc answer = some t) (hmain' : t.main = .agg pc')
    (hplanned : pc'.planned = some latestProposed) :
    t.db = s.db ∧ (pc.planned = some latestProposed ∨
      s.db.fetchActiveAggProofsCount cfg.scope latestProposed = 0) := by
  unfold aggStep at h
  split at h
  · cases h
    cases hmain'
    cases hplanned
  · cases h
    split at hmain'
    · cases hmain'
    · rename_i hcount
      cases hmain'
      cases hplanned
      exact ⟨rfl, .inr (by omega)⟩
  · obtain ⟨-, h⟩ := Option.ite_none_right_eq_some.mp h
    split at h <;> cases h <;> cases hmain'
    exact ⟨rfl, .inl hplanned⟩
  · cases h
    split at hmain' <;> cases hmain'
    exact ⟨rfl, .inl hplanned⟩
  · obtain ⟨-, h⟩ := Option.ite_none_right_eq_some.mp h
    cases h
    cases hmain'
    exact ⟨rfl, .inl hplanned⟩
  · obtain ⟨-, h⟩ := Option.ite_none_right_eq_some.mp h
    split at h <;> cases h
    cases hmain'
    exact ⟨rfl, .inl hplanned⟩
  · cases h
    cases hmain'
    exact ⟨rfl, .inl hplanned⟩
  · cases h
    cases hmain'
  · cases h

theorem planHolds_step (hok : s.Ok cfg) (hs : s.PlanHolds cfg) (h : step cfg s act = some t) :
    t.PlanHolds cfg := by
  intro pc latestProposed hmain' hplanned
  rcases agg_step h hmain' with ⟨hmain, hcall⟩ | ⟨pc', answer, rfl, hmain, hagg⟩ | ⟨-, rfl⟩
  · -- Another part of the proposer moved.
    have hsub : t.db.activeAggs cfg.scope latestProposed ⊆
        s.db.activeAggs cfg.scope latestProposed :=
      activeAggs_of_not_insert hok h fun ⟨answer, hact⟩ => absurd hact (hcall answer)
    rw [hs pc latestProposed hmain hplanned] at hsub
    exact Set.subset_empty_iff.mp hsub
  · obtain ⟨hdb, hbefore⟩ := planned_of_aggStep hagg hmain' hplanned
    rw [hdb]
    rcases hbefore with hbefore | hcount
    · exact hs pc' latestProposed hmain hbefore
    · rw [← Set.encard_eq_zero, Db.encard_activeAggs, hcount]
      rfl
  · cases hplanned

/-! ## Every run -/

/-- A step makes no second request active. -/
theorem encard_activeAggs_step (hok : s.Ok cfg) (hs : s.PlanHolds cfg)
    (h : step cfg s act = some t) {n : Nat} (hn : 1 ≤ n)
    (hle : (s.db.activeAggs cfg.scope startBlock).encard ≤ n) :
    (t.db.activeAggs cfg.scope startBlock).encard ≤ n := by
  by_cases hinsert : (∃ answer, act = .call answer) ∧ s.InsertsAgg startBlock
  · obtain ⟨-, latestProposed, highestProven, number, hash, hmain, rfl⟩ := hinsert
    have hnone := hs _ latestProposed hmain rfl
    have hone : t.db.activeAggs cfg.scope latestProposed ⊆ {s.db.nextId} := by
      intro id hid
      rcases activeAggs_step hok h hid with hold | ⟨-, -, rfl⟩
      · rw [hnone] at hold
        cases hold
      · rfl
    calc (t.db.activeAggs cfg.scope latestProposed).encard
        ≤ ({s.db.nextId} : Set Nat).encard := Set.encard_mono hone
      _ = (1 : Nat) := Set.encard_singleton _
      _ ≤ n := Nat.cast_le.mpr hn
  · refine (Set.encard_mono ?_).trans hle
    exact activeAggs_of_not_insert hok h fun hcall hinserts => hinsert ⟨hcall, hinserts⟩

/-- **One aggregation request for a start block.**  In every run of fresh selections, whatever
the interleaving of the tasks with the main loop, whatever fails and whenever the process is
restarted, there is at most one active aggregation request of the configuration that starts at
a block, whichever block it is, unless there were more of them at the start. -/
theorem one_active_aggregation {db : Db} {latest : Nat} {trace : List Act} (startBlock : Int)
    (hrun : Run (stepOf (freshStep cfg)) (Sys.start db latest) trace s) :
    s.db.fetchActiveAggProofsCount cfg.scope startBlock ≤
      max (db.fetchActiveAggProofsCount cfg.scope startBlock) 1 := by
  let most := max (db.fetchActiveAggProofsCount cfg.scope startBlock) 1
  have hstart : (db.activeAggs cfg.scope startBlock).encard ≤ most := by
    rw [Db.encard_activeAggs]
    exact Nat.cast_le.mpr (le_max_left _ _)
  have hinv : s.Ok cfg ∧ s.PlanHolds cfg ∧
      (s.db.activeAggs cfg.scope startBlock).encard ≤ most := by
    refine hrun.invariant (I := fun u : Sys => u.Ok cfg ∧ u.PlanHolds cfg ∧
        (u.db.activeAggs cfg.scope startBlock).encard ≤ most) ?_
      ⟨Sys.ok_start db latest, planHolds_start db latest, hstart⟩
    rintro a act b ⟨hok, hplan, hle⟩ hfresh
    have hstep : step cfg a act = some b := (Option.ite_none_right_eq_some.mp hfresh).2
    exact ⟨freshStep_ok hok hfresh, planHolds_step hok hplan hstep,
      encard_activeAggs_step hok hplan hstep (le_max_right _ _) hle⟩
  have hle := hinv.2.2
  rw [Db.encard_activeAggs] at hle
  exact Nat.cast_le.mp hle

/-! ### Blocks 0 to 100 are completed -/

/-- The request from 0 to 100 is inserted, and the next turn finds it. -/
def aggregationInserted : List Act :=
  [.call .ok, .call .ok,
    .start .createAggregationProofs, .call .ok, .call .ok, .call (.ranges [(0, 100)]),
    .call (.submissionInterval 100), .call (.row none), .call (.checkpointed 9 5), .call .ok,
    .start .createAggregationProofs, .call .ok, .call .ok]

theorem one_active_aggregation_example :
    (endOf (freshStep exampleConfig) (exampleAgg 0 100)
        aggregationInserted).db.fetchActiveAggProofsCount exampleConfig.scope 0 = 1 ∧
      (endOf (freshStep exampleConfig) (exampleAgg 0 100)
        aggregationInserted).db.fetchActiveAggProofsCount exampleConfig.scope 0 ≤ 1 := by
  have hrun : Run (stepOf (freshStep exampleConfig)) (exampleAgg 0 100) aggregationInserted
      (endOf (freshStep exampleConfig) (exampleAgg 0 100) aggregationInserted) :=
    run_endOf (by decide +kernel)
  exact ⟨by decide +kernel, (one_active_aggregation 0 hrun).trans (by decide +kernel)⟩

end OpSuccinct.Validity
