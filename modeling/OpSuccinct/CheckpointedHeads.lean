import OpSuccinct.AggregationChain
import OpSuccinct.CompletedRequests
import OpSuccinct.RelayedProofs

/-! # L1 heads and checkpoints

The range proofs an aggregation proof is made from commit L1 heads, and the program looks
for all of them below the checkpointed L1 block.  When `create_aggregation_proofs` fetches
the block to checkpoint, every range that is completed has a head that was final before;
completed ranges stay, and a checkpoint is passed on only to a request for the same
blocks.  So whenever the ranges are read again for the request, those that were there
when its block was fetched have their heads below it (`Covered`).

Two things let other ranges in: at the fetch the completed ranges may leave a hole after
the latest proposed block, and what is read again is not validated.  Without them
the heads precede the checkpoint in every run (`heads_precede_checkpoint`); with a hole
a range that is proved later has a later head (`head_after_checkpoint`).
-/
namespace OpSuccinct.Proving

open AggregationHost Fleets OutputOracle Transition Intervals
open Validity (Request Sys asI64 IsByStart newAggRequest newRangeRequest validateAggregationRequest
  selectsFresh SameInputs Writes)

variable {Header Proof Vk : Type} {W : World Header Proof Vk} {s t u : State Proof Vk}
  {request : Request} {rows : List Request} {act : Validity.Act} {label : Label}

/-! ## Heads -/

/-- The L1 head of a range proof has at most the number. -/
def Job.HeadBy (n : Nat) : Job Proof Vk → Prop
  | .range _ _ l1Head => l1Head ≤ n
  | .aggregation _ _ => True

theorem Job.HeadBy.mono {job : Job Proof Vk} {m n : Nat} (h : job.HeadBy m) (hle : m ≤ n) :
    job.HeadBy n := by
  cases job with
  | range startBlock endBlock l1Head => exact Nat.le_trans h hle
  | aggregation rows stdin => trivial

/-- **L1 heads are final**, and what is final is not above the latest block. -/
structure Heads (s : State Proof Vk) : Prop where
  finalized : s.l1Finalized ≤ s.l1Latest
  jobs : ∀ key job, s.jobs key = some job → job.HeadBy s.l1Finalized
  requested : ∀ proofId job, s.requested proofId = some job → job.HeadBy s.l1Finalized
  proofs : ∀ made ∈ s.proofs, made.job.HeadBy s.l1Finalized

theorem headBy_stdinJob {l1Head : Nat} {job : Job Proof Vk}
    (h : stdinJob W s request rows l1Head = some job) : job.HeadBy s.l1Finalized := by
  unfold stdinJob at h
  split at h
  · obtain ⟨hfinal, h⟩ := Option.ite_none_right_eq_some.mp h
    cases h
    exact hfinal
  · obtain ⟨-, h⟩ := Option.ite_none_right_eq_some.mp h
    split at h
    · cases h
      trivial
    · cases h

theorem Heads.make {id : Nat} {proof : Bytes} {job : Job Proof Vk} (hs : Heads s)
    (hjob : job.HeadBy s.l1Finalized) : Heads (s.make id proof job) := by
  refine ⟨hs.finalized, hs.jobs, hs.requested, fun made hmem => ?_⟩
  rcases List.mem_append.mp hmem with hmem | hmem
  · exact hs.proofs made hmem
  · obtain rfl := List.mem_singleton.mp hmem
    exact hjob

theorem heads_around (hs : Heads s) (h : Around W s act u) : Heads u := by
  cases h with
  | @stdin key task rows l1Head job htask hjob =>
    refine ⟨hs.finalized, fun key' job' hjob' => ?_, hs.requested, hs.proofs⟩
    rcases update_eq_some hjob' with ⟨-, hnew⟩ | ⟨-, hold⟩
    · exact Option.some.inj hnew ▸ headBy_stdinJob hjob
    · exact hs.jobs key' job' hold
  | complete htask hjob hproves => exact hs.make (hs.jobs _ _ hjob)
  | @prove key proofId job hjob hnone =>
    refine ⟨hs.finalized, hs.jobs, fun proofId' job' hjob' => ?_, hs.proofs⟩
    rcases update_eq_some hjob' with ⟨-, hnew⟩ | ⟨-, hold⟩
    · exact Option.some.inj hnew ▸ hs.jobs key job hjob
    · exact hs.requested proofId' job' hold
  | store hmain hproof hid hjob hproves => exact hs.make (hs.requested _ _ hjob)
  | restart _ | checkpoint _ _ | start _ | plain _ =>
    exact ⟨hs.finalized, hs.jobs, hs.requested, hs.proofs⟩

theorem heads_aside (hs : Heads s) (h : Aside W s label t) : Heads t := by
  cases h with
  | l1 hlatest hfinalized hle hhead =>
    exact ⟨hle, fun key job hjob => (hs.jobs key job hjob).mono hfinalized,
      fun proofId job hjob => (hs.requested proofId job hjob).mono hfinalized,
      fun made hmem => (hs.proofs made hmem).mono hfinalized⟩
  | oracle _ | getL1Header _ => exact ⟨hs.finalized, hs.jobs, hs.requested, hs.proofs⟩

/-- The row stores a proof of its blocks, with an L1 head of at most the number. -/
def HeadAtMost (W : World Header Proof Vk) (n : Nat) (r : Request) : Prop :=
  ∃ proof l1Head, r.proof = some proof ∧
    (Job.range r.startBlock r.endBlock l1Head : Job Proof Vk).proves W proof = true ∧ l1Head ≤ n

/-- The head of a completed range is final. -/
theorem headAtMost_of_complete (hs : Recorded W s) (hheads : Heads s) {r : Request}
    (hrow : s.sys.db.rows r.id = some r) (htype : r.reqType = .range)
    (hstatus : r.status = .complete) : HeadAtMost W s.l1Finalized r := by
  obtain ⟨made, hmem, l1Head, hproof, hjob⟩ := hs.range_proof hrow htype hstatus
  obtain ⟨hproves, -⟩ := hs.made made hmem
  have hfinal := hheads.proofs made hmem
  rw [hjob] at hproves hfinal
  exact ⟨made.proof, l1Head, hproof, hproves, hfinal⟩

/-! ## Ranges with their heads -/

/-- A completed range whose L1 head has at most the number. -/
def HeadedRange (W : World Header Proof Vk) (s : State Proof Vk) (n : Nat) (range : Int × Int) :
    Prop :=
  ∃ r, s.sys.db.rows r.id = some r ∧ r.InScope s.cfg.scope ∧ r.reqType = .range ∧
    r.status = .complete ∧ r.blocks = range ∧ HeadAtMost W n r

/-- The ranges with heads of at most the number lead from the one block to the other. -/
def HeadedChain (W : World Header Proof Vk) (s : State Proof Vk) (n : Nat) : Int → Int → Prop :=
  Chained (HeadedRange W s n)

/-- Completed range requests keep their rows. -/
structure KeepsRanges (s t : State Proof Vk) : Prop where
  scope : t.cfg.scope = s.cfg.scope
  rows : ∀ r, s.sys.db.rows r.id = some r → r.reqType = .range → r.status = .complete →
    t.sys.db.rows r.id = some r

theorem HeadedChain.keeps {n : Nat} {startBlock endBlock : Int}
    (h : HeadedChain W s n startBlock endBlock) (hkeeps : KeepsRanges s t) :
    HeadedChain W t n startBlock endBlock := by
  refine Chained.imp h ?_
  rintro range ⟨r, hrow, hscope, htype, hstatus, hblocks, hhead⟩
  exact ⟨r, hkeeps.rows r hrow htype hstatus, hkeeps.scope ▸ hscope, htype, hstatus, hblocks, hhead⟩

theorem keepsRanges_lift (hcontrol : s.sys.Controlled s.cfg.toConfig) (ha : Around W s act u)
    (h : lift u act = some t) : KeepsRanges s t := by
  obtain ⟨sys, hstep, rfl⟩ := lift_some h
  rw [ha.keeps.1] at hstep
  have hscope : u.cfg.scope = s.cfg.scope := by cases ha <;> rfl
  refine ⟨hscope, fun r hrow htype hstatus => ?_⟩
  rcases ha.cfg_eq with rfl | hcfg
  · cases hstep
    exact hrow
  · rw [hcfg] at hstep
    exact Validity.complete_stays hcontrol.ok hcontrol.orphans hcontrol.submits hstep hrow htype
      hstatus

theorem controlled_lift (hcontrol : s.sys.Controlled s.cfg.toConfig)
    (hfresh : selectsFresh s.sys act = true) (ha : Around W s act u) (h : lift u act = some t) :
    t.sys.Controlled t.cfg.toConfig := by
  obtain ⟨sys, hstep, rfl⟩ := lift_some h
  rw [ha.keeps.1] at hstep
  rcases ha.cfg_eq with rfl | hcfg
  · exact Validity.controlled_restart hcontrol hstep
  · rw [hcfg] at hstep
    show sys.Controlled u.cfg.toConfig
    rw [hcfg]
    exact Validity.controlled_step hcontrol hfresh hstep

/-! ## What every request covers -/

/-- Where `create_aggregation_proofs` has the L1 header. -/
def HeaderFor (W : World Header Proof Vk) (s : State Proof Vk) (n : Nat) : Validity.AggPc → Prop
  | .checkpoint latestProposed highestProven => HeadedChain W s n latestProposed highestProven
  | .insert _ _ _ _ => True
  | _ => False

/-- **Checkpoints cover**: for every aggregation request, and for one that is about to be
inserted, completed ranges with heads of at most the checkpointed number lead from its
start block to its end block. -/
structure Covered (W : World Header Proof Vk) (s : State Proof Vk) : Prop where
  recorded : Recorded W s
  control : s.sys.Controlled s.cfg.toConfig
  heads : Heads s
  requests : ∀ r, s.sys.Version r → r.reqType = .aggregation →
    ∃ number, r.checkpointedL1BlockNumber = some number ∧
      HeadedChain W s (asU64 number) r.startBlock r.endBlock
  inserting : ∀ latestProposed highestProven number hash,
    s.sys.main = .agg (.insert latestProposed highestProven number hash) →
    HeadedChain W s (asU64 number) latestProposed highestProven
  header : ∀ n pc, s.l1Header = some n → s.sys.main = .agg pc → HeaderFor W s n pc

/-- `validate_aggregation_request` accepts a request for the blocks. -/
def completedReach (cfg : Validity.Config) (db : Validity.Db) (startBlock endBlock : Int) : Bool :=
  validateAggregationRequest (db.getConsecutiveCompleteRangeProofs cfg.scope startBlock endBlock)
    (newAggRequest cfg.scope cfg.mode startBlock endBlock 0 0 cfg.proverAddress)

/-- **The condition on a step**: a block to checkpoint is fetched when the completed ranges
reach from the latest proposed block to the end of the request, and no waiting task's
request is selected. -/
def permits (s : State Proof Vk) : Label → Bool
  | .getL1Header =>
    match s.sys.main with
    | .agg (.checkpoint latestProposed highestProven) =>
      completedReach s.cfg.toConfig s.sys.db latestProposed highestProven
    | _ => true
  | .proposer act => selectsFresh s.sys act
  | _ => true

def permittedStep (W : World Header Proof Vk) (s : State Proof Vk) (label : Label) :
    Option (State Proof Vk) :=
  if permits s label then step W s label else none

theorem fresh_of_permits (hpermits : permits s label = true) (hacts : label.ActsAs act) :
    selectsFresh s.sys act = true := by
  cases label with
  | proposer act' => exact hacts ▸ hpermits
  | restart cfg => cases hacts; rfl
  | checkpoint env =>
    obtain ⟨number, hash, rfl⟩ := hacts
    rfl
  | generateProofStdin key rows l1Head => cases hacts; rfl
  | oracle _ _ | l1 _ _ | getL1Header => cases hacts

/-- Ranges that validate are a chain of their blocks. -/
theorem chained_of_validates (h : validateAggregationRequest rows request = true) :
    Chained (· ∈ rows.map Request.blocks) request.startBlock request.endBlock ∧
      (rows.map Request.blocks).IsChain fun x y => x.2 = y.1 := by
  obtain ⟨first, last, hfirst, hlast, hstart, hend, htouch⟩ :=
    Validity.validateAggregationRequest_iff.mp h
  have htouch : (rows.map Request.blocks).IsChain fun x y => x.2 = y.1 :=
    (List.isChain_map _).mpr (htouch.imp fun _ _ hboth => hboth.1)
  have hfirst' : (rows.map Request.blocks).head? = some first.blocks := by
    rw [List.head?_map, hfirst]
    rfl
  have hlast' : (rows.map Request.blocks).getLast? = some last.blocks := by
    rw [List.getLast?_map, hlast]
    rfl
  rw [← hstart, ← hend]
  exact ⟨chained_of_isChain htouch hfirst' hlast', htouch⟩

/-- **At the fetch** the completed ranges have heads that are final. -/
theorem headedChain_of_reach (hs : Covered W s) {startBlock endBlock : Int}
    (hreach : completedReach s.cfg.toConfig s.sys.db startBlock endBlock = true) :
    HeadedChain W s s.l1Latest startBlock endBlock := by
  refine Chained.imp (chained_of_validates hreach).1 ?_
  rintro range hrange
  obtain ⟨r, hr, rfl⟩ := List.mem_map.mp hrange
  obtain ⟨hrow, hscope, htype, hstatus⟩ :=
    Validity.mem_inStatus ((List.mem_insertionSort _).mp hr)
  obtain ⟨proof, l1Head, hproof, hproves, hle⟩ :=
    headAtMost_of_complete hs.recorded hs.heads hrow htype hstatus
  exact ⟨r, hrow, hscope, htype, hstatus, rfl, proof, l1Head, hproof, hproves,
    Nat.le_trans hle hs.heads.finalized⟩

theorem HeaderFor.keeps {n : Nat} {pc : Validity.AggPc} (h : HeaderFor W s n pc)
    (hkeeps : KeepsRanges s t) : HeaderFor W t n pc := by
  cases pc with
  | checkpoint latestProposed highestProven => exact HeadedChain.keeps h hkeeps
  | insert _ _ _ _ => trivial
  | _ => exact h

/-! ## Steps -/

section Step
variable (hs : Covered W s) (ha : Around W s act u)
include hs ha

/-- An aggregation request that is inserted is covered. -/
theorem Covered.requests_step {cfg : Validity.Config} {sys : Sys}
    (hkeeps : KeepsRanges s { u with sys }) (hstep : Validity.step cfg s.sys act = some sys)
    {r' : Request} (hr' : sys.Version r') (htype : r'.reqType = .aggregation) :
    ∃ number, r'.checkpointedL1BlockNumber = some number ∧
      HeadedChain W { u with sys } (asU64 number) r'.startBlock r'.endBlock := by
  have hold {r : Request} (hr : s.sys.Version r) (hsame : SameInputs r r') :
      ∃ number, r'.checkpointedL1BlockNumber = some number ∧
        HeadedChain W { u with sys } (asU64 number) r'.startBlock r'.endBlock := by
    obtain ⟨number, hnumber, hchain⟩ := hs.requests r hr (hsame.reqType.symm.trans htype)
    rw [hsame.startBlock, hsame.endBlock, hsame.checkpointedL1BlockNumber]
    exact ⟨number, hnumber, hchain.keeps hkeeps⟩
  rcases Validity.version_step hstep hr' with hversion | ⟨w, r, -, hrow, rfl⟩ |
    ⟨requests, r, hw, hmem, -, -, heq⟩
  · exact hold hversion (SameInputs.refl r')
  · exact hold (.inl hrow) (Validity.sameInputs_onRow r w)
  · rw [heq] at htype ⊢
    cases hw with
    | insertHalves _ => rcases List.mem_pair.mp hmem with rfl | rfl <;> cases htype
    | insertRanges _ =>
      obtain ⟨range, -, rfl⟩ := List.mem_map.mp hmem
      cases htype
    | insertAgg hmain =>
      obtain rfl := List.mem_singleton.mp hmem
      exact ⟨_, rfl, (hs.inserting _ _ _ _ hmain).keeps hkeeps⟩

/-- The checkpoint of a request that is about to be inserted is that of a failed one for the
same blocks, or of the block that was fetched for it. -/
theorem Covered.inserting_step {cfg : Validity.Config} {sys : Sys}
    (hkeeps : KeepsRanges s { u with sys }) (hstep : Validity.step cfg s.sys act = some sys)
    {latestProposed : Nat} {highestProven number : Int} {hash : Bytes32}
    (hmain : sys.main = .agg (.insert latestProposed highestProven number hash)) :
    HeadedChain W { u with sys } (asU64 number) latestProposed highestProven := by
  rcases Validity.insertAgg_step hstep hmain with ⟨hold, -⟩ |
    ⟨r, hrow, htype, hstart, hend, hnumber, -⟩ | ⟨hcheckpoint, rfl⟩
  · exact (hs.inserting _ _ _ _ hold).keeps hkeeps
  · obtain ⟨number', hnumber', hchain⟩ := hs.requests r (.inl hrow) htype
    cases hnumber.symm.trans hnumber'
    rw [hstart, hend] at hchain
    exact hchain.keeps hkeeps
  · cases ha with
    | @checkpoint n env oracle hn hcall =>
      have hle := hs.recorded.header n hn
      have hlatest := hs.recorded.latest
      have hhead := W.l1.head_lt
      rw [asU64_asI64 (by omega)]
      exact HeadedChain.keeps (hs.header n _ hn hcheckpoint) hkeeps
    | plain hplain => exact absurd hplain fun h => h

/-- The header that was fetched is for the request in the function. -/
theorem Covered.header_step {cfg : Validity.Config} {sys : Sys}
    (hkeeps : KeepsRanges s { u with sys }) (hstep : Validity.step cfg s.sys act = some sys)
    {n : Nat} {pc : Validity.AggPc} (hn : u.l1Header = some n) (hmain : sys.main = .agg pc) :
    HeaderFor W { u with sys } n pc := by
  obtain ⟨hn, hstart⟩ : s.l1Header = some n ∧ ∀ f, act ≠ .start f := by
    cases ha with
    | start f => cases hn
    | plain hplain => exact ⟨hn, fun f heq => by rw [heq] at hplain; exact hplain⟩
    | _ => exact ⟨hn, fun f heq => by cases heq⟩
  rcases Validity.agg_step hstep hmain with ⟨hold, -⟩ | ⟨pc', answer, rfl, hold, hcall⟩ | ⟨rfl, -⟩
  · exact (hs.header n pc hn hold).keeps hkeeps
  · have hbefore := hs.header n pc' hn hold
    cases pc' with
    | checkpoint latestProposed highestProven =>
      cases answer with
      | checkpointed number hash =>
        cases hcall
        cases hmain
        trivial
      | _ => cases hcall
    | insert latestProposed highestProven number hash =>
      cases answer with
      | ok =>
        cases hcall
        cases hmain
      | _ => cases hcall
    | _ => cases hbefore
  · exact absurd rfl (hstart _)

theorem covered_lift (hfresh : selectsFresh s.sys act = true) (h : lift u act = some t) :
    Covered W t := by
  have hkeeps := keepsRanges_lift hs.control ha h
  have hcontrol := controlled_lift hs.control hfresh ha h
  have hrecorded := recorded_lift hs.recorded ha h
  obtain ⟨hfinalized, hjobs, hrequested, hproofs⟩ := heads_around hs.heads ha
  obtain ⟨sys, hstep, rfl⟩ := lift_some h
  rw [ha.keeps.1] at hstep
  exact ⟨hrecorded, hcontrol, ⟨hfinalized, hjobs, hrequested, hproofs⟩,
    fun r hr htype => hs.requests_step ha hkeeps hstep hr htype,
    fun _ _ _ _ hmain => hs.inserting_step ha hkeeps hstep hmain,
    fun n pc hn hmain => hs.header_step ha hkeeps hstep hn hmain⟩

end Step

theorem covered_aside (hs : Covered W s) (hpermits : permits s label = true)
    (h : Aside W s label t) : Covered W t := by
  have hrecorded := recorded_aside hs.recorded h
  have hheads := heads_aside hs.heads h
  have hkeeps : KeepsRanges s t := by
    cases h <;> exact ⟨rfl, fun _ hrow _ _ => hrow⟩
  have hsys : t.sys = s.sys ∧ t.cfg = s.cfg := by cases h <;> exact ⟨rfl, rfl⟩
  refine ⟨hrecorded, hsys.1 ▸ hsys.2 ▸ hs.control, hheads, fun r hr htype => ?_,
    fun _ _ _ _ hmain => ?_, fun n pc hn hmain => ?_⟩
  · obtain ⟨number, hnumber, hchain⟩ := hs.requests r (hsys.1 ▸ hr) htype
    exact ⟨number, hnumber, hchain.keeps hkeeps⟩
  · exact (hs.inserting _ _ _ _ (hsys.1 ▸ hmain)).keeps hkeeps
  · cases h with
    | getL1Header hcheckpoint =>
      -- What is fetched is the latest block, above all heads of completed ranges.
      cases hn
      cases hcheckpoint.symm.trans hmain
      rw [permits, hcheckpoint] at hpermits
      exact HeadedChain.keeps (headedChain_of_reach hs hpermits) hkeeps
    | oracle _ => exact (hs.header n pc hn hmain).keeps hkeeps
    | l1 _ _ _ _ => exact (hs.header n pc hn hmain).keeps hkeeps

theorem covered_step (hs : Covered W s) (h : stepOf (permittedStep W) s label t) : Covered W t := by
  obtain ⟨hpermits, h⟩ := Option.ite_none_right_eq_some.mp h
  rcases step_cases h with ⟨act, u, hacts, ha, hlift⟩ | haside
  · exact covered_lift hs ha (fresh_of_permits hpermits hacts) hlift
  · exact covered_aside hs hpermits haside

theorem covered_start (W : World Header Proof Vk) (cfg : RelayConfig) (latest : Nat)
    (oracle : Oracle) : Covered W (State.start cfg latest oracle) where
  recorded := recorded_start W cfg latest oracle
  control := Validity.controlled_start cfg.toConfig latest
  heads := by
    refine ⟨Nat.le_refl _, fun key job hjob => ?_, fun proofId job hjob => ?_, fun made hmem => ?_⟩
    · cases hjob
    · cases hjob
    · cases hmem
  requests := by
    rintro r (hr | hr | ⟨key, task, hr, -⟩ | ⟨id, key, hr⟩) <;> cases hr
  inserting := by
    intro _ _ _ _ hmain
    cases hmain
  header := by
    intro n pc hn
    cases hn

/-- **In every run** of permitted steps the checkpoints cover. -/
theorem covered_run {cfg : RelayConfig} {latest : Nat} {oracle : Oracle} {trace : List Label}
    (h : Run (stepOf (permittedStep W)) (State.start cfg latest oracle) trace s) : Covered W s :=
  h.invariant (fun _ _ _ => covered_step) (covered_start W cfg latest oracle)

/-! ## What is read for the aggregation proof -/

/-- `agg_proof_witnessgen` of a task reads the rows. -/
structure ReadsRanges (s : State Proof Vk) (request : Request) (rows : List Request) : Prop where
  task : ∃ key l1HeadWritten, s.sys.procs key = some ⟨request, .fetching l1HeadWritten⟩
  reqType : request.reqType = .aggregation
  rows : IsByStart (s.sys.db.getConsecutiveCompleteRangeProofs (s.cfg.scopeOf request)
    request.startBlock request.endBlock) rows

/-- **L1 heads precede the checkpoint**: each row's range proof has one with a number of at
most the checkpointed one, and the headers the host supplies include them all. -/
structure HeadsPrecede (W : World Header Proof Vk) (request : Request) (rows : List Request) :
    Prop where
  heads : ∀ r ∈ rows, ∃ read number n, readRangeProof W.host r = .ok read ∧
    request.checkpointedL1BlockNumber = some number ∧ W.l1.HeadAt n read.1 ∧ n ≤ asU64 number
  preimages : ∃ read hash headers, rows.mapM (readRangeProof W.host) = .ok read ∧
    request.checkpointedL1BlockHash = some hash ∧
    getHeaderPreimages W.l1 (read.map (·.1)) hash = .ok headers ∧
    ∀ b ∈ read.map (·.1), ∃ header ∈ headers, W.rt.hashSlow header = b.l1Head

/-- The request of a live task is within the scope. -/
theorem scopeOf_of_task (hcontrol : s.sys.Controlled s.cfg.toConfig) {key : Nat}
    {task : Validity.Task} (htask : s.sys.procs key = some task) (hlive : task.state.Live) :
    s.cfg.scopeOf task.datum = s.cfg.scope := by
  have hv := hcontrol.ok.1
  have hhandle := hv.tracked.live key task htask hlive
  obtain ⟨⟨-, -, hl1, hl2⟩, -⟩ := hv.rows _ key task.datum task.state hhandle htask
  rw [Validity.Config.scopeOf, hl1, hl2]

/-- **Rows that validate are those of the chain**, if there is one between the same blocks. -/
theorem headAtMost_of_validates (hs : Covered W s) {n : Nat}
    (hrows : IsByStart (s.sys.db.getConsecutiveCompleteRangeProofs s.cfg.scope request.startBlock
      request.endBlock) rows)
    (hvalid : validateAggregationRequest rows request = true)
    (hchain : HeadedChain W s n request.startBlock request.endBlock) :
    ∀ r ∈ rows, HeadAtMost W n r := by
  intro r hr
  have hmem {r : Request} (hr : r ∈ rows) := Validity.mem_completedRows.mp
    (show r ∈ Validity.completedRows s.cfg.toConfig s.sys.db request.startBlock fun r =>
      decide (r.endBlock ≤ request.endBlock) from
        (List.mem_insertionSort _).mp (hrows.1.mem_iff.mp hr))
  have hnonempty {r : Request} (hr : r ∈ rows) : r.startBlock < r.endBlock := by
    obtain ⟨hrow, -, htype, -⟩ := hmem hr
    exact hs.control.ranges.rows r.id r hrow htype
  -- A range of the chain holds the row's first block, and is read too.
  obtain ⟨-, -, -, -, hfrom, hto⟩ := hmem hr
  have hto : r.endBlock ≤ request.endBlock := of_decide_eq_true hto
  have hlt := hnonempty hr
  have hranges : ∀ range, HeadedRange W s n range → range.1 < range.2 := by
    rintro range ⟨c, hrow, -, htype, -, rfl, -⟩
    exact hs.control.ranges.rows c.id c hrow htype
  obtain ⟨range, ⟨c, hrow, hscope, htype, hstatus, rfl, hhead⟩, hstart, hend, hholds⟩ :=
    Chained.exists_holds hranges hchain hfrom (show r.startBlock < request.endBlock by omega)
  have hcMem : c ∈ rows := by
    refine hrows.1.mem_iff.mpr ((List.mem_insertionSort _).mpr ?_)
    exact Validity.mem_completedRows.mpr ⟨hrow, hscope, htype, hstatus, hstart, decide_eq_true hend⟩
  -- The rows share no block, so it is the row itself.
  by_cases heq : r = c
  · exact heq ▸ hhead
  · have hordered := ordered_of_isChain (chained_of_validates hvalid).2 fun range hrange => by
      obtain ⟨r', hr', rfl⟩ := List.mem_map.mp hrange
      exact hnonempty hr'
    have hapart := List.pairwise_map.mp (pairwise_apart_of_ordered hordered)
    have : Std.Symm fun r r' : Request => Apart r.blocks r'.blocks := ⟨fun _ _ h => h.symm⟩
    have hfirst : Holds r.blocks r.startBlock := ⟨Int.le_refl _, hlt⟩
    exact absurd hholds (hfirst.not_of_apart (hapart.forall hr hcMem heq))

/-- A row's proof is read with its L1 head. -/
theorem HeadAtMost.read {n : Nat} {r : Request} (h : HeadAtMost W n r) (hn : n ≤ W.l1.head) :
    ∃ read m, readRangeProof W.host r = .ok read ∧ W.l1.HeadAt m read.1 ∧ m ≤ n := by
  obtain ⟨proof, l1Head, hproof, hproves, hle⟩ := h
  obtain ⟨read, hread, hbootInfo⟩ := read_of_proves hproof hproves
  exact ⟨read, l1Head, hread, ⟨by omega, by rw [hbootInfo]; rfl⟩, hle⟩

/-- The headers the host supplies up to a checkpoint include all heads at most there. -/
theorem preimages_include {rt : Aggregation.Runtime Header} {l1 : L1Chain rt}
    {bootInfos : List BootInfoStruct} {checkpoint : Nat} (hne : bootInfos ≠ [])
    (hheads : ∀ b ∈ bootInfos, ∃ n, l1.HeadAt n b ∧ n ≤ checkpoint)
    (hcheckpoint : checkpoint ≤ l1.head) :
    ∃ headers, getHeaderPreimages l1 bootInfos (rt.hashSlow (l1.header checkpoint)) = .ok headers ∧
      ∀ b ∈ bootInfos, ∃ header ∈ headers, rt.hashSlow header = b.l1Head := by
  have hall : ∀ b ∈ bootInfos, ∃ n, l1.HeadAt n b := by
    intro b hb
    obtain ⟨n, hat, -⟩ := hheads b hb
    exact ⟨n, hat⟩
  obtain ⟨start, hpreimages, hstart⟩ := l1.getHeaderPreimages_ok hne hall hcheckpoint
  refine ⟨_, hpreimages, fun b hb => ?_⟩
  obtain ⟨n, hat, hle⟩ := hheads b hb
  obtain ⟨n', hat', hle'⟩ := hstart b hb
  obtain rfl := hat.unique hat'
  exact ⟨_, l1.mem_headers hle' (by omega), hat.2.symm⟩

/-- **L1 heads precede the checkpoint.**  In every run whose steps are all permitted, with
any tasks, retries, splits and restarts, and with fresh and reused checkpoints: whenever
`agg_proof_witnessgen` reads rows that validate, the head of each has a number of at most
the checkpointed one, and `get_header_preimages` includes it. -/
theorem heads_precede_checkpoint {cfg : RelayConfig} {latest : Nat} {oracle : Oracle}
    {trace : List Label}
    (hrun : Run (stepOf (permittedStep W)) (State.start cfg latest oracle) trace s)
    (hreads : ReadsRanges s request rows)
    (hvalid : validateAggregationRequest rows request = true) : HeadsPrecede W request rows := by
  have hs := covered_run hrun
  obtain ⟨⟨key, l1HeadWritten, htask⟩, htype, hrows⟩ := hreads
  have hversion : s.sys.Version request := .inr (.inr (.inl ⟨key, _, htask, rfl⟩))
  rw [show s.cfg.scopeOf request = s.cfg.scope from scopeOf_of_task hs.control htask trivial]
    at hrows
  obtain ⟨number, hnumber, hchain⟩ := hs.requests request hversion htype
  obtain ⟨number', hash, hnumber', hhash, n, hn, rfl, rfl, -⟩ :=
    (hs.recorded.sound request hversion).checkpoint htype
  obtain rfl := Option.some.inj (hnumber.symm.trans hnumber')
  have hhead := W.l1.head_lt
  have hnat : asU64 (asI64 n) = n := asU64_asI64 (by omega)
  rw [hnat] at hchain
  have hread : ∀ r ∈ rows, ∃ read m,
      readRangeProof W.host r = .ok read ∧ W.l1.HeadAt m read.1 ∧ m ≤ n :=
    fun r hr => (headAtMost_of_validates hs hrows hvalid hchain r hr).read hn
  obtain ⟨first, -, hfirst, -⟩ := Validity.validateAggregationRequest_iff.mp hvalid
  have hfirstMem : first ∈ rows := List.mem_of_head? hfirst
  obtain ⟨read₀, m₀, hread₀, -⟩ := hread first hfirstMem
  constructor
  · intro r hr
    obtain ⟨read, m, hread, hat, hle⟩ := hread r hr
    exact ⟨read, _, m, hread, hnumber, hat, hnat.symm ▸ hle⟩
  · have : Nonempty (BootInfoStruct × AggregationHost.SP1Proof Proof) := ⟨read₀⟩
    choose! read m hread hat hle using hread
    have hheads : ∀ b ∈ (rows.map read).map (·.1), ∃ m, W.l1.HeadAt m b ∧ m ≤ n := by
      intro b hb
      rw [List.map_map] at hb
      obtain ⟨r, hr, rfl⟩ := List.mem_map.mp hb
      exact ⟨m r, hat r hr, hle r hr⟩
    have hne : (rows.map read).map (·.1) ≠ [] := by
      have hne' := List.ne_nil_of_mem hfirstMem
      simpa using hne'
    obtain ⟨headers, hpreimages, hincludes⟩ := preimages_include hne hheads hn
    exact ⟨rows.map read, _, headers, mapM_ok hread, hhash, hpreimages, hincludes⟩

/-! ### A hole after the latest proposed block

The blocks 0 to 200 are to be proved in two ranges.  In the first run one range, up to
block 100, is proved under L1 block 5 and its aggregation gets the checkpoint 9.  In the
second run the second range is proved first, so that the aggregation of both gets the
checkpoint 9 while the first one is open, which is then proved under L1 block 11. -/

/-- The task of the aggregation request reads its range. -/
def untilRangeRead : List Label :=
  untilRangeProved ++ untilAggregationSpawned ++ [.proposer (.task 1 .startWitnessGeneration)]

def rangeRead : State Bytes32 Unit := endOf (permittedStep exampleWorld) exampleFirst untilRangeRead

/-- The range that is read has its head below the checkpoint. -/
theorem heads_precede_checkpoint_example :
    HeadsPrecede exampleWorld exampleAggregation [exampleRange] := by
  have hrun : Run (stepOf (permittedStep exampleWorld)) exampleFirst untilRangeRead rangeRead :=
    run_endOf (by decide +kernel)
  have hreads : ReadsRanges rangeRead exampleAggregation [exampleRange] :=
    ⟨⟨1, false, by decide +kernel⟩, rfl, by decide +kernel⟩
  exact heads_precede_checkpoint hrun hreads (by decide +kernel)

/-- The second range request, while its proof is made. -/
def exampleSecond : Request :=
  { newRangeRequest Validity.exampleConfig.scope .real 100 200 with id := 2 }

def exampleSecondProving : Request :=
  { exampleSecond with status := .prove, proofRequestId := some 6 }

def exampleSecondComplete : Request :=
  { exampleSecondProving with status := .complete, proof := some [5, 100, 200, 200, 3] }

def exampleFirstProving : Request :=
  { Validity.exampleRequest with status := .prove, proofRequestId := some 7 }

def exampleFirstComplete : Request :=
  { exampleFirstProving with status := .complete, proof := some [11, 0, 100, 100, 3] }

def exampleBoth : Request :=
  { newAggRequest Validity.exampleConfig.scope .real 0 200 9 9 0xA with id := 3 }

/-- `request_queued_proofs` selects a range request. -/
def spawns (request : Request) : List Label :=
  [.proposer (.start .requestQueuedProofs), .proposer (.call .ok), .proposer (.call .ok),
    .proposer (.call .ok), .proposer (.call .ok), .proposer (.call (.row none)),
    .proposer (.call (.row (some request))), .proposer (.call .ok), .proposer (.call .ok)]

/-- The network proves a request whose task has ended. -/
def delivers (request : Request) (proof : Bytes) : List Label :=
  [.proposer (.start .handleOngoingTasks), .proposer (.call (.completed [request.id])),
    .proposer (.call .ok), .proposer (.call .ok),
    .proposer (.start .handleProvingRequests), .proposer (.call (.rows [request])),
    .proposer (.call (.proofStatus ⟨0, 1, false, .fulfilled, some (.compressed proof)⟩)),
    .proposer (.call .ok)]

/-- The second range is proved while the first one is open. -/
def untilSecondProved : List Label :=
  [.proposer (.call .ok), .proposer (.call .ok), .proposer (.start .addNewRanges),
    .proposer (.call .ok), .proposer (.call (.finalizedBlock (some 200))),
    .proposer (.call (.ranges [])), .proposer (.call .ok)] ++
  spawns Validity.exampleRequest ++ [.proposer (.task 0 .startWitnessGeneration)] ++
  spawns exampleSecond ++
  [.l1 9 5, .proposer (.task 1 .startWitnessGeneration), .generateProofStdin 1 [] 5,
    .proposer (.task 1 (.prove 6))] ++
  delivers exampleSecondProving [5, 100, 200, 200, 3]

/-- The aggregation of both is proposed, and then the first range proved. -/
def untilBothProved : List Label :=
  [.proposer (.start .createAggregationProofs), .proposer (.call .ok), .proposer (.call .ok),
    .proposer (.call (.ranges [(100, 200)])), .proposer (.call (.submissionInterval 100)),
    .proposer (.call (.row none)), .getL1Header, .checkpoint exampleCheckpointEnv,
    .proposer (.call .ok), .l1 12 11, .generateProofStdin 0 [] 11,
    .proposer (.task 0 (.prove 7))] ++
  delivers exampleFirstProving [11, 0, 100, 100, 3]

/-- The task of the aggregation request reads both ranges. -/
def untilBothRead : List Label :=
  [.proposer (.start .requestQueuedProofs), .proposer (.call .ok), .proposer (.call .ok),
    .proposer (.call .ok), .proposer (.call .ok), .proposer (.call (.row (some exampleBoth))),
    .proposer (.call (.rows [exampleFirstComplete, exampleSecondComplete])), .proposer (.call .ok),
    .proposer (.call .ok), .proposer (.task 2 .startWitnessGeneration)]

def throughHole : List Label := untilSecondProved ++ untilBothProved ++ untilBothRead

def bothRead : State Bytes32 Unit := endOf (step exampleWorld) exampleFirst throughHole

/-- **With a hole at the fetch** a range that is proved later has a head after the
checkpoint: the request is checkpointed at L1 block 9, and validates with a range proof
whose head is block 11. -/
theorem head_after_checkpoint :
    Run (stepOf (step exampleWorld)) exampleFirst throughHole bothRead ∧
      ReadsRanges bothRead exampleBoth [exampleFirstComplete, exampleSecondComplete] ∧
      validateAggregationRequest [exampleFirstComplete, exampleSecondComplete] exampleBoth = true ∧
      ¬ HeadsPrecede exampleWorld exampleBoth [exampleFirstComplete, exampleSecondComplete] := by
  refine ⟨run_endOf (by decide +kernel), ⟨⟨2, false, by decide +kernel⟩, rfl, by decide +kernel⟩,
    by decide +kernel, fun hprecede => ?_⟩
  obtain ⟨read, number, n, hread, hnumber, hat, hle⟩ :=
    hprecede.heads exampleFirstComplete List.mem_cons_self
  obtain rfl := Option.some.inj hnumber
  have hbootInfo : readRangeProof exampleWorld.host exampleFirstComplete =
      .ok (⟨11, 0, 100, 100, 3⟩, .compressed (b256 [11, 0, 100, 100, 3])) := rfl
  cases hread.symm.trans hbootInfo
  have hhead : exampleWorld.l1.HeadAt 11 ⟨11, 0, 100, 100, 3⟩ := ⟨by decide, rfl⟩
  obtain rfl := hat.unique hhead
  exact absurd hle (by decide)

end OpSuccinct.Proving
