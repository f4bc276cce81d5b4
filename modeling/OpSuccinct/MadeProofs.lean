import OpSuccinct.ProvingWorld

/-! # Proofs are made for their requests

A task builds its stdin from the request it holds, the network proves the stdin it was
sent, and what is stored in a row was made for a version of that row.  All versions agree
on what is to be proved, so every stored proof is one for its row (`Recorded`), in every
run and whatever configuration the process comes back with (`recorded_run`).
-/
namespace OpSuccinct.Proving

open AggregationHost OutputOracle Transition
open Validity (Request Sys asI64 SameInputs Writes TaskPc MainPc)

variable {Header Proof Vk : Type}

/-- **The job is what the request asks for**: its blocks, or a stdin built for it from rows
that store proofs of their blocks. -/
def JobFor (W : World Header Proof Vk) (request : Request) : Job Proof Vk → Prop
  | .range startBlock endBlock _ => request.reqType = .range ∧ startBlock = request.startBlock ∧
      endBlock = request.endBlock
  | .aggregation rows stdin => request.reqType = .aggregation ∧
      (∃ commitments, generateAggProofStdin W.host W.l1 W.rangeVk (fun _ _ _ => rows) commitments
        request = .ok stdin) ∧
      ∀ r ∈ rows, ∃ proof l1Head, r.proof = some proof ∧
        (Job.range r.startBlock r.endBlock l1Head : Job Proof Vk).proves W proof = true

/-- The block is canonical, and its hash checkpointed in the oracle. -/
def Checkpointed (W : World Header Proof Vk) (s : State Proof Vk) (number : Int)
    (hash : Bytes32) : Prop :=
  ∃ n, n ≤ W.l1.head ∧ number = asI64 n ∧ hash = W.rt.hashSlow (W.l1.header n) ∧
    s.oracle.historicBlockHashes n = hash

/-- **What a version of a request says is true**: its checkpoint, what was requested under
its proof id, and that its proof was made. -/
structure Sound (W : World Header Proof Vk) (s : State Proof Vk) (r : Request) : Prop where
  checkpoint : r.reqType = .aggregation → ∃ number hash, r.checkpointedL1BlockNumber = some number ∧
    r.checkpointedL1BlockHash = some hash ∧ Checkpointed W s number hash
  requested : ∀ proofId, r.proofRequestId = some proofId →
    ∃ job, s.requested proofId = some job ∧ JobFor W r job
  complete : r.status = .complete → ∃ made ∈ s.proofs, made.id = r.id ∧ r.proof = some made.proof

/-- **The record is right** for all requests, tasks and proofs. -/
structure Recorded (W : World Header Proof Vk) (s : State Proof Vk) : Prop where
  versions : s.sys.VersionsAgree
  sound : ∀ r, s.sys.Version r → Sound W s r
  id_lt : ∀ made ∈ s.proofs, made.id < s.sys.db.nextId
  made : ∀ made ∈ s.proofs, made.job.proves W made.proof = true ∧
    ∀ r, s.sys.Version r → r.id = made.id → JobFor W r made.job
  jobs : ∀ key task, s.sys.procs key = some task →
    task.state = .witnessed ∨ task.state = .executing →
    ∃ job, s.jobs key = some job ∧ JobFor W task.datum job
  latest : s.l1Latest ≤ W.l1.head
  header : ∀ n, s.l1Header = some n → n ≤ s.l1Latest
  inserting : ∀ latestProposed highestProven number hash,
    s.sys.main = .agg (.insert latestProposed highestProven number hash) →
    Checkpointed W s number hash

variable {W : World Header Proof Vk} {s t u : State Proof Vk} {r r' : Request}
  {job : Job Proof Vk} {act : Validity.Act}

/-! ## The record grows -/

/-- Nothing that was recorded is lost. -/
structure Grows (W : World Header Proof Vk) (s t : State Proof Vk) : Prop where
  requested : ∀ proofId job, s.requested proofId = some job → t.requested proofId = some job
  proofs : ∀ made ∈ s.proofs, made ∈ t.proofs
  hashes : ∀ n, n ≤ W.l1.head →
    s.oracle.historicBlockHashes n = W.rt.hashSlow (W.l1.header n) →
    t.oracle.historicBlockHashes n = W.rt.hashSlow (W.l1.header n)

theorem Grows.of_eq (hrequested : t.requested = s.requested) (hproofs : t.proofs = s.proofs)
    (horacle : t.oracle = s.oracle) : Grows W s t := by
  refine ⟨fun proofId job h => ?_, fun made h => ?_, fun n _ h => ?_⟩
  · rwa [hrequested]
  · rwa [hproofs]
  · rwa [horacle]

theorem Checkpointed.grows {number : Int} {hash : Bytes32} (h : Checkpointed W s number hash)
    (hgrows : Grows W s t) : Checkpointed W t number hash := by
  obtain ⟨n, hn, hnumber, rfl, hstored⟩ := h
  exact ⟨n, hn, hnumber, rfl, hgrows.hashes n hn hstored⟩

theorem Sound.grows (h : Sound W s r) (hgrows : Grows W s t) : Sound W t r where
  checkpoint := by
    intro htype
    obtain ⟨number, hash, hnumber, hhash, hcheckpointed⟩ := h.checkpoint htype
    exact ⟨number, hash, hnumber, hhash, hcheckpointed.grows hgrows⟩
  requested := by
    intro proofId hid
    obtain ⟨job, hjob, hfor⟩ := h.requested proofId hid
    exact ⟨job, hgrows.requested proofId job hjob, hfor⟩
  complete := by
    intro hstatus
    obtain ⟨made, hmem, hmade⟩ := h.complete hstatus
    exact ⟨made, hgrows.proofs made hmem, hmade⟩

/-- A call of the oracle keeps the hashes of canonical blocks. -/
theorem hashes_execute {env : Env} {call : Call} {oracle : Oracle}
    (h : execute W.chain env s.oracle call = .ok oracle) {n : Nat} (hn : n ≤ W.l1.head)
    (hstored : s.oracle.historicBlockHashes n = W.rt.hashSlow (W.l1.header n)) :
    oracle.historicBlockHashes n = W.rt.hashSlow (W.l1.header n) := by
  obtain ⟨_, -, hdispatch⟩ := bind_ok_iff.mp h
  rcases hashes_step hdispatch n with hsame | ⟨-, hnew⟩
  · exact hsame.trans hstored
  · exact hnew.trans (W.blockHash_eq n hn)

/-- The hash a checkpoint transaction stores. -/
theorem checkpointed_hash {env : Env} {oracle : Oracle} {n : Nat}
    (h : execute W.chain env s.oracle (.checkpointBlockHash n) = .ok oracle) (hn : n ≤ W.l1.head) :
    oracle.historicBlockHashes n = W.rt.hashSlow (W.l1.header n) := by
  obtain ⟨_, -, hdispatch⟩ := bind_ok_iff.mp h
  obtain ⟨hne, rfl⟩ := checkpointBlockHash_ok_iff.mp hdispatch
  have hself : Function.update s.oracle.historicBlockHashes n (blockhash W.chain env n) n =
      blockhash W.chain env n := Function.update_self _ _ _
  refine hself.trans ?_
  unfold blockhash at hne ⊢
  split at hne
  · rename_i hrecent
    rw [if_pos hrecent, W.blockHash_eq n hn]
  · exact absurd rfl hne

/-- What is around a step keeps the proposer and the record. -/
theorem Around.keeps (h : Around W s act u) : u.sys = s.sys ∧ Grows W s u := by
  cases h with
  | restart cfg => exact ⟨rfl, .of_eq rfl rfl rfl⟩
  | checkpoint hn hcall =>
    exact ⟨rfl, fun _ _ h => h, fun _ h => h, fun _ hn h => hashes_execute hcall hn h⟩
  | stdin htask hjob => exact ⟨rfl, .of_eq rfl rfl rfl⟩
  | complete htask hjob hproves =>
    exact ⟨rfl, fun _ _ h => h, fun _ h => List.mem_append_left _ h, fun _ _ h => h⟩
  | @prove key proofId job hjob hnone =>
    refine ⟨rfl, fun proofId' job' h => ?_, fun _ h => h, fun _ _ h => h⟩
    have hne : proofId' ≠ proofId := by
      rintro rfl
      rw [hnone] at h
      cases h
    exact (Function.update_of_ne hne _ _).trans h
  | store hmain hproof hid hjob hproves =>
    exact ⟨rfl, fun _ _ h => h, fun _ h => List.mem_append_left _ h, fun _ _ h => h⟩
  | start f => exact ⟨rfl, .of_eq rfl rfl rfl⟩
  | plain hplain => exact ⟨rfl, .of_eq rfl rfl rfl⟩

/-! ## Versions -/

/-- What a job is for depends on the inputs of the request only. -/
theorem JobFor.of_same (h : JobFor W r job) (hsame : SameInputs r r') : JobFor W r' job := by
  cases job with
  | range startBlock endBlock l1Head =>
    obtain ⟨htype, hstart, hend⟩ := h
    exact ⟨hsame.reqType.trans htype, hstart.trans hsame.startBlock.symm,
      hend.trans hsame.endBlock.symm⟩
  | aggregation rows stdin =>
    obtain ⟨htype, ⟨commitments, hstdin⟩, hrows⟩ := h
    refine ⟨hsame.reqType.trans htype, ⟨commitments, ?_⟩, hrows⟩
    rw [← hstdin, generateAggProofStdin, generateAggProofStdin, hsame.checkpointedL1BlockHash,
      hsame.proverAddress, hsame.startBlock, hsame.endBlock, hsame.l1ChainId, hsame.l2ChainId]

/-- A version of a sound row is sound, if its proof id and its proof are. -/
theorem Sound.of_same (h : Sound W s r) (hsame : SameInputs r r')
    (hrequested : r'.proofRequestId = r.proofRequestId ∨ ∃ proofId job,
      r'.proofRequestId = some proofId ∧ s.requested proofId = some job ∧ JobFor W r job)
    (hcomplete : r'.status = .complete → r.status = .complete ∧ r'.proof = r.proof ∨
      ∃ made ∈ s.proofs, made.id = r.id ∧ r'.proof = some made.proof) : Sound W s r' where
  checkpoint := by
    intro htype
    obtain ⟨number, hash, hnumber, hhash, hcheckpointed⟩ :=
      h.checkpoint (hsame.reqType.symm.trans htype)
    exact ⟨number, hash, hsame.checkpointedL1BlockNumber.trans hnumber,
      hsame.checkpointedL1BlockHash.trans hhash, hcheckpointed⟩
  requested := by
    intro proofId hid
    rcases hrequested with heq | ⟨proofId', job, hid', hjob, hfor⟩
    · obtain ⟨job, hjob, hfor⟩ := h.requested proofId (heq.symm.trans hid)
      exact ⟨job, hjob, hfor.of_same hsame⟩
    · rw [hid] at hid'
      obtain rfl := Option.some.inj hid'
      exact ⟨job, hjob, hfor.of_same hsame⟩
  complete := by
    intro hstatus
    rw [hsame.id]
    rcases hcomplete hstatus with ⟨hold, hproof⟩ | hmade
    · obtain ⟨made, hmem, hid, hproof'⟩ := h.complete hold
      exact ⟨made, hmem, hid, hproof.trans hproof'⟩
    · exact hmade

/-! ## Steps -/

/-- The proof a status delivers, as it is stored. -/
theorem delivered_of_delivers {status : Validity.ProofStatus} {proof : Bytes}
    (h : status.Delivers proof) : delivered status = some proof := by
  obtain ⟨hfulfilled, hproof⟩ := h
  rw [delivered, hfulfilled]
  exact hproof

/-- An inserted request says nothing but its checkpoint. -/
theorem sound_new {request : Request} (hrequested : request.proofRequestId = none)
    (hstatus : request.status = .unrequested)
    (hcheckpoint : request.reqType = .aggregation → ∃ number hash,
      request.checkpointedL1BlockNumber = some number ∧
        request.checkpointedL1BlockHash = some hash ∧ Checkpointed W s number hash)
    (id : Nat) : Sound W s { request with id := id } where
  checkpoint := hcheckpoint
  requested := by
    intro proofId hid
    rw [show request.proofRequestId = some proofId from hid] at hrequested
    cases hrequested
  complete := by
    intro hcomplete
    rw [show request.status = .complete from hcomplete] at hstatus
    cases hstatus

/-- The proof of a completed range request is one of its blocks. -/
theorem Recorded.range_proof (hs : Recorded W s) (hrow : s.sys.db.rows r.id = some r)
    (htype : r.reqType = .range) (hstatus : r.status = .complete) :
    ∃ made ∈ s.proofs, ∃ l1Head, r.proof = some made.proof ∧
      made.job = .range r.startBlock r.endBlock l1Head := by
  have hversion : s.sys.Version r := .inl hrow
  obtain ⟨made, hmem, hid, hproof⟩ := (hs.sound r hversion).complete hstatus
  have hfor := (hs.made made hmem).2 r hversion hid.symm
  cases hjob : made.job with
  | range startBlock endBlock l1Head =>
    rw [hjob] at hfor
    obtain ⟨-, rfl, rfl⟩ := hfor
    exact ⟨made, hmem, l1Head, hproof, hjob⟩
  | aggregation rows stdin =>
    rw [hjob] at hfor
    cases htype.symm.trans hfor.1

/-- A stdin that is built is built for its request. -/
theorem Recorded.stdin_for (hs : Recorded W s) {task : Validity.Task} {rows : List Request}
    {l1Head : Nat} {job : Job Proof Vk} (h : stdinJob W s task.datum rows l1Head = some job) :
    JobFor W task.datum job := by
  unfold stdinJob at h
  split at h
  · rename_i htype
    obtain ⟨-, h⟩ := Option.ite_none_right_eq_some.mp h
    cases h
    exact ⟨htype, rfl, rfl⟩
  · rename_i htype
    obtain ⟨hrows, h⟩ := Option.ite_none_right_eq_some.mp h
    split at h
    · rename_i stdin hstdin
      cases h
      refine ⟨htype, ⟨_, hstdin⟩, fun r hr => ?_⟩
      have hmem := (List.mem_insertionSort _).mp (hrows.1.mem_iff.mp hr)
      obtain ⟨hrow, -, hrange, hcomplete⟩ := Validity.mem_inStatus hmem
      obtain ⟨made, hmade, l1Head, hproof, hjob⟩ := hs.range_proof hrow hrange hcomplete
      have hproves := (hs.made made hmade).1
      rw [hjob] at hproves
      exact ⟨made.proof, l1Head, hproof, hproves⟩
    · cases h

section Step
variable {cfg : Validity.Config} {sys : Sys} (hs : Recorded W s) (ha : Around W s act u)
include hs ha

/-- What is inserted is sound. -/
theorem Recorded.sound_inserted {requests : List Request} {request : Request}
    (hw : Writes cfg s.sys act (.insertRequests requests)) (hmem : request ∈ requests) (id : Nat) :
    Sound W u { request with id := id } := by
  cases hw with
  | insertHalves hmain =>
    rcases List.mem_pair.mp hmem with rfl | rfl
    · exact sound_new rfl rfl (fun htype => by cases htype) id
    · exact sound_new rfl rfl (fun htype => by cases htype) id
  | insertRanges hmain =>
    obtain ⟨range, -, rfl⟩ := List.mem_map.mp hmem
    exact sound_new rfl rfl (fun htype => by cases htype) id
  | insertAgg hmain =>
    obtain rfl := List.mem_singleton.mp hmem
    have hcheckpointed := (hs.inserting _ _ _ _ hmain).grows ha.keeps.2
    exact sound_new rfl rfl (fun _ => ⟨_, _, rfl, rfl, hcheckpointed⟩) id

omit hs in
/-- A proof that the step stores is one that it makes. -/
theorem Around.stored_made {id : Nat} {proof : Bytes}
    (hw : Writes cfg s.sys act (.updateProofToComplete id proof)) :
    ∃ made ∈ u.proofs, made.id = id ∧ made.proof = proof := by
  cases hw with
  | complete htask _ =>
    cases ha with
    | @complete key task proof job htask' hjob hproves =>
      cases htask.symm.trans htask'
      exact ⟨_, List.mem_append_right _ (List.mem_singleton_self _), rfl, rfl⟩
    | plain hplain => exact absurd rfl (hplain.2.1 _)
  | store hmain hdelivers =>
    have hproof := delivered_of_delivers hdelivers
    cases ha with
    | @store request rest status proof proofId job hmain' hproof' hid hjob hproves =>
      cases hmain.symm.trans hmain'
      cases hproof.symm.trans hproof'
      exact ⟨_, List.mem_append_right _ (List.mem_singleton_self _), rfl, rfl⟩
    | plain hplain => exact absurd hproof (hplain _ _ _ hmain)

/-- A proof that the step requests is one for the row it is requested for. -/
theorem Recorded.requested_for {id : Nat} {proofId : Bytes32}
    (hw : Writes cfg s.sys act (.updateRequestToProve id proofId))
    (hrow : s.sys.db.rows r.id = some r) (hid : r.id = id) :
    ∃ job, u.requested proofId = some job ∧ JobFor W r job := by
  cases hw with
  | @prove key task proofId htask hstate =>
    cases ha with
    | @prove key proofId job hjob hnone =>
      obtain ⟨job', hjob', hfor⟩ := hs.jobs key task htask (.inl hstate)
      cases hjob.symm.trans hjob'
      have htaskVersion : s.sys.Version task.datum := .inr (.inr (.inl ⟨key, task, htask, rfl⟩))
      have hboth := hs.versions.same _ _ htaskVersion (.inl hrow) hid.symm
      exact ⟨job, Function.update_self _ _ _, hfor.of_same hboth⟩
    | plain hplain => exact absurd rfl (hplain.2.2 _)

/-- A version the step writes is sound. -/
theorem Recorded.sound_written {w : Validity.DbWrite} (hw : Writes cfg s.sys act w)
    (hrow : s.sys.db.rows r.id = some r) : Sound W u (w.onRow r) := by
  have hsound := (hs.sound r (.inl hrow)).grows ha.keeps.2
  have hsame := Validity.sameInputs_onRow r w
  have hchange := Validity.proofChange_onRow r w
  generalize w.onRow r = r' at hsame hchange ⊢
  cases hchange with
  | quiet hrequested hcomplete =>
    exact hsound.of_same hsame (.inl hrequested) fun h => .inl (hcomplete h)
  | requested hid =>
    obtain ⟨job, hjob, hfor⟩ := hs.requested_for ha hw hrow hid
    exact hsound.of_same hsame (.inr ⟨_, job, rfl, hjob, hfor⟩) fun h => by cases h
  | completed hid =>
    obtain ⟨made, hmem, hmade, rfl⟩ := ha.stored_made hw
    exact hsound.of_same hsame (.inl rfl) fun _ => .inr ⟨made, hmem, hmade.trans hid.symm, rfl⟩
  | setComplete _ =>
    -- No step sets the status alone to `Complete`.
    cases hw

variable (hstep : Validity.step cfg s.sys act = some sys)
include hstep

theorem Recorded.sound_step (hr : sys.Version r) : Sound W { u with sys } r := by
  have hgrows : Grows W u { u with sys } := .of_eq rfl rfl rfl
  refine Sound.grows ?_ hgrows
  rcases Validity.version_step hstep hr with hold | ⟨w, r, hw, hrow, rfl⟩ |
    ⟨requests, r₀, hw, hmem, -, -, heq⟩
  · exact (hs.sound r hold).grows ha.keeps.2
  · exact hs.sound_written ha hw hrow
  · exact heq ▸ hs.sound_inserted ha hw hmem _

/-- A proof that is made is one for its request. -/
theorem Recorded.made_step :
    ∀ made ∈ u.proofs, made.id < s.sys.db.nextId ∧ made.job.proves W made.proof = true ∧
      ∀ r, s.sys.Version r → r.id = made.id → JobFor W r made.job := by
  intro made hmem
  have hold (hmem : made ∈ s.proofs) : made.id < s.sys.db.nextId ∧
      made.job.proves W made.proof = true ∧
        ∀ r, s.sys.Version r → r.id = made.id → JobFor W r made.job :=
    ⟨hs.id_lt made hmem, hs.made made hmem⟩
  -- A new proof is made for a request that is held.
  have hnew {request : Request} {proof : Bytes} {job : Job Proof Vk} (hheld : s.sys.Holds request)
      (hfor : JobFor W request job) (hproves : job.proves W proof = true)
      (hmem : made ∈ (s.make request.id proof job).proofs) : made.id < s.sys.db.nextId ∧
        made.job.proves W made.proof = true ∧
          ∀ r, s.sys.Version r → r.id = made.id → JobFor W r made.job := by
    rcases List.mem_append.mp hmem with hmem | hmem
    · exact hold hmem
    · obtain rfl := List.mem_singleton.mp hmem
      refine ⟨hs.versions.id_lt request (.inr hheld), hproves, fun r hr hid => ?_⟩
      exact hfor.of_same (hs.versions.same request r (.inr hheld) hr hid.symm)
  cases ha with
  | @complete key task proof job htask hjob hproves =>
    obtain ⟨task', htask', hstep⟩ := Option.bind_eq_some_iff.mp hstep
    cases htask.symm.trans htask'
    obtain ⟨⟨db, pc⟩, htaskStep, -⟩ := Option.bind_eq_some_iff.mp hstep
    obtain ⟨hstate, -⟩ := Option.ite_none_right_eq_some.mp htaskStep
    have hstate : task.state = .witnessed ∨ task.state = .executing := by
      rcases hstate with hstate | ⟨hstate, -⟩
      · exact .inr hstate
      · exact .inl hstate
    obtain ⟨job', hjob', hfor⟩ := hs.jobs key task htask hstate
    cases hjob.symm.trans hjob'
    exact hnew (.inr (.inl ⟨key, task, htask, rfl⟩)) hfor hproves hmem
  | @store request rest status proof proofId job hmain hproof hid hjob hproves =>
    have hheld : s.sys.Holds request := by
      refine .inl ?_
      rw [hmain]
      exact List.mem_cons_self
    obtain ⟨job', hjob', hfor⟩ := (hs.sound request (.inr hheld)).requested proofId hid
    cases hjob.symm.trans hjob'
    exact hnew hheld hfor hproves hmem
  | restart _ | checkpoint _ _ | stdin _ _ | prove _ _ | start _ | plain _ => exact hold hmem

end Step

/-- A task has its stdin once it has built it. -/
theorem stdin_built {cfg : Validity.Config} {db db' : Validity.Db} {task : Validity.Task}
    {taskAct : Validity.TaskAct} {pc : TaskPc}
    (h : Validity.taskStep cfg db task taskAct = some (db', pc))
    (hpc : pc = .witnessed ∨ pc = .executing) :
    taskAct = .generateProofStdin ∧
        (task.state = .fetching false ∨ task.state = .fetching true) ∨
      taskAct = .startExecution ∧ task.state = .witnessed := by
  cases taskAct with
  | generateProofStdin =>
    obtain ⟨hstate, -⟩ := Option.ite_none_right_eq_some.mp h
    exact .inl ⟨rfl, hstate.1⟩
  | startExecution =>
    obtain ⟨hstate, -⟩ := Option.ite_none_right_eq_some.mp h
    exact .inr ⟨rfl, hstate.1⟩
  | fail =>
    obtain ⟨-, h⟩ := Option.ite_none_left_eq_some.mp h
    cases h
    rcases hpc with hpc | hpc <;> cases hpc
  | _ =>
    obtain ⟨-, h⟩ := Option.ite_none_right_eq_some.mp h
    cases h
    rcases hpc with hpc | hpc <;> cases hpc

/-- **A task that has its stdin** had it before, or has just built it. -/
theorem Recorded.jobs_step {cfg : Validity.Config} {sys : Sys} (hs : Recorded W s)
    (ha : Around W s act u) (hstep : Validity.step cfg s.sys act = some sys) {key : Nat}
    {task : Validity.Task} (htask : sys.procs key = some task)
    (hstate : task.state = .witnessed ∨ task.state = .executing) :
    ∃ job, u.jobs key = some job ∧ JobFor W task.datum job := by
  have hkeep (task' : Validity.Task) (htask' : s.sys.procs key = some task')
      (hstate' : task'.state = .witnessed ∨ task'.state = .executing)
      (hact : act ≠ .task key .generateProofStdin) :
      ∃ job, u.jobs key = some job ∧ JobFor W task'.datum job := by
    obtain ⟨job, hjob, hfor⟩ := hs.jobs key task' htask' hstate'
    refine ⟨job, ?_, hfor⟩
    cases ha with
    | @stdin key' _ _ _ _ _ _ =>
      have hne : key ≠ key' := by
        rintro rfl
        exact hact rfl
      exact (Function.update_of_ne hne _ _).trans hjob
    | _ => exact hjob
  rcases Validity.procs_step hstep htask with hold |
    ⟨task', taskAct, db, pc, rfl, htask', htaskStep, rfl⟩ | ⟨request, -, rfl⟩
  · refine hkeep task hold hstate ?_
    -- The step that builds a stdin finds the task without one.
    rintro rfl
    obtain ⟨task', htask', hrest⟩ := Option.bind_eq_some_iff.mp hstep
    cases hold.symm.trans htask'
    obtain ⟨⟨db, pc⟩, htaskStep, -⟩ := Option.bind_eq_some_iff.mp hrest
    obtain ⟨⟨hfetching, -⟩, -⟩ := Option.ite_none_right_eq_some.mp htaskStep
    rcases hfetching with hfetching | hfetching <;> rw [hfetching] at hstate <;>
      rcases hstate with hstate | hstate <;> cases hstate
  · rcases stdin_built htaskStep hstate with ⟨rfl, -⟩ | ⟨rfl, hwitnessed⟩
    · cases ha with
      | stdin htask'' hjob =>
        cases htask'.symm.trans htask''
        exact ⟨_, Function.update_self _ _ _, hs.stdin_for hjob⟩
      | plain hplain => exact absurd rfl hplain.1
    · exact hkeep task' htask' (.inl hwitnessed) fun h => by cases h
  · rcases hstate with hstate | hstate <;> cases hstate

/-! ## Runs -/

theorem recorded_lift (hs : Recorded W s) (ha : Around W s act u) (h : lift u act = some t) :
    Recorded W t := by
  obtain ⟨sys, hstep, rfl⟩ := lift_some h
  obtain ⟨hsys, hgrows⟩ := ha.keeps
  rw [hsys] at hstep
  have hback {r' : Request} (hr' : sys.Version r') :
      (∃ r, s.sys.Version r ∧ SameInputs r r') ∨ s.sys.db.nextId ≤ r'.id ∧
        sys.db.rows r'.id = some r' := Validity.version_back hstep hr'
  have hnext := Validity.nextId_step hstep
  have hmade := hs.made_step ha hstep
  refine ⟨Validity.versionsAgree_step hs.versions hstep, fun r hr => hs.sound_step ha hstep hr,
    fun made hmem => ?_, fun made hmem => ?_, fun key task htask hstate => ?_, ?_, ?_,
    fun latestProposed highestProven number hash hmain => ?_⟩
  · have hlt := (hmade made hmem).1
    show made.id < sys.db.nextId
    omega
  · obtain ⟨hlt, hproves, hfor⟩ := hmade made hmem
    refine ⟨hproves, fun r' hr' hid => ?_⟩
    rcases hback hr' with ⟨r, hr, hsame⟩ | ⟨hle, -⟩
    · exact (hfor r hr (hsame.id.symm.trans hid)).of_same hsame
    · omega
  · exact hs.jobs_step ha hstep htask hstate
  · cases ha <;> exact hs.latest
  · cases ha with
    | start f =>
      intro n hn
      cases hn
    | _ => exact hs.header
  · have hgrows' : Grows W s { u with sys } := ⟨hgrows.requested, hgrows.proofs, hgrows.hashes⟩
    rcases Validity.insertAgg_step hstep hmain with ⟨hold, -⟩ |
      ⟨r, hrow, htype, -, -, hnumber, hhash⟩ | ⟨hcheckpoint, rfl⟩
    · exact (hs.inserting _ _ _ _ hold).grows hgrows'
    · obtain ⟨number', hash', hnumber', hhash', hcheckpointed⟩ :=
        (hs.sound r (.inl hrow)).checkpoint htype
      cases hnumber.symm.trans hnumber'
      cases hhash.symm.trans hhash'
      exact hcheckpointed.grows hgrows'
    · cases ha with
      | @checkpoint n env oracle hn hcall =>
        have hle := hs.header n hn
        have hlatest := hs.latest
        refine ⟨n, by omega, rfl, rfl, ?_⟩
        exact checkpointed_hash hcall (by omega)
      | plain hplain => exact absurd hplain (fun h => h)

theorem recorded_aside {label : Label} (hs : Recorded W s) (h : Aside W s label t) :
    Recorded W t := by
  have hgrows : Grows W s t := by
    cases h with
    | oracle hcall => exact ⟨fun _ _ h => h, fun _ h => h, fun _ hn h => hashes_execute hcall hn h⟩
    | l1 _ _ _ _ => exact .of_eq rfl rfl rfl
    | getL1Header _ => exact .of_eq rfl rfl rfl
  cases h with
  | oracle hcall =>
    exact ⟨hs.versions, fun r hr => (hs.sound r hr).grows hgrows, hs.id_lt, hs.made, hs.jobs,
      hs.latest, hs.header, fun _ _ _ _ hmain => (hs.inserting _ _ _ _ hmain).grows hgrows⟩
  | l1 hlatest hfinalized hle hhead =>
    exact ⟨hs.versions, fun r hr => (hs.sound r hr).grows hgrows, hs.id_lt, hs.made, hs.jobs, hhead,
      fun n hn => Nat.le_trans (hs.header n hn) hlatest,
      fun _ _ _ _ hmain => (hs.inserting _ _ _ _ hmain).grows hgrows⟩
  | getL1Header hmain =>
    refine ⟨hs.versions, fun r hr => (hs.sound r hr).grows hgrows, hs.id_lt, hs.made, hs.jobs,
      hs.latest, fun n hn => ?_, fun _ _ _ _ hmain => (hs.inserting _ _ _ _ hmain).grows hgrows⟩
    obtain rfl := Option.some.inj hn
    exact Nat.le_refl _

/-- **Every step** keeps the record right. -/
theorem recorded_step {label : Label} (hs : Recorded W s) (h : step W s label = some t) :
    Recorded W t := by
  rcases step_cases h with ⟨act, u, -, ha, hlift⟩ | haside
  · exact recorded_lift hs ha hlift
  · exact recorded_aside hs haside

theorem recorded_start (W : World Header Proof Vk) (cfg : RelayConfig) (latest : Nat)
    (oracle : Oracle) : Recorded W (State.start cfg latest oracle) where
  versions := Validity.versionsAgree_start _ _
  sound := by
    rintro r (hr | hr | ⟨key, task, hr, -⟩ | ⟨id, key, hr⟩) <;> cases hr
  id_lt := by
    intro made hmem
    cases hmem
  made := by
    intro made hmem
    cases hmem
  jobs := by
    intro key task htask
    cases htask
  latest := Nat.zero_le _
  header := by
    intro n hn
    cases hn
  inserting := by
    intro _ _ _ _ hmain
    cases hmain

/-- **In every run** the record is right. -/
theorem recorded_run {cfg : RelayConfig} {latest : Nat} {oracle : Oracle} {trace : List Label}
    (h : Run (stepOf (step W)) (State.start cfg latest oracle) trace s) : Recorded W s :=
  h.invariant (fun _ _ _ => recorded_step) (recorded_start W cfg latest oracle)

end OpSuccinct.Proving
