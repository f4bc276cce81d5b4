import OpSuccinct.ProposerLifeCycle

/-! # What becomes of a fulfilled proof

`process_proof_request_status` tests the deadline of a proof request before it looks
whether the request is fulfilled.  A proof that was fulfilled in time, but whose status
is first read after the deadline, is handed to `handle_failed_request`, which sets the
request to `Failed` (`late_proof_thrown_away`).  So every fulfilled proof is stored, and
no request is given up while its proof is there or may still come, exactly when the
prover does not report a fulfilled request past its deadline
(`fulfilled_proof_kept_iff`).
-/
namespace OpSuccinct.Validity

open Transition

/-- The bytes that are stored of a proof; a core proof is not supported. -/
def SP1Proof.stored : SP1Proof → Option Bytes
  | .core => none
  | .compressed serialized => some serialized
  | .plonk bytes | .groth16 bytes => some bytes

/-- The prover reports the request as fulfilled, with a proof that can be stored. -/
def ProofStatus.Delivers (status : ProofStatus) (proof : Bytes) : Prop :=
  status.fulfillment = .fulfilled ∧ status.proof.bind SP1Proof.stored = some proof

/-- The request is unfulfillable, or not fulfilled and past its deadline. -/
def ProofStatus.Lost (status : ProofStatus) : Prop :=
  status.fulfillment = .unfulfillable ∨
    status.fulfillment ≠ .fulfilled ∧ status.deadline < status.currentTime

/-- In `process_proof_request_status` for the request, with the rest still to come. -/
def Processing (request : Request) (rest : List Request) (main : MainPc) : Prop :=
  main = .proving (.process (request :: rest)) ∨ ∃ pc, main = .retry request pc (.proving rest)

/-- A call of `process_proof_request_status`, which may fail; the prover answers the
status. -/
def ProcessCall (cfg : Config) (request : Request) (rest : List Request) (status : ProofStatus)
    (s : Sys) (act : Act) (t : Sys) : Prop :=
  Processing request rest s.main ∧ step cfg s act = some t ∧
    (act = .fail ∨ ∃ answer, act = .call answer ∧
      ∀ answered, answer = .proofStatus answered → answered = status)

/-- The request is complete with the proof, and no other row is changed or added. -/
structure Stores (db db' : Db) (id : Nat) (proof : Bytes) : Prop where
  row : ∃ r, db'.rows id = some r ∧ r.status = .complete ∧ r.proof = some proof
  others : ∀ i, i ≠ id → db'.rows i = db.rows i

/-- **A fulfilled proof is never thrown away.**  A proof that is delivered gets stored
when no call fails, nothing else is written, and the loop goes on with the next request;
only a lost request is handed to `handle_failed_request`. -/
structure KeepsProof (cfg : Config) (s : Sys) (request : Request) (rest : List Request)
    (status : ProofStatus) : Prop where
  returns : ∀ proof, status.Delivers proof → ∃ trace t,
    Run (ProcessCall cfg request rest status) s trace t ∧ .fail ∉ trace ∧
      ¬ Processing request rest t.main
  stored : ∀ proof, status.Delivers proof → ∀ trace t,
    Run (ProcessCall cfg request rest status) s trace t →
      (Processing request rest t.main ∨ .fail ∈ trace) ∧ t.db = s.db ∨
        t.main = .proving (.process rest) ∧ Stores s.db t.db request.id proof
  givenUp : ∀ trace t pc, Run (ProcessCall cfg request rest status) s trace t →
    t.main = .retry request pc (.proving rest) → status.Lost

variable {cfg : Config} {s t : Sys} {request r : Request} {rest : List Request}
  {status : ProofStatus} {proof : Bytes}

theorem not_processing_rest : ¬ Processing request rest (.proving (.process rest)) := by
  rintro (h | ⟨pc, h⟩)
  · injection h with h
    injection h with h
    exact List.cons_ne_self request rest h.symm
  · cases h

theorem not_processing_idle : ¬ Processing request rest .idle := by
  rintro (h | ⟨pc, h⟩) <;> cases h

/-- A stored proof. -/
theorem stores_complete {db : Db} {id : Nat} (hrow : db.rows id = some r) :
    Stores db (db.apply (.updateProofToComplete id proof)) id proof where
  row := by
    have hself : (db.apply (.updateProofToComplete id proof)).rows id =
        (db.rows id).map fun r => { r with status := .complete, proof := some proof } :=
      Function.update_self _ _ _
    rw [hself, hrow]
    exact ⟨_, rfl, rfl, rfl⟩
  others := fun i hi => Function.update_of_ne hi _ _

/-! ## The first call -/

/-- The first call fails, or the status decides. -/
theorem ProcessCall.first {act : Act} (hmain : s.main = .proving (.process (request :: rest)))
    (hid : request.proofRequestId.isSome) (h : ProcessCall cfg request rest status s act t) :
    act = .fail ∧ t = s.goto .idle ∨
      act = .call (.proofStatus status) ∧
        processProofRequestStatus s request rest status = some t := by
  obtain ⟨-, hstep, rfl | ⟨answer, rfl, hanswer⟩⟩ := h
  · refine .inl ⟨rfl, ?_⟩
    have hfail : s.main.onErr.map s.goto = some t := hstep
    rw [hmain] at hfail
    exact (Option.some.inj hfail).symm
  · have hcall : provingStep cfg s (.process (request :: rest)) answer = some t := by
      have hcall : mainStep cfg s answer = some t := hstep
      rwa [mainStep, hmain] at hcall
    cases answer with
    | ok =>
      obtain ⟨hnone, -⟩ := Option.ite_none_right_eq_some.mp hcall
      rw [Option.isNone_iff_eq_none.mp hnone] at hid
      cases hid
    | proofStatus answered =>
      obtain ⟨-, hprocess⟩ := Option.ite_none_right_eq_some.mp hcall
      obtain rfl := hanswer answered rfl
      exact .inr ⟨rfl, hprocess⟩
    | _ => cases hcall

/-- The call that reads the status. -/
theorem processCall_status (hmain : s.main = .proving (.process (request :: rest)))
    (hid : request.proofRequestId.isSome)
    (h : processProofRequestStatus s request rest status = some t) :
    ProcessCall cfg request rest status s (.call (.proofStatus status)) t := by
  refine ⟨.inl hmain, ?_, .inr ⟨_, rfl, fun _ heq => (Answer.proofStatus.inj heq).symm⟩⟩
  show mainStep cfg s (.proofStatus status) = some t
  rw [mainStep, hmain]
  exact (if_pos hid).trans h

/-! ## What the status decides -/

theorem process_of_late (h : status.deadline < status.currentTime) :
    processProofRequestStatus s request rest status =
      some (s.goto (.retry request (.setFailed status.unexecutable) (.proving rest))) :=
  if_pos h

theorem process_of_delivers (hintime : status.currentTime ≤ status.deadline)
    (h : status.Delivers proof) :
    processProofRequestStatus s request rest status =
      some (s.write (.updateProofToComplete request.id proof) (.proving (.process rest))) := by
  obtain ⟨hfulfilled, hproof⟩ := h
  obtain ⟨sp1Proof, hsome, hstored⟩ := Option.bind_eq_some_iff.mp hproof
  dsimp only [processProofRequestStatus]
  rw [if_neg (Nat.not_lt.mpr hintime), hfulfilled, hsome]
  cases sp1Proof with
  | core => cases hstored
  | compressed serialized =>
    obtain rfl := Option.some.inj hstored
    rfl
  | plonk bytes =>
    obtain rfl := Option.some.inj hstored
    rfl
  | groth16 bytes =>
    obtain rfl := Option.some.inj hstored
    rfl

/-- What is handed on is lost, unless it is fulfilled and past its deadline. -/
theorem lost_of_retry
    (hintime : status.fulfillment = .fulfilled → status.currentTime ≤ status.deadline)
    (h : processProofRequestStatus s request rest status = some t)
    (ht : Processing request rest t.main) : status.Lost := by
  by_cases hlate : status.deadline < status.currentTime
  · refine .inr ⟨fun hfulfilled => ?_, hlate⟩
    have hle := hintime hfulfilled
    omega
  · dsimp only [processProofRequestStatus] at h
    rw [if_neg hlate] at h
    split at h
    · split at h <;> cases h
      · exact absurd ht not_processing_idle
      · exact absurd ht not_processing_rest
      · exact absurd ht not_processing_rest
      · exact absurd ht not_processing_rest
    · rename_i hunfulfillable
      exact .inl hunfulfillable
    · cases h
      exact absurd ht not_processing_rest

/-! ## Runs -/

/-- As long as the function goes on, it waits for the status or the request is lost. -/
theorem lost_of_run {trace : List Act} (hmain : s.main = .proving (.process (request :: rest)))
    (hid : request.proofRequestId.isSome)
    (hintime : status.fulfillment = .fulfilled → status.currentTime ≤ status.deadline)
    (h : Run (ProcessCall cfg request rest status) s trace t)
    (ht : Processing request rest t.main) : t = s ∨ status.Lost := by
  have hall : Processing request rest t.main → t = s ∨ status.Lost := by
    refine h.invariant (I := fun u : Sys => Processing request rest u.main → u = s ∨ status.Lost)
      ?_ (fun _ => .inl rfl)
    intro a act b ha hcall hb
    rcases ha hcall.1 with rfl | hlost
    · rcases hcall.first hmain hid with ⟨-, rfl⟩ | ⟨-, hprocess⟩
      · exact absurd hb not_processing_idle
      · exact .inr (lost_of_retry hintime hprocess hb)
    · exact .inr hlost
  exact hall ht

/-- A proof that is delivered in time is stored by the first call, or that call fails. -/
theorem run_of_delivers {trace : List Act} (hmain : s.main = .proving (.process (request :: rest)))
    (hid : request.proofRequestId.isSome) (hintime : status.currentTime ≤ status.deadline)
    (hdelivers : status.Delivers proof)
    (h : Run (ProcessCall cfg request rest status) s trace t) :
    t = s ∨ .fail ∈ trace ∧ t = s.goto .idle ∨
      t = s.write (.updateProofToComplete request.id proof) (.proving (.process rest)) := by
  refine h.traceInvariant (I := fun trace u => u = s ∨ .fail ∈ trace ∧ u = s.goto .idle ∨
    u = s.write (.updateProofToComplete request.id proof) (.proving (.process rest))) ?_ (.inl rfl)
  intro trace a act b ha hcall
  rcases ha with rfl | ⟨-, rfl⟩ | rfl
  · rcases hcall.first hmain hid with ⟨rfl, rfl⟩ | ⟨-, hprocess⟩
    · exact .inr (.inl ⟨List.mem_append_right _ (List.mem_singleton_self _), rfl⟩)
    · rw [process_of_delivers hintime hdelivers] at hprocess
      exact .inr (.inr (Option.some.inj hprocess).symm)
  · exact absurd hcall.1 not_processing_idle
  · exact absurd hcall.1 not_processing_rest

/-- **When a fulfilled proof is kept**: exactly when it is not read as fulfilled after
its deadline. -/
theorem fulfilled_proof_kept_iff (hmain : s.main = .proving (.process (request :: rest)))
    (hrow : s.db.rows request.id = some r) (hid : request.proofRequestId.isSome) :
    KeepsProof cfg s request rest status ↔
      (status.fulfillment = .fulfilled → status.currentTime ≤ status.deadline) := by
  constructor
  · intro hkeeps hfulfilled
    by_contra hlate
    have hlate : status.deadline < status.currentTime := Nat.not_le.mp hlate
    have hcall : ProcessCall cfg request rest status s (.call (.proofStatus status)) _ :=
      processCall_status hmain hid (process_of_late hlate)
    rcases hkeeps.givenUp _ _ _ (.single hcall) rfl with hunfulfillable | ⟨hnot, -⟩
    · rw [hfulfilled] at hunfulfillable
      cases hunfulfillable
    · exact hnot hfulfilled
  · intro hintime
    refine ⟨fun proof hdelivers => ?_, fun proof hdelivers trace t hrun => ?_,
      fun trace t pc hrun ht => ?_⟩
    · have hcall : ProcessCall cfg request rest status s (.call (.proofStatus status)) _ :=
        processCall_status hmain hid (process_of_delivers (hintime hdelivers.1) hdelivers)
      exact ⟨_, _, .single hcall, by simp, not_processing_rest⟩
    · rcases run_of_delivers hmain hid (hintime hdelivers.1) hdelivers hrun with
        rfl | ⟨hfail, rfl⟩ | rfl
      · exact .inl ⟨.inl (.inl hmain), rfl⟩
      · exact .inl ⟨.inr hfail, rfl⟩
      · exact .inr ⟨rfl, stores_complete hrow⟩
    · rcases lost_of_run hmain hid hintime hrun (.inr ⟨pc, ht⟩) with rfl | hlost
      · cases hmain.symm.trans ht
      · exact hlost

/-! ### A proof that comes in while the proposer is down

The range request with id 1 is being proved, until second 100.  Its proof is there when
its status is read. -/

/-- The range request of the first blocks, in status `Prove`. -/
def provingRequest : Request := { exampleRequest with status := .prove, proofRequestId := some 7 }

/-- `handle_proving_requests` has read the request. -/
def examplePolling : Sys :=
  { Sys.start (Db.empty.insert provingRequest) 0 with main := .proving (.process [provingRequest]) }

/-- The status that is read at the time. -/
def exampleFulfilled (currentTime : Nat) : ProofStatus where
  currentTime := currentTime
  deadline := 100
  unexecutable := false
  fulfillment := .fulfilled
  proof := some (.groth16 [1, 2, 3])

theorem fulfilled_proof_kept_iff_example :
    KeepsProof exampleConfig examplePolling provingRequest [] (exampleFulfilled 100) :=
  (fulfilled_proof_kept_iff rfl (r := provingRequest) rfl rfl).mpr fun _ => Nat.le_refl 100

/-- **The failing input.**  The proof is delivered, but read one second after the
deadline: the request is set to `Failed`, without its proof. -/
theorem late_proof_thrown_away :
    (exampleFulfilled 101).Delivers [1, 2, 3] ∧
      (∃ trace t, Run (ProcessCall exampleConfig provingRequest [] (exampleFulfilled 101))
        examplePolling trace t ∧ .fail ∉ trace ∧
          t.db.rows 1 = some { provingRequest with status := .failed, proof := none }) ∧
      ¬ KeepsProof exampleConfig examplePolling provingRequest [] (exampleFulfilled 101) := by
  have hlate : ProcessCall exampleConfig provingRequest [] (exampleFulfilled 101) examplePolling
      (.call (.proofStatus (exampleFulfilled 101))) _ :=
    processCall_status rfl rfl (process_of_late (by decide))
  refine ⟨⟨rfl, rfl⟩, ⟨_, _, .snoc (.single hlate) (l := .call .ok)
    ⟨.inr ⟨_, rfl⟩, rfl, .inr ⟨_, rfl, fun _ heq => by cases heq⟩⟩, by simp, rfl⟩, fun hkeeps => ?_⟩
  rcases hkeeps.givenUp _ _ _ (.single hlate) rfl with hunfulfillable | ⟨hnot, -⟩
  · cases hunfulfillable
  · exact hnot rfl

end OpSuccinct.Validity
