import OpSuccinct.AggregationAgreement
import OpSuccinct.L2OutputChain
import OpSuccinct.RequestVersions

/-! # The proposer, its provers and its chains

The validity proposer together with what its proofs are made from and what they are
checked against: the stdin that `generate_proof_stdin` built for a task, the stdin the
prover network has under a proof id, every proof that was made, the L1 with its latest
and its finalized block, and the L2 output oracle.  The process may come back from a
restart with another configuration; only the commitments, the chains and the oracle stay.

The prover is honest and the chains are canonical: a range proof commits the canonical
boot info of its blocks, an aggregation proof what the program commits on its stdin, and
a proof id is given out once.
-/
namespace OpSuccinct.Proving

open AggregationHost OutputOracle Transition
open Aggregation (Runtime)
open Validity (Request Config Sys asI64 IsByStart ProofStatus SP1Proof.stored)

/-- `as u64` of an `i64`. -/
def asU64 (n : Int) : Nat := (n % 2 ^ 64).toNat

/-- `U256::from` of an `i64`, which panics on a negative one. -/
def u256OfI64 (n : Int) : Option Nat := if 0 ≤ n then some (asU64 n) else none

/-! ## The surroundings -/

/-- What the process runs with: the proposer's configuration, the address of the dispute
game factory, zero for none, and the name of the configuration in the oracle. -/
structure RelayConfig extends Config where
  dgfAddress : Address
  opSuccinctConfigNameHash : Bytes32

/-- **What is outside the proposer**: the aggregation program and its verifier, the host's
libraries, the canonical L1, whose hashes the oracle sees, and the canonical L2.  What
the host serializes as inputs the program reads back. -/
structure World (Header Proof Vk : Type) where
  rt : Runtime Header
  vm : Zkvm Proof Vk
  host : Host Header Proof Vk
  rangeVk : Vk
  l1 : L1Chain rt
  chain : Chain
  outputRoot : Nat → Bytes32
  rollupConfigHash : Bytes32
  decodeInputs_serialize : ∀ inputs bytes, host.serializeInputs inputs = some bytes →
    rt.decodeInputs bytes = some inputs
  blockHash_eq : ∀ n, n ≤ l1.head → chain.blockHash n = rt.hashSlow (l1.header n)

/-- What is on the stdin of a proof: for a range proof its blocks and the L1 head, for an
aggregation proof what was built from the rows that were read. -/
inductive Job (Proof Vk : Type)
  | range (startBlock endBlock : Int) (l1Head : Nat)
  | aggregation (rows : List Request) (stdin : SP1Stdin Proof Vk)

/-- A proof that was made for a request. -/
structure Made (Proof Vk : Type) where
  id : Nat
  proof : Bytes
  job : Job Proof Vk

/-- The proposer and its surroundings.  `jobs` has what the task with a key has on stdin,
`requested` what the prover network has under a proof id, and `l1Header` the block
`create_aggregation_proofs` got as the latest one. -/
structure State (Proof Vk : Type) where
  cfg : RelayConfig
  sys : Sys
  oracle : Oracle
  l1Latest : Nat
  l1Finalized : Nat
  l1Header : Option Nat
  jobs : Nat → Option (Job Proof Vk)
  requested : Bytes32 → Option (Job Proof Vk)
  proofs : List (Made Proof Vk)

/-- The proposer starts for the first time. -/
def State.start {Proof Vk : Type} (cfg : RelayConfig) (latest : Nat) (oracle : Oracle) :
    State Proof Vk where
  cfg := cfg
  sys := Sys.start .empty latest
  oracle := oracle
  l1Latest := 0
  l1Finalized := 0
  l1Header := none
  jobs := fun _ => none
  requested := fun _ => none
  proofs := []

inductive Label
  /-- The process ends, and starts again with another configuration. -/
  | restart (cfg : RelayConfig)
  /-- A call of the oracle, by anyone. -/
  | oracle (env : Env) (call : Call)
  /-- L1 blocks are added and finalized. -/
  | l1 (latest finalized : Nat)
  /-- `get_l1_header(BlockId::latest())` of `create_aggregation_proofs`. -/
  | getL1Header
  /-- The transaction that checkpoints the block. -/
  | checkpoint (env : Env)
  /-- `generate_proof_stdin` of a task: an aggregation request reads the rows, a range
  request uses the L1 head. -/
  | generateProofStdin (key : Nat) (rows : List Request) (l1Head : Nat)
  /-- Every other step of the proposer. -/
  | proposer (act : Validity.Act)

/-- The configuration after a restart. -/
def RelayConfig.replacedBy (old new : RelayConfig) : RelayConfig :=
  { new with
    toConfig := { new.toConfig with scope := old.scope, l2ooAddress := old.l2ooAddress } }

section Step
variable {Header Proof Vk : Type} (W : World Header Proof Vk) (s : State Proof Vk)

/-- What the range program commits on the canonical chains. -/
def World.bootInfo (startBlock endBlock : Int) (l1Head : Nat) : BootInfoStruct where
  l1Head := W.rt.hashSlow (W.l1.header l1Head)
  l2PreRoot := W.outputRoot (asU64 startBlock)
  l2PostRoot := W.outputRoot (asU64 endBlock)
  l2BlockNumber := UInt64.ofNat (asU64 endBlock)
  rollupConfigHash := W.rollupConfigHash

/-- **An honest prover's proof** of a job. -/
def Job.proves (proof : Bytes) : Job Proof Vk → Bool
  | .range startBlock endBlock l1Head =>
    match W.host.deserializeProof proof with
    | none => false
    | some proofWithPv =>
      decide (W.host.readBootInfo proofWithPv.publicValues =
        some (W.bootInfo startBlock endBlock l1Head))
  | .aggregation _ stdin => (mainOn W.rt W.vm stdin).isOk

/-- The proof a status delivers. -/
def delivered (status : ProofStatus) : Option Bytes :=
  match status.fulfillment with
  | .fulfilled => status.proof.bind SP1Proof.stored
  | .requested | .unfulfillable => none

/-- `generate_proof_stdin`. -/
def stdinJob (request : Request) (rows : List Request) (l1Head : Nat) : Option (Job Proof Vk) :=
  match request.reqType with
  | .range =>
    if l1Head ≤ s.l1Finalized then some (.range request.startBlock request.endBlock l1Head)
    else none
  | .aggregation =>
    if IsByStart (s.sys.db.getConsecutiveCompleteRangeProofs (s.cfg.scopeOf request)
        request.startBlock request.endBlock) rows then
      match generateAggProofStdin W.host W.l1 W.rangeVk (fun _ _ _ => rows)
        s.cfg.scope.commitments request with
      | .ok stdin => some (.aggregation rows stdin)
      | .error _ => none
    else none

/-- A step of the proposer, with the rest already as it is after it. -/
def lift (act : Validity.Act) : Option (State Proof Vk) :=
  (Validity.step s.cfg.toConfig s.sys act).map fun sys => { s with sys }

/-- A proof is made for a request. -/
def State.make (id : Nat) (proof : Bytes) (job : Job Proof Vk) : State Proof Vk :=
  { s with proofs := s.proofs ++ [⟨id, proof, job⟩] }

def proposerStep (act : Validity.Act) : Option (State Proof Vk) :=
  match act with
  | .restart | .task _ .generateProofStdin | .call (.checkpointed _ _) => none
  | .task key (.complete proof) =>
    match s.sys.procs key, s.jobs key with
    | some task, some job =>
      if job.proves W proof then lift (s.make task.datum.id proof job) act else none
    | _, _ => none
  | .task key (.prove proofId) =>
    match s.jobs key, s.requested proofId with
    | some job, none =>
      lift { s with requested := Function.update s.requested proofId (some job) } act
    | _, _ => none
  | .call (.proofStatus status) =>
    match s.sys.main, delivered status with
    | .proving (.process (request :: _)), some proof =>
      match request.proofRequestId.bind s.requested with
      | some job => if job.proves W proof then lift (s.make request.id proof job) act else none
      | none => none
    | _, _ => lift s act
  | .start _ => lift { s with l1Header := none } act
  | act => lift s act

/-- **A step** of the proposer or its surroundings. -/
def step : Label → Option (State Proof Vk)
  | .restart cfg => lift { s with cfg := s.cfg.replacedBy cfg } .restart
  | .oracle env call =>
    match execute W.chain env s.oracle call with
    | .ok oracle => some { s with oracle }
    | .error _ => none
  | .l1 latest finalized =>
    if s.l1Latest ≤ latest ∧ s.l1Finalized ≤ finalized ∧ finalized ≤ latest ∧
        latest ≤ W.l1.head then
      some { s with l1Latest := latest, l1Finalized := finalized }
    else none
  | .getL1Header =>
    match s.sys.main with
    | .agg (.checkpoint _ _) => some { s with l1Header := some s.l1Latest }
    | _ => none
  | .checkpoint env =>
    match s.l1Header with
    | none => none
    | some n =>
      match execute W.chain env s.oracle (.checkpointBlockHash n) with
      | .ok oracle =>
        lift { s with oracle }
          (.call (.checkpointed (asI64 n) (W.rt.hashSlow (W.l1.header n))))
      | .error _ => none
  | .generateProofStdin key rows l1Head =>
    match s.sys.procs key with
    | none => none
    | some task =>
      match stdinJob W s task.datum rows l1Head with
      | none => none
      | some job =>
        lift { s with jobs := Function.update s.jobs key (some job) }
          (.task key .generateProofStdin)
  | .proposer act => proposerStep W s act

end Step

/-! ## What steps do -/

section Cases
variable {Header Proof Vk : Type} (W : World Header Proof Vk) (s : State Proof Vk)

/-- No proof is made, requested or built by the step, and no header is dropped. -/
def Plain : Validity.Act → Prop
  | .restart | .start _ | .call (.checkpointed _ _) => False
  | .task _ act => act ≠ .generateProofStdin ∧ (∀ proof, act ≠ .complete proof) ∧
      ∀ proofId, act ≠ .prove proofId
  | .call (.proofStatus status) => ∀ request rest proof,
      s.sys.main = .proving (.process (request :: rest)) → delivered status ≠ some proof
  | _ => True

/-- **What happens around a step of the proposer.** -/
inductive Around : Validity.Act → State Proof Vk → Prop
  | restart (cfg : RelayConfig) : Around .restart { s with cfg := s.cfg.replacedBy cfg }
  | checkpoint {n : Nat} {env : Env} {oracle : Oracle} : s.l1Header = some n →
      execute W.chain env s.oracle (.checkpointBlockHash n) = .ok oracle →
      Around (.call (.checkpointed (asI64 n) (W.rt.hashSlow (W.l1.header n)))) { s with oracle }
  | stdin {key : Nat} {task : Validity.Task} {rows : List Request} {l1Head : Nat}
      {job : Job Proof Vk} : s.sys.procs key = some task →
      stdinJob W s task.datum rows l1Head = some job →
      Around (.task key .generateProofStdin)
        { s with jobs := Function.update s.jobs key (some job) }
  | complete {key : Nat} {task : Validity.Task} {proof : Bytes} {job : Job Proof Vk} :
      s.sys.procs key = some task → s.jobs key = some job → job.proves W proof = true →
      Around (.task key (.complete proof)) (s.make task.datum.id proof job)
  | prove {key : Nat} {proofId : Bytes32} {job : Job Proof Vk} : s.jobs key = some job →
      s.requested proofId = none →
      Around (.task key (.prove proofId))
        { s with requested := Function.update s.requested proofId (some job) }
  | store {request : Request} {rest : List Request} {status : ProofStatus} {proof : Bytes}
      {proofId : Bytes32} {job : Job Proof Vk} :
      s.sys.main = .proving (.process (request :: rest)) → delivered status = some proof →
      request.proofRequestId = some proofId → s.requested proofId = some job →
      job.proves W proof = true →
      Around (.call (.proofStatus status)) (s.make request.id proof job)
  | start (f : Validity.LoopFn) : Around (.start f) { s with l1Header := none }
  | plain {act : Validity.Act} : Plain s act → Around act s

/-- **What happens without the proposer**: calls of the oracle, blocks of the L1, and the
answer of its node. -/
inductive Aside : Label → State Proof Vk → Prop
  | oracle {env : Env} {call : Call} {oracle : Oracle} :
      execute W.chain env s.oracle call = .ok oracle → Aside (.oracle env call) { s with oracle }
  | l1 {latest finalized : Nat} : s.l1Latest ≤ latest → s.l1Finalized ≤ finalized →
      finalized ≤ latest → latest ≤ W.l1.head →
      Aside (.l1 latest finalized) { s with l1Latest := latest, l1Finalized := finalized }
  | getL1Header {latestProposed : Nat} {highestProven : Int} :
      s.sys.main = .agg (.checkpoint latestProposed highestProven) →
      Aside .getL1Header { s with l1Header := some s.l1Latest }

/-- The step of the proposer that a label stands for. -/
def Label.ActsAs : Label → Validity.Act → Prop
  | .restart _, act => act = .restart
  | .checkpoint _, act => ∃ number hash, act = .call (.checkpointed number hash)
  | .generateProofStdin key _ _, act => act = .task key .generateProofStdin
  | .proposer act', act => act = act'
  | .oracle _ _, _ | .l1 _ _, _ | .getL1Header, _ => False

variable {W s} {t : State Proof Vk}

theorem proposerStep_cases {act : Validity.Act} (h : proposerStep W s act = some t) :
    ∃ u, Around W s act u ∧ lift u act = some t := by
  unfold proposerStep at h
  split at h
  · cases h
  · cases h
  · cases h
  · split at h
    · rename_i htask hjob
      obtain ⟨hproves, h⟩ := Option.ite_none_right_eq_some.mp h
      exact ⟨_, .complete htask hjob hproves, h⟩
    · cases h
  · split at h
    · rename_i hjob hnone
      exact ⟨_, .prove hjob hnone, h⟩
    · cases h
  · split at h
    · rename_i hmain hproof
      split at h
      · rename_i job hjob
        obtain ⟨proofId, hid, hjob⟩ := Option.bind_eq_some_iff.mp hjob
        obtain ⟨hproves, h⟩ := Option.ite_none_right_eq_some.mp h
        exact ⟨_, .store hmain hproof hid hjob hproves, h⟩
      · cases h
    · rename_i hnot
      exact ⟨s,
        .plain fun request rest proof hmain hproof => hnot request rest proof hmain hproof, h⟩
  · exact ⟨_, .start _, h⟩
  · rename_i hrestart hstdin hcheckpoint hcomplete hprove hstatus hstart
    refine ⟨s, .plain ?_, h⟩
    cases act with
    | restart => exact absurd rfl hrestart
    | start f => exact absurd rfl (hstart f)
    | task key act =>
      refine ⟨?_, ?_, ?_⟩
      · rintro rfl
        exact hstdin key rfl
      · rintro proof rfl
        exact hcomplete key proof rfl
      · rintro proofId rfl
        exact hprove key proofId rfl
    | call answer =>
      cases answer with
      | checkpointed number hash => exact absurd rfl (hcheckpoint number hash)
      | proofStatus status => exact absurd rfl (hstatus status)
      | _ => trivial
    | _ => trivial

/-- **A step** is one of the proposer, or leaves it alone. -/
theorem step_cases {label : Label} (h : step W s label = some t) :
    (∃ act u, label.ActsAs act ∧ Around W s act u ∧ lift u act = some t) ∨
      Aside W s label t := by
  cases label with
  | restart cfg => exact .inl ⟨_, _, rfl, .restart cfg, h⟩
  | oracle env call =>
    dsimp only [step] at h
    split at h
    · rename_i hcall
      cases h
      exact .inr (.oracle hcall)
    · cases h
  | l1 latest finalized =>
    obtain ⟨⟨hlatest, hfinalized, hle, hhead⟩, h⟩ := Option.ite_none_right_eq_some.mp h
    cases h
    exact .inr (.l1 hlatest hfinalized hle hhead)
  | getL1Header =>
    dsimp only [step] at h
    split at h
    · rename_i hmain
      cases h
      exact .inr (.getL1Header hmain)
    · cases h
  | checkpoint env =>
    dsimp only [step] at h
    split at h
    · cases h
    · rename_i hn
      split at h
      · rename_i hcall
        exact .inl ⟨_, _, ⟨_, _, rfl⟩, .checkpoint hn hcall, h⟩
      · cases h
  | generateProofStdin key rows l1Head =>
    dsimp only [step] at h
    split at h
    · cases h
    · rename_i htask
      split at h
      · cases h
      · rename_i hjob
        exact .inl ⟨_, _, rfl, .stdin htask hjob, h⟩
  | proposer act =>
    obtain ⟨u, haround, h⟩ := proposerStep_cases h
    exact .inl ⟨act, u, rfl, haround, h⟩

theorem lift_some {u : State Proof Vk} {act : Validity.Act} (h : lift u act = some t) :
    ∃ sys, Validity.step u.cfg.toConfig u.sys act = some sys ∧ t = { u with sys } := by
  obtain ⟨sys, hsys, rfl⟩ := Option.map_eq_some_iff.mp h
  exact ⟨sys, hsys, rfl⟩

/-- Only a restart brings another configuration. -/
theorem Around.cfg_eq {u : State Proof Vk} {act : Validity.Act} (h : Around W s act u) :
    act = .restart ∨ u.cfg = s.cfg := by
  cases h with
  | restart cfg => exact .inl rfl
  | _ => exact .inr rfl

end Cases

end OpSuccinct.Proving
