import OpSuccinct.L2OutputOrder

/-! # The pre-root

A validity proposal is proven from the latest stored output, so there has to be
one.  The first initialization stores the starting output at index 0, and no call
but a deletion from index 0 on takes it away: `deleteL2Outputs` asks for an index
within the list whose output is not yet final, and the starting output may be one.
While nobody deletes from index 0 on, the starting output stays for good
(`pre_root_kept`).
-/
namespace OpSuccinct.OutputOracle

open Transition

variable {chain : Chain} {env : Env} {s s' : Oracle}

/-! ## The starting output -/

/-- The starting output, as an initialization stores it. -/
def InitParams.startingOutput (params : InitParams) : OutputProposal :=
  ⟨params.startingOutputRoot, toUint128 params.startingTimestamp,
    toUint128 params.startingBlockNumber⟩

def Event.startingOutput (e : Event) : Option OutputProposal :=
  match e.call with
  | .initializeOracle _ params => some params.startingOutput
  | _ => none

/-- **The starting output of a run**: the one given at the first initialization. -/
def firstStarting (tr : List Event) : Option OutputProposal := tr.findSome? Event.startingOutput

theorem firstStarting_append (tr : List Event) (e : Event) :
    firstStarting (tr ++ [e]) = (firstStarting tr).or e.startingOutput := by
  simp [firstStarting, List.findSome?_append]

/-- Element 0 exists and is the given output. -/
def StartsWith (s : Oracle) (output : OutputProposal) : Prop :=
  0 < s.l2OutputsLength ∧ s.l2OutputsSlot 0 = output

/-- Before the first initialization nothing but a checkpoint is accepted. -/
theorem dormant_step {call : Call} (h : Dormant s) (hstep : dispatch chain env s call = .ok s')
    (hcall : ∀ v p, call ≠ .initializeOracle v p) : Dormant s' := by
  obtain ⟨howner, hmode, hlen⟩ := h
  rcases effect_cases hstep with ⟨version, params, hinit, -⟩ | ⟨i, -, hd⟩ | ⟨block, -, -, -, hp⟩ |
    ⟨-, -, -, hu⟩
  · exact absurd hinit (hcall version params)
  · obtain ⟨-, hi, -⟩ := deleteL2Outputs_ok_iff.mp hd
    omega
  · rcases hp.live with hlive | hlive
    · rw [hmode] at hlive
      cases hlive
    · omega
  · rcases hu.authorized with hsender | ⟨howner', hmode'⟩
    · exact absurd (hsender.trans howner) env.msg.sender_ne_zero
    · exact ⟨howner'.trans howner, hmode'.trans hmode, hu.length.trans hlen⟩

/-- **Every other call keeps element 0.** -/
theorem StartsWith.step {output : OutputProposal} {call : Call} (h : StartsWith s output)
    (hstep : dispatch chain env s call = .ok s') (hcall : call ≠ .deleteL2Outputs 0) :
    StartsWith s' output := by
  obtain ⟨hlen, hfirst⟩ := h
  rcases effect_cases hstep with ⟨version, params, -, hi⟩ | ⟨i, rfl, hd⟩ | ⟨block, -, -, -, hp⟩ |
    ⟨-, -, -, hu⟩
  · obtain ⟨-, -, -, -, rfl⟩ := initializeOracle_ok_iff.mp hi
    rw [pushStarting_of_nonempty (by omega)]
    exact ⟨hlen, hfirst⟩
  · obtain ⟨-, -, -, -, rfl⟩ := deleteL2Outputs_ok_iff.mp hd
    have hi : 0 < i := by
      by_contra hzero
      obtain rfl : i = 0 := by omega
      exact hcall rfl
    exact ⟨hi, hfirst⟩
  · obtain ⟨root, rfl⟩ := hp.pushed
    have hne : 0 ≠ s.l2OutputsLength := by omega
    exact ⟨Nat.succ_pos _, by simp [Oracle.push, hne, hfirst]⟩
  · rw [StartsWith, hu.length, hu.slot]
    exact ⟨hlen, hfirst⟩

/-- The first initialization stores its starting output. -/
theorem startsWith_of_initialize {version : Nat} {params : InitParams} (h : Dormant s)
    (hinit : initializeOracle chain env s version params = .ok s') :
    StartsWith s' params.startingOutput := by
  obtain ⟨-, -, -, -, rfl⟩ := initializeOracle_ok_iff.mp hinit
  rw [pushStarting_of_empty h.2.2]
  exact ⟨by simp [Oracle.push], by simp [Oracle.push, h.2.2, InitParams.startingOutput]⟩

/-! ## Runs -/

/-- There is no output before the first initialization. -/
theorem dormant_of_run {tr : List Event} (hrun : Run (OracleStep chain) Oracle.fresh tr s)
    (hnone : firstStarting tr = none) : Dormant s := by
  refine hrun.traceInvariant (I := fun tr s => firstStarting tr = none → Dormant s) ?_ ?_ hnone
  · intro tr s e s' ih hstep hnone
    obtain ⟨-, -, hdispatch⟩ := hstep.dispatched
    rw [firstStarting_append, Option.or_eq_none_iff] at hnone
    refine dormant_step (ih hnone.1) hdispatch fun v p hcall => ?_
    have hsome := hnone.2
    rw [Event.startingOutput, hcall] at hsome
    cases hsome
  · exact fun _ => ⟨rfl, rfl, rfl⟩

/-- No accepted call of the run deletes from index 0 on. -/
def KeepsFirst (tr : List Event) : Prop := ∀ e ∈ tr, e.call ≠ .deleteL2Outputs 0

theorem startsWith_of_run {tr : List Event} (hrun : Run (OracleStep chain) Oracle.fresh tr s)
    (hkeeps : KeepsFirst tr) {output : OutputProposal} (houtput : firstStarting tr = some output) :
    StartsWith s output := by
  induction hrun with
  | nil => cases houtput
  | snoc hrun hstep ih =>
    rename_i s s' tr e
    obtain ⟨-, -, hdispatch⟩ := hstep.dispatched
    have hbefore : KeepsFirst tr := fun e' he' => hkeeps e' (List.mem_append_left _ he')
    rw [firstStarting_append] at houtput
    cases hfirst : firstStarting tr with
    | some first =>
      rw [hfirst] at houtput
      obtain rfl : first = output := Option.some.inj houtput
      exact (ih hbefore hfirst).step hdispatch (hkeeps e (by simp))
    | none =>
      -- the event is the first initialization
      have hdormant := dormant_of_run hrun hfirst
      rw [hfirst, Option.none_or, Event.startingOutput] at houtput
      split at houtput
      · rename_i version params hcall
        obtain rfl := Option.some.inj houtput
        rw [hcall] at hdispatch
        exact startsWith_of_initialize hdormant hdispatch
      · cases houtput

/-! ## What the pre-root is for -/

/-- **Everything a validity proposal needs but a latest output**: the guards pass, and
the proof verifies from the output root on top of the list. -/
structure Proposable (env : Env) (s : Oracle) (configName outputRoot : Bytes32)
    (block l1Block : Nat) (proof : Bytes) (prover : Address) : Prop where
  mode : s.optimisticMode = false
  permitted : mayPropose env s env.origin = .ok ()
  next : ∃ next, nextBlockNumber s = .ok next ∧ next ≤ block
  past : ∃ t, computeL2Timestamp s block = .ok t ∧ t < env.msg.timestamp
  root : outputRoot ≠ 0
  config : isValidOpSuccinctConfig (s.opSuccinctConfigs configName) = true
  checkpointed : s.historicBlockHashes l1Block ≠ 0
  verified : env.verifyProof s.verifier (s.opSuccinctConfigs configName).aggregationVkey
    (publicValues (s.historicBlockHashes l1Block)
      (s.l2OutputsSlot (s.l2OutputsLength - 1)).outputRoot outputRoot block
      (s.opSuccinctConfigs configName) prover).abiEncode proof = true

theorem proposeL2Output_accepted_iff {configName outputRoot : Bytes32} {block l1Block : Nat}
    {proof : Bytes} {prover : Address} :
    (∃ s', proposeL2Output env s configName outputRoot block l1Block proof prover = .ok s') ↔
      Proposable env s configName outputRoot block l1Block proof prover ∧
        0 < s.l2OutputsLength := by
  simp only [proposeL2Output, whenNotOptimistic, latestOutputIndex, bind_ok_iff, require_ok_iff,
    checkedSub_ok_iff, pure_ok_iff]
  constructor
  · rintro ⟨_, _, hmode, _, hmay, next, hnext, _, hle, t, ht, _, hlt, _, hroot, _, hconfig, _,
      hhash, _, ⟨hlen, rfl⟩, _, hproof, -⟩
    exact ⟨⟨hmode, hmay, ⟨next, hnext, hle⟩, ⟨t, ht, hlt⟩, hroot, hconfig, hhash, hproof⟩, hlen⟩
  · rintro ⟨h, hlen⟩
    obtain ⟨next, hnext, hle⟩ := h.next
    obtain ⟨t, ht, hlt⟩ := h.past
    exact ⟨_, (), h.mode, (), h.permitted, next, hnext, (), hle, t, ht, (), hlt, (), h.root, (),
      h.config, (), h.checkpointed, _, ⟨hlen, rfl⟩, (), h.verified, rfl⟩

/-- The loop reverts only where the EVM panics. -/
theorem searchOutput_error {n lo hi : Nat} {e : OracleError}
    (h : searchOutput s n lo hi = .error e) : e = .panic := by
  fun_induction searchOutput s n lo hi with
  | case1 lo hi hlt ihabove ihbelow =>
    simp only [getL2Output, bind_error_iff, require_error_iff] at h
    rcases h with ⟨-, rfl⟩ | ⟨_, -, (⟨-, rfl⟩ | ⟨_, -, hpure⟩) | ⟨output, -, hrest⟩⟩
    · rfl
    · rfl
    · cases hpure
    · split at hrest
      · exact ihabove hrest
      · exact ihbelow hrest
  | case2 lo hi _ => cases h

/-- **There is a pre-root**: element 0 is the starting output, `latestOutputIndex()` does
not underflow, no lookup finds an empty list, and a proposal that only lacks a latest
output is accepted. -/
structure HasPreRoot (s : Oracle) (starting : OutputProposal) : Prop where
  nonempty : 0 < s.l2OutputsLength
  first : s.l2OutputsSlot 0 = starting
  latest : ∃ i, latestOutputIndex s = .ok i ∧ i < s.l2OutputsLength
  lookup : ∀ n, getL2OutputIndexAfter s n ≠ .error
    (.revert "L2OutputOracle: cannot get output as no outputs have been proposed yet")
  proposal : ∀ env configName outputRoot block l1Block proof prover,
    Proposable env s configName outputRoot block l1Block proof prover →
      ∃ s', proposeL2Output env s configName outputRoot block l1Block proof prover = .ok s'

theorem hasPreRoot_iff {output : OutputProposal} : HasPreRoot s output ↔ StartsWith s output := by
  constructor
  · exact fun h => ⟨h.nonempty, h.first⟩
  · rintro ⟨hlen, hfirst⟩
    refine ⟨hlen, hfirst, ⟨_, checkedSub_ok_iff.mpr ⟨hlen, rfl⟩, by omega⟩, fun n herror => ?_,
      fun _ _ _ _ _ _ _ h => proposeL2Output_accepted_iff.mpr ⟨h, hlen⟩⟩
    simp only [getL2OutputIndexAfter, bind_error_iff, require_error_iff] at herror
    rcases herror with ⟨-, hreason⟩ | ⟨_, -, ⟨hempty, -⟩ | ⟨_, -, hsearch⟩⟩
    · exact absurd (OracleError.revert.inj hreason) (by decide)
    · exact hempty hlen
    · cases searchOutput_error hsearch

/-- **The pre-root.**  From the first initialization on every state a run reaches has the
starting output as its pre-root, exactly when no accepted call deletes from index 0 on. -/
theorem pre_root_kept {tr : List Event} (hrun : Run (OracleStep chain) Oracle.fresh tr s) :
    (∀ before e after, tr = before ++ e :: after → ∀ starting,
      firstStarting (before ++ [e]) = some starting → HasPreRoot e.post starting) ↔
        KeepsFirst tr := by
  constructor
  · intro h e he hcall
    obtain ⟨before, after, rfl⟩ := List.append_of_mem he
    obtain ⟨a, b, hbefore, hstep, -⟩ := hrun.of_append_cons
    obtain ⟨-, hpost, hdispatch⟩ := hstep.dispatched
    rw [hcall] at hdispatch
    obtain ⟨-, hlen, -, -, hb⟩ := deleteL2Outputs_ok_iff.mp hdispatch
    -- what was deleted had been stored, so the run was initialized
    have hsome : ∃ starting, firstStarting (before ++ [e]) = some starting := by
      rw [← Option.ne_none_iff_exists']
      intro hnone
      rw [firstStarting_append, Option.or_eq_none_iff] at hnone
      have hdormant := dormant_of_run hbefore hnone.1
      have hempty := hdormant.2.2
      omega
    obtain ⟨starting, hstarting⟩ := hsome
    have hpre := (h before e after rfl starting hstarting).nonempty
    rw [hpost, ← hb] at hpre
    exact Nat.lt_irrefl 0 hpre
  · rintro hkeeps before e after rfl starting hstarting
    obtain ⟨a, b, hbefore, hstep, -⟩ := hrun.of_append_cons
    obtain ⟨-, rfl, -⟩ := hstep.dispatched
    refine hasPreRoot_iff.mpr (startsWith_of_run (hbefore.snoc hstep) (fun e' he' => ?_) hstarting)
    refine hkeeps e' ?_
    rw [List.append_cons]
    exact List.mem_append_left _ he'

/-! ### A starting output and its deletion

The challenger deletes the starting output while it is younger than the finalization
period; the oracle then has no latest output. -/

theorem pre_root_kept_example :
    HasPreRoot exampleProposed exampleParams.startingOutput := by
  have hkeeps : KeepsFirst exampleEvents := by
    simp only [KeepsFirst, exampleEvents, List.forall_mem_cons, List.not_mem_nil, false_implies,
      implies_true, and_true]
    refine ⟨fun hcall => ?_, fun hcall => ?_, fun hcall => ?_⟩
    · cases hcall
    · cases hcall
    · cases hcall
  exact (pre_root_kept exampleProposed_reached).mpr hkeeps
    (exampleEvents.take 2) _ [] rfl _ rfl

theorem exampleChallenger_ne_zero : (0xC4A : Address) ≠ zeroAddress := by decide

/-- A call by the challenger. -/
def exampleChallengerEnv (timestamp : Nat) : Env :=
  { exampleEnv timestamp with msg := ⟨0xC4A, 0, timestamp, exampleChallenger_ne_zero⟩ }

def exampleDeleted : Oracle := { exampleInitialized with l2OutputsLength := 0 }

def exampleDeleteEvents : List Event :=
  [⟨Oracle.fresh, exampleEnv 2000, .initializeOracle initializerVersion exampleParams,
      exampleInitialized⟩,
    ⟨exampleInitialized, exampleChallengerEnv 2010, .deleteL2Outputs 0, exampleDeleted⟩]

/-- A reachable, initialized state without a latest output. -/
theorem starting_output_deleted :
    Run (OracleStep exampleChain) Oracle.fresh exampleDeleteEvents exampleDeleted ∧
      firstStarting exampleDeleteEvents = some exampleParams.startingOutput ∧
      latestOutputIndex exampleDeleted = .error .panic ∧
      ¬ HasPreRoot exampleDeleted exampleParams.startingOutput := by
  refine ⟨.cons ⟨rfl, rfl, rfl⟩ (.single ⟨rfl, rfl, rfl⟩), rfl, rfl, fun h => ?_⟩
  exact Nat.lt_irrefl 0 h.nonempty

end OpSuccinct.OutputOracle
