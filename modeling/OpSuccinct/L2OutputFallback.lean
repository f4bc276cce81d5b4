import OpSuccinct.L2OutputDeletion

/-! # The fallback timeout

Whoever is not an approved proposer may propose once the fallback timeout has passed since
the last proposal.  Its time is not stored: `lastProposalTimestamp` is read from the last
output of the list, so the gate speaks of the outputs still stored.  Proposals whose outputs
were deleted do not count, and one may be accepted right after them
(`fallback_after_deletion`).  Nothing else gets past the gate: it keeps the timeout over a
run exactly when no deleted proposal is within it (`fallback_gate_iff`).
-/
namespace OpSuccinct.OutputOracle

open Transition

variable {chain : Chain} {env : Env} {s s' : Oracle} {tr before : List Event} {e : Event}

/-! ## The events behind the outputs -/

/-- **The events behind the stored outputs pushed them.** -/
theorem pushers_stored (hrun : Run (OracleStep chain) Oracle.fresh tr s) :
    (pushersOf tr).length = s.l2OutputsLength ∧
      ∀ i p, (pushersOf tr)[i]? = some p → p.pushed = some (s.l2OutputsSlot i) := by
  refine hrun.traceInvariant (I := fun tr s => (pushersOf tr).length = s.l2OutputsLength ∧
      ∀ i p, (pushersOf tr)[i]? = some p → p.pushed = some (s.l2OutputsSlot i)) ?_ ?_
  · intro tr s e s' ih hstep
    obtain ⟨haligned, hpushed⟩ := ih
    obtain ⟨hpre, hpost, -⟩ := hstep.dispatched
    rw [pushersOf_append, track, hpre, hpost]
    rcases hstep.pushed_cases with ⟨output, houtput, hlen, hslot⟩ | ⟨-, hlen, hslot⟩
    · rw [if_pos (by omega), hslot, List.length_append, haligned, hlen]
      refine ⟨rfl, fun i p hp => ?_⟩
      by_cases hi : i < s.l2OutputsLength
      · rw [List.getElem?_append_left (by omega)] at hp
        rw [Function.update_of_ne (by omega)]
        exact hpushed i p hp
      · rw [List.getElem?_append_right (by omega), List.getElem?_singleton] at hp
        obtain ⟨hzero, rfl⟩ : i - (pushersOf tr).length = 0 ∧ e = p := by simpa using hp
        obtain rfl : i = s.l2OutputsLength := by omega
        rw [Function.update_self]
        exact houtput
    · rw [if_neg (by omega), hslot, List.length_take]
      refine ⟨by omega, fun i p hp => hpushed i p ?_⟩
      rw [List.getElem?_take] at hp
      split at hp
      · exact hp
      · cases hp
  · refine ⟨rfl, fun i p hp => ?_⟩
    simp [pushersOf] at hp

/-- The event is an accepted proposal, in either mode. -/
def Event.IsProposal (e : Event) : Prop := ∃ block, e.call.proposedBlock = some block

theorem Event.IsProposal.timestamp (h : e.IsProposal) {output : OutputProposal}
    (hpushed : e.pushed = some output) : output.timestamp = toUint128 e.now := by
  obtain ⟨block, hblock⟩ := h
  unfold Event.pushed at hpushed
  split at hpushed
  · rename_i hcall
    rw [hcall] at hblock
    cases hblock
  · exact (Option.some.inj hpushed) ▸ rfl
  · exact (Option.some.inj hpushed) ▸ rfl
  · cases hpushed

/-- A proposal whose output is still stored is not after the last proposal timestamp. -/
theorem now_le_lastProposal (hrun : Run (OracleStep chain) Oracle.fresh tr s)
    (htimes : Timely tr) (hproposal : e.IsProposal) (hstored : e ∈ pushersOf tr) :
    e.now ≤ lastProposalTimestamp s := by
  obtain ⟨haligned, hpushed⟩ := pushers_stored hrun
  obtain ⟨i, hi⟩ := List.mem_iff_getElem?.mp hstored
  have hlt : i < s.l2OutputsLength := by
    rw [← haligned]
    exact (List.getElem?_eq_some_iff.mp hi).1
  have hsmall : e.now < 2 ^ 64 := htimes.2 e (pushersOf_subset tr hstored)
  have htime : (s.l2OutputsSlot i).timestamp = e.now := by
    rw [hproposal.timestamp (hpushed i e hi), toUint128_of_lt (by omega)]
  rw [lastProposalTimestamp, if_neg (by omega), ← htime]
  rcases Nat.lt_or_ge i (s.l2OutputsLength - 1) with hbelow | htop
  · have haged : Aged s (2 ^ 64) :=
      aged_of_run hrun htimes (2 ^ 64) fun e' he' => Nat.le_of_lt (htimes.2 e' he')
    exact haged.sorted i (s.l2OutputsLength - 1) hbelow (by omega)
  · obtain rfl : i = s.l2OutputsLength - 1 := by omega
    exact Nat.le_refl _

/-- The beginning of a timely run is timely. -/
theorem Timely.of_append {after : List Event} (h : Timely (before ++ after)) : Timely before :=
  ⟨(List.pairwise_append.mp h.1).1, fun e he => h.2 e (List.mem_append_left _ he)⟩

/-! ## The gate -/

/-- The account that must be approved: the one that sent the transaction in the validity
mode, and the caller in the optimistic mode. -/
def Call.proposer (env : Env) : Call → Option Address
  | .proposeL2Output _ _ _ _ _ _ => some env.origin
  | .proposeL2OutputOptimistic _ _ _ _ => some env.msg.sender
  | _ => none

/-- **A proposal by fallback**: neither its sender nor the zero address is approved. -/
def Event.ByFallback (e : Event) : Prop :=
  ∃ proposer, e.call.proposer e.env = some proposer ∧ e.pre.approvedProposers proposer = false ∧
    e.pre.approvedProposers zeroAddress = false

/-- What an accepted proposal passed. -/
theorem mayPropose_of_proposer {call : Call} {proposer : Address}
    (hproposer : call.proposer env = some proposer) (h : dispatch chain env s call = .ok s') :
    mayPropose env s proposer = .ok () := by
  cases call with
  | proposeL2Output configName outputRoot block l1Block proof prover =>
    obtain rfl : env.origin = proposer := Option.some.inj hproposer
    simp only [dispatch, proposeL2Output, bind_ok_iff] at h
    obtain ⟨_, -, _, hmay, -⟩ := h
    exact hmay
  | proposeL2OutputOptimistic outputRoot block l1Hash l1Block =>
    obtain rfl : env.msg.sender = proposer := Option.some.inj hproposer
    simp only [dispatch, proposeL2OutputOptimistic, bind_ok_iff] at h
    obtain ⟨_, -, _, hmay, -⟩ := h
    exact hmay
  | _ => cases hproposer

/-- Without approval the timeout since the last proposal timestamp has passed. -/
theorem timeout_of_mayPropose {proposer : Address}
    (hproposer : s.approvedProposers proposer = false)
    (hzero : s.approvedProposers zeroAddress = false)
    (h : mayPropose env s proposer = .ok ()) :
    lastProposalTimestamp s + s.fallbackTimeout < env.msg.timestamp := by
  rw [mayPropose, if_neg (by simp [hproposer, hzero])] at h
  simp only [bind_ok_iff, checkedSub_ok_iff, require_ok_iff] at h
  obtain ⟨_, ⟨hle, rfl⟩, hlt⟩ := h
  omega

/-- No proposal was accepted from the fallback timeout before the event on. -/
def TimeoutPassed (before : List Event) (e : Event) : Prop :=
  ∀ e' ∈ before, e'.IsProposal → e'.now + e.pre.fallbackTimeout < e.now

/-- No proposal whose output was deleted since was accepted from then on. -/
def DeletedBefore (before : List Event) (e : Event) : Prop :=
  ∀ e' ∈ before, e'.IsProposal → e' ∉ pushersOf before → e'.now + e.pre.fallbackTimeout < e.now

/-- **A proposal by fallback** is past the timeout of every proposal still stored. -/
theorem timeoutPassed_iff (hrun : Run (OracleStep chain) Oracle.fresh before s)
    (htimes : Timely before) (hstep : OracleStep chain s e s') (hfallback : e.ByFallback) :
    TimeoutPassed before e ↔ DeletedBefore before e := by
  obtain ⟨hpre, -, hdispatch⟩ := hstep.dispatched
  obtain ⟨proposer, hproposer, hnot, hzero⟩ := hfallback
  rw [hpre] at hnot hzero
  have hpassed : lastProposalTimestamp s + s.fallbackTimeout < e.now :=
    timeout_of_mayPropose hnot hzero (mayPropose_of_proposer hproposer hdispatch)
  constructor
  · exact fun h e' he' hproposal _ => h e' he' hproposal
  · intro h e' he' hproposal
    by_cases hstored : e' ∈ pushersOf before
    · have hle := now_le_lastProposal hrun htimes hproposal hstored
      rw [hpre]
      omega
    · exact h e' he' hproposal hstored

/-- **The fallback gate.**  In a run every proposal by fallback comes after the timeout
exactly when it comes after the timeout of the deleted proposals. -/
theorem fallback_gate_iff (hrun : Run (OracleStep chain) Oracle.fresh tr s)
    (htimes : Timely tr) :
    (∀ before e after, tr = before ++ e :: after → e.ByFallback → TimeoutPassed before e) ↔
      ∀ before e after, tr = before ++ e :: after → e.ByFallback → DeletedBefore before e := by
  have hone : ∀ before e after, tr = before ++ e :: after → e.ByFallback →
      (TimeoutPassed before e ↔ DeletedBefore before e) := by
    rintro before e after rfl hfallback
    obtain ⟨s₁, s₂, hbefore, hstep, -⟩ := hrun.of_append_cons
    exact timeoutPassed_iff hbefore htimes.of_append hstep hfallback
  constructor
  · exact fun h before e after htr hfallback =>
      (hone before e after htr hfallback).mp (h before e after htr hfallback)
  · exact fun h before e after htr hfallback =>
      (hone before e after htr hfallback).mpr (h before e after htr hfallback)

theorem exampleStranger_ne_zero : (0x57A : Address) ≠ zeroAddress := by decide

/-- A call by an account that was never approved. -/
def exampleStrangerEnv (timestamp : Nat) : Env :=
  { exampleEnv timestamp with
    msg := ⟨0x57A, 0, timestamp, exampleStranger_ne_zero⟩
    origin := 0x57A }

/-- The proposal by fallback, of the next block. -/
def exampleFallback (timestamp : Nat) (pre : Oracle) : Event :=
  ⟨pre, exampleStrangerEnv timestamp, .proposeL2Output 0x6E 0x9008 130 40 [] 0x57A,
    pre.push ⟨0x9008, timestamp, 130⟩⟩

def exampleLateEvents : List Event := exampleEvents ++ [exampleFallback 2700 exampleProposed]

theorem fallback_gate_iff_example :
    TimeoutPassed exampleEvents (exampleFallback 2700 exampleProposed) := by
  have hrun : Run (OracleStep exampleChain) Oracle.fresh exampleLateEvents
      (exampleFallback 2700 exampleProposed).post :=
    exampleProposed_reached.trans (.single ⟨rfl, rfl, rfl⟩)
  have htimes : Timely exampleLateEvents := timely_exampleEvents.snoc (by decide) (by decide)
  have hfallback : (exampleFallback 2700 exampleProposed).ByFallback := ⟨0x57A, rfl, rfl, rfl⟩
  refine (fallback_gate_iff hrun htimes).mpr ?_ exampleEvents _ [] rfl hfallback
  intro before e after htr _ e' he' hproposal hdeleted
  obtain ⟨block, hblock⟩ := hproposal
  rcases before with _ | ⟨a, _ | ⟨b, _ | ⟨c, _ | ⟨d, before⟩⟩⟩⟩
  · cases he'
  · obtain ⟨rfl, -⟩ := List.cons.inj htr
    obtain rfl := List.mem_singleton.mp he'
    cases hblock
  · obtain ⟨rfl, htail⟩ := List.cons.inj htr
    obtain ⟨rfl, -⟩ := List.cons.inj htail
    rcases he' with _ | ⟨_, _ | ⟨_, he'⟩⟩
    · cases hblock
    · cases hblock
    · cases he'
  · obtain ⟨rfl, htail⟩ := List.cons.inj htr
    obtain ⟨rfl, hlast⟩ := List.cons.inj htail
    obtain ⟨rfl, -⟩ := List.cons.inj hlast
    rcases he' with _ | ⟨_, _ | ⟨_, _ | ⟨_, he'⟩⟩⟩
    · cases hblock
    · cases hblock
    · exact absurd (.tail _ (.head _)) hdeleted
    · cases he'
  · simp [exampleLateEvents, exampleEvents] at htr

/-! ### A proposal after a deletion

The challenger deletes the output proposed at 2020; at 2040 a stranger proposes, though the
timeout is 600 seconds. -/

def exampleGateEvents : List Event :=
  exampleEvents ++
    [⟨exampleProposed, exampleChallengerEnv 2030, .deleteL2Outputs 1, exampleRedeleted⟩]

/-- The proposal by fallback is accepted twenty seconds after the last proposal. -/
theorem fallback_after_deletion :
    Run (OracleStep exampleChain) Oracle.fresh
        (exampleGateEvents ++ [exampleFallback 2040 exampleRedeleted])
        (exampleFallback 2040 exampleRedeleted).post ∧
      Timely (exampleGateEvents ++ [exampleFallback 2040 exampleRedeleted]) ∧
      (exampleFallback 2040 exampleRedeleted).ByFallback ∧
      ¬ TimeoutPassed exampleGateEvents (exampleFallback 2040 exampleRedeleted) := by
  refine ⟨exampleProposed_reached.trans (.cons ⟨rfl, rfl, rfl⟩ (.single ⟨rfl, rfl, rfl⟩)),
    (timely_exampleEvents.snoc (by decide) (by decide)).snoc (by decide) (by decide),
    ⟨0x57A, rfl, rfl, rfl⟩, fun hpassed => ?_⟩
  · have hlast : ∃ e ∈ exampleGateEvents, e.IsProposal ∧ e.now = 2020 :=
      ⟨_, .tail _ (.tail _ (.head _)), ⟨120, rfl⟩, rfl⟩
    obtain ⟨e, he, hproposal, hnow⟩ := hlast
    have hlt := hpassed e he hproposal
    rw [hnow] at hlt
    exact absurd hlt (by decide)

end OpSuccinct.OutputOracle
