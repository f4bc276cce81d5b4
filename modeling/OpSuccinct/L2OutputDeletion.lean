import OpSuccinct.L2OutputPreRoot

/-! # Deleted outputs

`deleteL2Outputs` writes the length of the list and nothing else: the deleted outputs stay
in their storage slots, and only the first of them is asked for its age.  Both are enough.
The outputs above the first one are younger still, and a slot above the length is read
again only after `push` wrote it (`outputs_deleted`).
-/
namespace OpSuccinct.OutputOracle

open Transition

variable {chain : Chain} {env : Env} {s s' : Oracle} {tr : List Event} {e : Event}

/-! ## What was pushed last -/

/-- The output the event pushes, if any. -/
def Event.pushed (e : Event) : Option OutputProposal :=
  match e.call with
  | .initializeOracle _ params =>
    if e.pre.l2OutputsLength = 0 then some params.startingOutput else none
  | .proposeL2Output _ outputRoot l2BlockNumber _ _ _ =>
    some ⟨outputRoot, toUint128 e.env.msg.timestamp, toUint128 l2BlockNumber⟩
  | .proposeL2OutputOptimistic outputRoot l2BlockNumber _ _ =>
    some ⟨outputRoot, toUint128 e.env.msg.timestamp, toUint128 l2BlockNumber⟩
  | _ => none

/-- The output the event pushes at index `i`, if any. -/
def Event.pushedAt (i : Nat) (e : Event) : Option OutputProposal :=
  if e.pre.l2OutputsLength = i then e.pushed else none

/-- **The last output pushed at an index** in a run. -/
def lastPushed (tr : List Event) (i : Nat) : Option OutputProposal :=
  tr.reverse.findSome? (Event.pushedAt i)

theorem lastPushed_append (tr : List Event) (e : Event) (i : Nat) :
    lastPushed (tr ++ [e]) i = (e.pushedAt i).or (lastPushed tr i) := by
  rw [lastPushed, List.reverse_append, List.reverse_singleton, List.singleton_append,
    List.findSome?_cons]
  cases e.pushedAt i <;> rfl

theorem Event.pushed_eq_none (hblock : e.call.proposedBlock = none)
    (hinit : ∀ version params, e.call ≠ .initializeOracle version params) : e.pushed = none := by
  unfold Event.pushed
  split
  · rename_i version params hcall
    exact absurd hcall (hinit version params)
  · rename_i hcall
    rw [hcall] at hblock
    cases hblock
  · rename_i hcall
    rw [hcall] at hblock
    cases hblock
  · rfl

/-- **An accepted call pushes its output** on top of the list, or has none; then it keeps
the slots, and the list gets no longer. -/
theorem OracleStep.pushed_cases (h : OracleStep chain s e s') :
    (∃ output, e.pushed = some output ∧ s'.l2OutputsLength = s.l2OutputsLength + 1 ∧
      s'.l2OutputsSlot = Function.update s.l2OutputsSlot s.l2OutputsLength output) ∨
    (e.pushed = none ∧ s'.l2OutputsLength ≤ s.l2OutputsLength ∧
      s'.l2OutputsSlot = s.l2OutputsSlot) := by
  obtain ⟨hpre, -, hdispatch⟩ := h.dispatched
  rcases effect_cases hdispatch with ⟨version, params, hcall, hi⟩ | ⟨i, hcall, hd⟩ |
    ⟨block, hblock, -, -, -⟩ | ⟨hblock, hinit, -, hu⟩
  · obtain ⟨-, -, -, -, rfl⟩ := initializeOracle_ok_iff.mp hi
    have hpushed : e.pushed =
        if s.l2OutputsLength = 0 then some params.startingOutput else none := by
      rw [Event.pushed, hcall, hpre]
    rw [hpushed]
    by_cases hempty : s.l2OutputsLength = 0
    · rw [if_pos hempty, pushStarting_of_empty hempty]
      exact .inl ⟨_, rfl, rfl, rfl⟩
    · rw [if_neg hempty, pushStarting_of_nonempty hempty]
      exact .inr ⟨rfl, Nat.le_refl _, rfl⟩
  · obtain ⟨-, hlt, -, -, rfl⟩ := deleteL2Outputs_ok_iff.mp hd
    refine .inr ⟨?_, Nat.le_of_lt hlt, rfl⟩
    rw [Event.pushed, hcall]
  · left
    unfold Event.pushed
    split
    · rename_i hcall
      rw [hcall] at hblock
      cases hblock
    · rename_i hcall
      rw [hcall] at hdispatch
      obtain ⟨-, -, -, -, -, -, rfl⟩ := proposeL2Output_ok hdispatch
      exact ⟨_, rfl, rfl, rfl⟩
    · rename_i hcall
      rw [hcall] at hdispatch
      obtain ⟨-, rfl⟩ := proposeL2OutputOptimistic_ok hdispatch
      exact ⟨_, rfl, rfl, rfl⟩
    · rename_i hvalidity hoptimistic
      cases hcall : e.call with
      | proposeL2Output => exact absurd hcall (hvalidity _ _ _ _ _ _)
      | proposeL2OutputOptimistic => exact absurd hcall (hoptimistic _ _ _ _)
      | _ =>
        rw [hcall] at hblock
        cases hblock
  · exact .inr ⟨Event.pushed_eq_none hblock hinit, Nat.le_of_eq hu.length, hu.slot⟩

/-- **Every stored output is the last one pushed at its index.** -/
theorem slot_eq_lastPushed (hrun : Run (OracleStep chain) Oracle.fresh tr s) :
    ∀ i < s.l2OutputsLength, lastPushed tr i = some (s.l2OutputsSlot i) := by
  refine hrun.traceInvariant
    (I := fun tr s => ∀ i < s.l2OutputsLength, lastPushed tr i = some (s.l2OutputsSlot i)) ?_ ?_
  · intro tr s e s' ih hstep i hi
    obtain ⟨hpre, -, -⟩ := hstep.dispatched
    rw [lastPushed_append, Event.pushedAt, hpre]
    rcases hstep.pushed_cases with ⟨output, hpushed, hlen, hslot⟩ | ⟨hpushed, hlen, hslot⟩
    · rw [hpushed, hslot]
      by_cases htop : s.l2OutputsLength = i
      · rw [if_pos htop, ← htop, Function.update_self]
        rfl
      · rw [if_neg htop, Option.none_or, Function.update_of_ne (Ne.symm htop)]
        exact ih i (by omega)
    · rw [hpushed, ite_self, Option.none_or, hslot]
      exact ih i (by omega)
  · intro i hi
    cases hi

/-! ## Reads -/

theorem getL2Output_of_lt {i : Nat} (h : i < s.l2OutputsLength) :
    getL2Output s i = .ok (s.l2OutputsSlot i) := by
  rw [getL2Output, require, if_pos h]
  rfl

theorem getL2Output_of_ge {i : Nat} (h : s.l2OutputsLength ≤ i) :
    getL2Output s i = .error .panic := by
  rw [getL2Output, require, if_neg (Nat.not_lt.mpr h)]
  rfl

/-- A read of the list is answered with the last output pushed at the index, and a read
beyond it reverts. -/
structure ReadsLastPushed (tr : List Event) (s : Oracle) : Prop where
  stored : ∀ i < s.l2OutputsLength, ∃ output,
    lastPushed tr i = some output ∧ getL2Output s i = .ok output
  beyond : ∀ i, s.l2OutputsLength ≤ i → getL2Output s i = .error .panic

/-- **What a deletion does**, at a time: every removed output is younger than the
finalization period, the ones below stay, none can be read from the index on, and nothing
else changes. -/
structure Deletes (s : Oracle) (now i : Nat) (s' : Oracle) : Prop where
  young : ∀ j, i ≤ j → j < s.l2OutputsLength → ∃ age,
    checkedSub OracleError.panic now (s.l2OutputsSlot j).timestamp = .ok age ∧
      age < s.finalizationPeriodSeconds
  kept : ∀ j < i, getL2Output s' j = getL2Output s j
  gone : ∀ j, i ≤ j → getL2Output s' j = .error .panic
  frame : s' = { s with l2OutputsLength := i }

theorem Aged.deletes {i : Nat} (haged : Aged s env.msg.timestamp)
    (h : deleteL2Outputs env s i = .ok s') : Deletes s env.msg.timestamp i s' := by
  obtain ⟨-, hi, hpast, hyoung, rfl⟩ := deleteL2Outputs_ok_iff.mp h
  refine ⟨fun j hij hj => ?_, fun j hj => ?_, fun j hj => getL2Output_of_ge hj, rfl⟩
  · -- the later output has the later timestamp
    have hlater : (s.l2OutputsSlot i).timestamp ≤ (s.l2OutputsSlot j).timestamp := by
      rcases Nat.eq_or_lt_of_le hij with rfl | hlt
      · exact Nat.le_refl _
      · exact haged.sorted i j hlt hj
    have hpast := haged.past j hj
    exact ⟨_, checkedSub_ok_iff.mpr ⟨hpast, rfl⟩, by omega⟩
  · rw [getL2Output_of_lt hj, getL2Output_of_lt (Nat.lt_trans hj hi)]

/-- **Deletions.**  In every state a run reaches reads are answered with the last outputs
pushed, no age underflows, and a deletion that is accepted does what it should. -/
theorem outputs_deleted (hrun : Run (OracleStep chain) Oracle.fresh tr s) (htimes : Timely tr) :
    ReadsLastPushed tr s ∧
      ∀ env, (∀ e ∈ tr, e.now ≤ env.msg.timestamp) →
        (∀ i < s.l2OutputsLength, ∃ age, checkedSub OracleError.panic env.msg.timestamp
          (s.l2OutputsSlot i).timestamp = .ok age) ∧
        ∀ i s', deleteL2Outputs env s i = .ok s' → Deletes s env.msg.timestamp i s' := by
  refine ⟨⟨fun i hi => ?_, fun i hi => getL2Output_of_ge hi⟩, fun env hnow => ?_⟩
  · exact ⟨_, slot_eq_lastPushed hrun i hi, getL2Output_of_lt hi⟩
  · have haged := aged_of_run hrun htimes env.msg.timestamp hnow
    refine ⟨fun i hi => ⟨_, checkedSub_ok_iff.mpr ⟨haged.past i hi, rfl⟩⟩, fun i s' hdelete => ?_⟩
    exact haged.deletes hdelete

/-! ### An output deleted and proposed again -/

def exampleRedeleted : Oracle := { exampleProposed with l2OutputsLength := 1 }

def exampleReproposed : Oracle := exampleRedeleted.push ⟨0x9008, 2040, 130⟩

def exampleReproposeEvents : List Event :=
  exampleEvents ++
    [⟨exampleProposed, exampleChallengerEnv 2030, .deleteL2Outputs 1, exampleRedeleted⟩,
      ⟨exampleRedeleted, exampleEnv 2040, .proposeL2Output 0x6E 0x9008 130 40 [] 0xB0B,
        exampleReproposed⟩]

theorem exampleReproposed_reached :
    Run (OracleStep exampleChain) Oracle.fresh exampleReproposeEvents exampleReproposed :=
  exampleProposed_reached.trans (.cons ⟨rfl, rfl, rfl⟩ (.single ⟨rfl, rfl, rfl⟩))

theorem outputs_deleted_example :
    (∃ output, lastPushed exampleReproposeEvents 1 = some output ∧
      getL2Output exampleReproposed 1 = .ok output) ∧
    Deletes exampleReproposed 2050 1 { exampleReproposed with l2OutputsLength := 1 } := by
  have htimes : Timely exampleReproposeEvents :=
    (timely_exampleEvents.snoc (by decide) (by decide)).snoc (by decide) (by decide)
  obtain ⟨hreads, hdeletes⟩ := outputs_deleted exampleReproposed_reached htimes
  have hnow : ∀ e ∈ exampleReproposeEvents, e.now ≤ (exampleChallengerEnv 2050).msg.timestamp := by
    decide
  refine ⟨hreads.stored 1 (by decide), ?_⟩
  exact (hdeletes (exampleChallengerEnv 2050) hnow).2 1 _ rfl

end OpSuccinct.OutputOracle
