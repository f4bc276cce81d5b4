import OpSuccinct.Settlement

/-! # Settlement over whole runs

A run of the contract is a sequence of accepted transactions.  Each of them was
prepared against the state its predecessor left, so the settled states form one
chain and no update overwrites another; and a proof that verifies ends a chain of
proofs from an `initialize` (`settlement_safe`).

The contract recognizes that it is not initialized by its state being all zero.
Initialization happens once in exactly the runs that never go back to zero after
it (`initialized_once_iff`).
-/
namespace OpSuccinct.Settlement

open Transition

/-! ## The chain behind a proof -/

/-- The proofs behind a proof, the first one first, and the proof itself. -/
def Proof.chain : Proof → List Proof
  | .ofInitialize transition initialState => [.ofInitialize transition initialState]
  | .ofUpdateState transition previousStateProof externalInputs =>
    previousStateProof.chain ++ [.ofUpdateState transition previousStateProof externalInputs]

/-- Neighbours in a chain: the second was made from the first, and goes on from its new
state. -/
def Continues (p q : Proof) : Prop :=
  (∃ externalInputs, q = .ofUpdateState q.publicInput p externalInputs) ∧
    q.publicInput.previousState = p.publicInput.newState

/-- **The proof is well founded**: the given chain of verified proofs leads from an
`initialize` of the zero state up to it. -/
structure WellFounded (chain : List Proof) (proof : Proof) : Prop where
  first : ∃ initialState newState, chain.head? =
    some (.ofInitialize ⟨RollupState.createEmpty, newState⟩ initialState)
  last : chain.getLast? = some proof
  linked : ∀ (i : Nat) (p q : Proof), chain[i]? = some p → chain[i + 1]? = some q → Continues p q
  verified : ∀ p ∈ chain, p.verify = .ok ()

theorem ofInitialize_verify_iff {transition : StateTransition} {initialState : InitialStateInputs} :
    (Proof.ofInitialize transition initialState).verify = .ok () ↔
      transition.previousState = RollupState.createEmpty ∧
        transition.newState = RollupState.createFromInputs initialState := by
  simp only [Proof.verify, initializeProgram, bind_ok_iff, RollupState.assertEquals_ok_iff]
  constructor
  · rintro ⟨_, h⟩
    exact h
  · intro h
    exact ⟨(), h⟩

theorem ofUpdateState_verify_iff {transition : StateTransition} {previous : Proof}
    {externalInputs : ExternalProofInputs} :
    (Proof.ofUpdateState transition previous externalInputs).verify = .ok () ↔
      previous.verify = .ok () ∧ transition.previousState = previous.publicInput.newState ∧
        externalInputs.previousL2StateRoot = transition.previousState.latestL2StateRoot ∧
        transition.newState = RollupState.createFromExternalInputs externalInputs := by
  simp only [Proof.verify, checkUpdate, bind_ok_iff, RollupState.assertEquals_ok_iff,
    require_ok_iff]
  constructor
  · rintro ⟨⟨⟩, hprevious, _, hstate, _, hroot, hnew⟩
    exact ⟨hprevious, hstate, hroot, hnew⟩
  · rintro ⟨hprevious, hstate, hroot, hnew⟩
    exact ⟨(), hprevious, (), hstate, (), hroot, hnew⟩

/-- One more proof on top of a chain. -/
theorem WellFounded.snoc {chain : List Proof} {previous proof : Proof}
    (h : WellFounded chain previous) (hcontinues : Continues previous proof)
    (hverify : proof.verify = .ok ()) : WellFounded (chain ++ [proof]) proof := by
  refine ⟨?_, by simp, fun i p q hp hq => ?_, fun p hp => ?_⟩
  · obtain ⟨initialState, newState, hfirst⟩ := h.first
    exact ⟨initialState, newState, by simp [List.head?_append, hfirst]⟩
  · by_cases hi : i + 1 < chain.length
    · rw [List.getElem?_append_left (by omega)] at hp
      rw [List.getElem?_append_left hi] at hq
      exact h.linked i p q hp hq
    · -- the second proof is the new one, and the first one the last of the chain
      have hlen : i + 1 < (chain ++ [proof]).length := (List.getElem?_eq_some_iff.mp hq).1
      have hlast : i + 1 = chain.length := by
        rw [List.length_append, List.length_singleton] at hlen
        omega
      have hprevious : chain.getLast? = some p := by
        rw [List.getElem?_append_left (by omega)] at hp
        rw [List.getLast?_eq_getElem?, ← hlast]
        exact hp
      rw [hlast, List.getElem?_concat_length] at hq
      obtain rfl := Option.some.inj hq
      obtain rfl := Option.some.inj (h.last.symm.trans hprevious)
      exact hcontinues
  · rcases List.mem_append.mp hp with hp | hp
    · exact h.verified p hp
    · rw [List.mem_singleton.mp hp]
      exact hverify

/-- **A proof that verifies is well founded**; by induction on the calls that made it. -/
theorem Proof.wellFounded {proof : Proof} (h : proof.verify = .ok ()) :
    WellFounded proof.chain proof := by
  induction proof with
  | ofInitialize transition initialState =>
    obtain ⟨hprevious, -⟩ := ofInitialize_verify_iff.mp h
    refine ⟨⟨initialState, transition.newState, ?_⟩, rfl, fun i p q hp hq => ?_, fun p hp => ?_⟩
    · rw [← hprevious]
      rfl
    · simp [Proof.chain] at hq
    · rw [List.mem_singleton.mp hp]
      exact h
  | ofUpdateState transition previous externalInputs ih =>
    obtain ⟨hprevious, hstate, -, -⟩ := ofUpdateState_verify_iff.mp h
    exact (ih hprevious).snoc ⟨⟨externalInputs, rfl⟩, hstate⟩ h

/-! ## Runs -/

variable {s₀ s t : RollupState} {tr : List Transaction}

theorem settles_iff {tx : Transaction} :
    stepOf accept s tx t ↔ tx.seen = s ∧ tx.method.Asserts s ∧ tx.newState = t := accept_iff

/-- **The on-chain state is what the last transaction set.** -/
theorem run_newState (hrun : Run (stepOf accept) s tr t) :
    t = s ∨ ∃ tx ∈ tr, tx.newState = t := by
  cases hrun with
  | nil => exact .inl rfl
  | snoc hr hs =>
    obtain ⟨-, -, hnew⟩ := settles_iff.mp hs
    exact .inr ⟨_, by simp, hnew⟩

/-- The state each transaction of a run found, and the one it left. -/
theorem run_at {before after : List Transaction} {tx : Transaction}
    (hrun : Run (stepOf accept) s₀ (before ++ tx :: after) s) :
    Run (stepOf accept) s₀ before tx.seen ∧ accept tx.seen tx = some tx.newState ∧
      Run (stepOf accept) tx.newState after s := by
  obtain ⟨a, b, hbefore, hstep, hafter⟩ := hrun.of_append_cons
  obtain ⟨rfl, -, rfl⟩ := settles_iff.mp hstep
  exact ⟨hbefore, hstep, hafter⟩

/-- **Settlement safety.**  Every accepted update starts from the on-chain state and
leaves its proof's new state; its proof ends a chain of proofs from an `initialize`;
of two updates from one state, the second finds that the state was set again in
between, if the first left it at all; and every transaction was prepared against the
state the one before it left, so none is overwritten. -/
theorem settlement_safe (hrun : Run (stepOf accept) s₀ tr s) :
    (∀ before seen proof after, tr = before ++ ⟨seen, .update proof⟩ :: after →
      ∃ onChain next, Run (stepOf accept) s₀ before onChain ∧
        accept onChain ⟨seen, .update proof⟩ = some next ∧ Run (stepOf accept) next after s ∧
        proof.publicInput.previousState = onChain ∧ proof.publicInput.newState = next) ∧
    (∀ tx ∈ tr, ∀ proof, tx.method = .update proof → ∃ chain, WellFounded chain proof) ∧
    (∀ before seen p between seen' q after,
      tr = before ++ ⟨seen, .update p⟩ :: (between ++ ⟨seen', .update q⟩ :: after) →
      p.publicInput.previousState = q.publicInput.previousState →
      p.publicInput.newState = p.publicInput.previousState ∨
        ∃ tx ∈ between, tx.newState = p.publicInput.previousState) ∧
    (∀ before tx tx' after, tr = before ++ tx :: tx' :: after → tx'.seen = tx.newState) := by
  refine ⟨?_, ?_, ?_, ?_⟩
  · rintro before seen proof after rfl
    obtain ⟨hbefore, haccept, hafter⟩ := run_at hrun
    obtain ⟨-, ⟨hprevious, -⟩, -⟩ := accept_iff.mp haccept
    exact ⟨seen, _, hbefore, haccept, hafter, hprevious, rfl⟩
  · intro tx htx proof hmethod
    obtain ⟨before, after, rfl⟩ := List.append_of_mem htx
    obtain ⟨-, haccept, -⟩ := run_at hrun
    obtain ⟨-, hasserts, -⟩ := accept_iff.mp haccept
    rw [hmethod] at hasserts
    exact ⟨_, Proof.wellFounded hasserts.2⟩
  · rintro before seen p between seen' q after rfl hsame
    obtain ⟨-, -, hrest⟩ := run_at hrun
    obtain ⟨hbetween, haccept, -⟩ := run_at hrest
    obtain ⟨-, ⟨hprevious, -⟩, -⟩ := accept_iff.mp haccept
    -- the second update finds the common previous state on chain
    rw [hsame, hprevious]
    exact (run_newState hbetween).imp Eq.symm id
  · rintro before tx tx' after rfl
    obtain ⟨-, -, hrest⟩ := run_at hrun
    have hnext : Run (stepOf accept) tx.newState ([] ++ tx' :: after) s := hrest
    rcases run_newState (run_at hnext).1 with hseen | ⟨_, hmem, -⟩
    · exact hseen
    · cases hmem

/-! ### A settled run

The contract is initialized, and updated by a proof over the `initialize` proof of the
same inputs. -/

def exampleInputs : InitialStateInputs := ⟨toField 100, toField 101, toField 102⟩

def exampleExternalInputs : ExternalProofInputs :=
  ⟨toField 100, toField 200, toField 202, toField 201, toField 0⟩

def exampleState : RollupState := .createFromInputs exampleInputs

def exampleProof0 : Proof := .ofInitialize ⟨.createEmpty, exampleState⟩ exampleInputs

def exampleProof1 : Proof :=
  .ofUpdateState ⟨exampleState, .createFromExternalInputs exampleExternalInputs⟩ exampleProof0
    exampleExternalInputs

def exampleTransactions : List Transaction :=
  [⟨.createEmpty, .initializeState exampleInputs⟩, ⟨exampleState, .update exampleProof1⟩]

theorem exampleTransactions_accepted :
    (runAll accept .createEmpty exampleTransactions).isSome = true := by
  decide +kernel

/-- The state the update leaves. -/
def exampleUpdated : RollupState := .createFromExternalInputs exampleExternalInputs

/-- A proof of the way back. -/
def exampleProof2 : Proof :=
  .ofUpdateState ⟨exampleUpdated, exampleState⟩ exampleProof1
    ⟨toField 200, toField 100, toField 102, toField 101, toField 0⟩

/-- The update is taken, taken back, and taken again with the same proof. -/
def exampleRepeated : List Transaction :=
  exampleTransactions ++ [⟨exampleUpdated, .update exampleProof2⟩,
    ⟨exampleState, .update exampleProof1⟩]

theorem exampleRepeated_accepted :
    (runAll accept .createEmpty exampleRepeated).isSome = true := by
  decide +kernel

/-- The two updates of the example start from one state, which the one between them set again. -/
theorem settlement_safe_example :
    (∃ onChain, accept onChain ⟨exampleUpdated, .update exampleProof2⟩ = some exampleState) ∧
      (∃ chain, WellFounded chain exampleProof1) ∧
      (exampleProof1.publicInput.newState = exampleState ∨
        ∃ tx ∈ [(⟨exampleUpdated, .update exampleProof2⟩ : Transaction)],
          tx.newState = exampleState) ∧
      exampleProof2.publicInput.previousState = exampleUpdated := by
  obtain ⟨hupdate, hchain, htwice, hseen⟩ := settlement_safe (run_endOf exampleRepeated_accepted)
  obtain ⟨onChain, next, -, haccept, -, -, rfl⟩ :=
    hupdate exampleTransactions exampleUpdated exampleProof2 _ rfl
  exact ⟨⟨onChain, haccept⟩,
    hchain ⟨exampleState, .update exampleProof1⟩ (by simp [exampleRepeated]) _ rfl,
    htwice [⟨.createEmpty, .initializeState exampleInputs⟩] exampleState exampleProof1
      [⟨exampleUpdated, .update exampleProof2⟩] exampleState exampleProof1 [] rfl rfl,
    hseen [⟨.createEmpty, .initializeState exampleInputs⟩] ⟨exampleState, .update exampleProof1⟩
      ⟨exampleUpdated, .update exampleProof2⟩ _ rfl⟩

/-! ## Initialization -/

/-- The transaction sets the state from initial inputs: it calls `initializeState`, or
carries a proof made by `initialize`. -/
def Transaction.SetsInitial (tx : Transaction) : Prop :=
  (∃ initialState, tx.method = .initializeState initialState) ∨
    ∃ transition initialState, tx.method = .update (.ofInitialize transition initialState)

/-- The run has set the state from initial inputs. -/
def Initialized (tr : List Transaction) : Prop := ∃ tx ∈ tr, tx.SetsInitial

/-- **Initial inputs are accepted on the zero state only.** -/
theorem SetsInitial.zero {tx : Transaction} (htx : tx.SetsInitial) (h : accept s tx = some t) :
    s = .createEmpty := by
  obtain ⟨-, hasserts, -⟩ := accept_iff.mp h
  rcases htx with ⟨initialState, hmethod⟩ | ⟨transition, initialState, hmethod⟩
  · rw [hmethod] at hasserts
    exact hasserts
  · rw [hmethod] at hasserts
    obtain ⟨hprevious, hverify⟩ := hasserts
    rw [← hprevious]
    exact (ofInitialize_verify_iff.mp hverify).1

/-- **The zero state is open**: some initial inputs are accepted on it. -/
theorem initial_refused_iff : (∀ tx : Transaction, tx.SetsInitial → accept s tx = none) ↔
    s ≠ .createEmpty := by
  constructor
  · rintro hrefused rfl
    let tx : Transaction := ⟨.createEmpty, .initializeState exampleInputs⟩
    have haccepted : accept .createEmpty tx = some tx.newState := accept_iff.mpr ⟨rfl, rfl, rfl⟩
    rw [hrefused tx (.inl ⟨exampleInputs, rfl⟩)] at haccepted
    cases haccepted
  · intro hne tx htx
    cases haccept : accept s tx with
    | none => rfl
    | some t => exact absurd (SetsInitial.zero htx haccept) hne

/-- No transaction of the run, from the first initial inputs on, sets the zero state. -/
def NeverZeroAgain (tr : List Transaction) : Prop :=
  ∀ before tx after, tr = before ++ tx :: after → Initialized (before ++ [tx]) →
    tx.newState ≠ .createEmpty

/-- In every state from the first initial inputs on, initial inputs are refused. -/
def StaysInitialized (tr : List Transaction) : Prop :=
  ∀ before tx after, tr = before ++ tx :: after → Initialized (before ++ [tx]) →
    ∀ onChain, Run (stepOf accept) .createEmpty (before ++ [tx]) onChain →
      ∀ later : Transaction, later.SetsInitial → accept onChain later = none

theorem NeverZeroAgain.init {tx : Transaction} (h : NeverZeroAgain (tr ++ [tx])) :
    NeverZeroAgain tr := by
  rintro before tx' after rfl
  exact h before tx' (after ++ [tx]) (by simp)

/-- No two transactions of such a run set initial inputs. -/
theorem NeverZeroAgain.pairwise (hrun : Run (stepOf accept) .createEmpty tr s)
    (h : NeverZeroAgain tr) :
    tr.Pairwise fun tx later => tx.SetsInitial → ¬ later.SetsInitial := by
  induction hrun with
  | nil => exact List.Pairwise.nil
  | snoc hr hs ih =>
    rename_i t u tr later
    rw [List.pairwise_append]
    refine ⟨ih h.init, List.pairwise_singleton _ _, fun tx htx last hlast hinitial hlater => ?_⟩
    obtain rfl := List.mem_singleton.mp hlast
    have hzero : t = .createEmpty := SetsInitial.zero hlater hs
    -- the transaction before the last one left the zero state
    rcases List.eq_nil_or_concat tr with rfl | ⟨before, previous, rfl⟩
    · cases htx
    · rw [List.concat_eq_append] at hr h htx
      obtain ⟨_, -, hprevious⟩ := hr.snoc_inv
      obtain ⟨-, -, hnew⟩ := settles_iff.mp hprevious
      exact h before previous [last] (by simp) ⟨tx, htx, hinitial⟩ (hnew.trans hzero)

/-- **Initialization happens once** in exactly the runs that never set the zero state once
they are initialized: then initial inputs are refused in every later state, so no two
transactions of the run set them. -/
theorem initialized_once_iff (hrun : Run (stepOf accept) .createEmpty tr s) :
    (StaysInitialized tr ↔ NeverZeroAgain tr) ∧
      (NeverZeroAgain tr →
        tr.Pairwise fun tx later => tx.SetsInitial → ¬ later.SetsInitial) := by
  refine ⟨⟨?_, ?_⟩, fun h => h.pairwise hrun⟩
  · rintro hstays before tx after rfl hinitial
    obtain ⟨hbefore, haccept, -⟩ := run_at hrun
    exact initial_refused_iff.mp
      (hstays before tx after rfl hinitial _ (hbefore.snoc haccept))
  · rintro hzero before tx after htr hinitial onChain hbefore
    obtain ⟨_, -, hlast⟩ := hbefore.snoc_inv
    obtain ⟨-, -, rfl⟩ := settles_iff.mp hlast
    exact initial_refused_iff.mpr (hzero before tx after htr hinitial)

theorem initialized_once_iff_example : StaysInitialized exampleTransactions := by
  refine (initialized_once_iff (run_endOf exampleTransactions_accepted)).1.mpr ?_
  rintro before tx after htr -
  have hmem : tx ∈ exampleTransactions := by simp [htr]
  simp only [exampleTransactions, List.mem_cons, List.not_mem_nil, or_false] at hmem
  rcases hmem with rfl | rfl <;> decide +kernel

/-- Initial inputs that are all zero. -/
def exampleZeroTransaction : Transaction :=
  ⟨.createEmpty, .initializeState ⟨toField 0, toField 0, toField 0⟩⟩

/-- **Zero inputs leave the contract uninitialized**: it accepts them, and then other
initial inputs. -/
theorem initialized_twice :
    Run (stepOf accept) .createEmpty
        [exampleZeroTransaction, ⟨.createEmpty, .initializeState exampleInputs⟩] exampleState ∧
      ¬ [exampleZeroTransaction, ⟨.createEmpty, .initializeState exampleInputs⟩].Pairwise
        fun tx later => tx.SetsInitial → ¬ later.SetsInitial := by
  refine ⟨run_of_runAll (by decide +kernel), fun h => ?_⟩
  rw [List.pairwise_pair] at h
  exact h (.inl ⟨_, rfl⟩) (.inl ⟨_, rfl⟩)

end OpSuccinct.Settlement
