import OpSuccinct.CheckedArith
import OpSuccinct.TransitionRuns

/-! # The Mina settlement contract

`zk-program/index.ts`: a recursive ZkProgram whose proofs speak of a transition
between two rollup states, and a contract that keeps the current rollup state in
three on-chain fields.

A proof is the record of the method calls that made it (`Proof`); it verifies if
each of them satisfies its assertions.  A contract method runs on the client: it
reads the state the client sees and yields an account update, with one
precondition and one new value for each field.  The chain applies the update only
if its preconditions hold then.
-/
namespace OpSuccinct.Settlement

/-! ## Data -/

/-- The order of the field o1js computes in. -/
def fieldOrder : Nat :=
  28948022309329048855892746252171976963363056481941560715954676764349967630337

theorem fieldOrder_pos : 0 < fieldOrder := by decide

abbrev Field := Fin fieldOrder

/-- `Field(n)`. -/
def toField (n : Nat) : Field := ⟨n % fieldOrder, Nat.mod_lt n fieldOrder_pos⟩

structure RollupState where
  latestL2StateRoot : Field
  latestProofCommitment : Field
  latestDACommitment : Field
  deriving DecidableEq

structure ExternalProofInputs where
  previousL2StateRoot : Field
  newProposedL2StateRoot : Field
  dataAvailabilityCommitment : Field
  newExternalProofCommitment : Field
  initialDACommitment : Field
  deriving DecidableEq

structure InitialStateInputs where
  initialL2StateRoot : Field
  initialProofCommitment : Field
  initialDACommitment : Field
  deriving DecidableEq

structure StateTransition where
  previousState : RollupState
  newState : RollupState
  deriving DecidableEq

/-- A failed assertion of a circuit: two fields that differ, or the message given. -/
inductive AssertionError
  | fieldsDiffer
  | message (text : String)
  deriving DecidableEq

/-! ## `RollupState` -/

def RollupState.createEmpty : RollupState := ⟨toField 0, toField 0, toField 0⟩

def RollupState.assertEquals (state1 state2 : RollupState) : Except AssertionError Unit := do
  require (state1.latestL2StateRoot = state2.latestL2StateRoot) .fieldsDiffer
  require (state1.latestProofCommitment = state2.latestProofCommitment) .fieldsDiffer
  require (state1.latestDACommitment = state2.latestDACommitment) .fieldsDiffer

def RollupState.createFromInputs (inputs : InitialStateInputs) : RollupState where
  latestL2StateRoot := inputs.initialL2StateRoot
  latestProofCommitment := inputs.initialProofCommitment
  latestDACommitment := inputs.initialDACommitment

def RollupState.createFromExternalInputs (externalInputs : ExternalProofInputs) : RollupState where
  latestL2StateRoot := externalInputs.newProposedL2StateRoot
  latestProofCommitment := externalInputs.newExternalProofCommitment
  latestDACommitment := externalInputs.dataAvailabilityCommitment

/-! ## `StateTransitionVerifier` -/

/-- The method `initialize`. -/
def initializeProgram (transition : StateTransition) (initialState : InitialStateInputs) :
    Except AssertionError Unit := do
  -- the previous state for initialization is the zero state
  RollupState.assertEquals transition.previousState RollupState.createEmpty
  RollupState.assertEquals transition.newState (RollupState.createFromInputs initialState)

/-- The method `updateState`, after the previous proof is verified. -/
def checkUpdate (transition : StateTransition) (previousInput : StateTransition)
    (externalInputs : ExternalProofInputs) : Except AssertionError Unit := do
  RollupState.assertEquals transition.previousState previousInput.newState
  require (externalInputs.previousL2StateRoot = transition.previousState.latestL2StateRoot)
    (.message "External proof's previousL2StateRoot must match current on-chain L2 state root.")
  -- the external proof itself is not verified yet
  RollupState.assertEquals transition.newState
    (RollupState.createFromExternalInputs externalInputs)

/-- **A proof**: the call of a method of the program that made it. -/
inductive Proof
  | ofInitialize (transition : StateTransition) (initialState : InitialStateInputs)
  | ofUpdateState (transition : StateTransition) (previousStateProof : Proof)
      (externalInputs : ExternalProofInputs)
  deriving DecidableEq

def Proof.publicInput : Proof → StateTransition
  | .ofInitialize transition _ => transition
  | .ofUpdateState transition _ _ => transition

/-- `proof.verify()`: the calls behind the proof satisfy their assertions. -/
def Proof.verify : Proof → Except AssertionError Unit
  | .ofInitialize transition initialState => initializeProgram transition initialState
  | .ofUpdateState transition previousStateProof externalInputs => do
    previousStateProof.verify
    checkUpdate transition previousStateProof.publicInput externalInputs

/-- The method `updateState`. -/
def updateState (transition : StateTransition) (previousStateProof : Proof)
    (externalInputs : ExternalProofInputs) : Except AssertionError Unit :=
  (Proof.ofUpdateState transition previousStateProof externalInputs).verify

/-! ## `SettlementContract` -/

/-- What an account update says about one on-chain field. -/
structure FieldUpdate where
  requireEquals : Option Field
  set : Option Field

structure AccountUpdate where
  latestL2StateRoot : FieldUpdate
  latestProofCommitment : FieldUpdate
  latestDACommitment : FieldUpdate

/-- `getAndRequireEquals()` on a field the client sees, and `set(value)`. -/
def FieldUpdate.replace (seen value : Field) : FieldUpdate := ⟨some seen, some value⟩

/-- The update of all three fields. -/
def AccountUpdate.replace (seen newState : RollupState) : AccountUpdate where
  latestL2StateRoot := .replace seen.latestL2StateRoot newState.latestL2StateRoot
  latestProofCommitment := .replace seen.latestProofCommitment newState.latestProofCommitment
  latestDACommitment := .replace seen.latestDACommitment newState.latestDACommitment

/-- The contract method `initializeState`, run by a client that sees the given state. -/
def initializeState (seen : RollupState) (initialState : InitialStateInputs) :
    Except AssertionError AccountUpdate := do
  require (seen.latestL2StateRoot = toField 0) .fieldsDiffer
  require (seen.latestProofCommitment = toField 0) .fieldsDiffer
  require (seen.latestDACommitment = toField 0) .fieldsDiffer
  pure (.replace seen ⟨initialState.initialL2StateRoot, initialState.initialProofCommitment,
    initialState.initialDACommitment⟩)

/-- The contract method `update`, run by a client that sees the given state. -/
def update (seen : RollupState) (proof : Proof) : Except AssertionError AccountUpdate := do
  RollupState.assertEquals proof.publicInput.previousState seen
  proof.verify
  pure (.replace seen proof.publicInput.newState)

/-! ## Transactions -/

/-- The on-chain field after the update, if its precondition holds. -/
def FieldUpdate.apply (u : FieldUpdate) (onChain : Field) : Option Field :=
  match u.requireEquals with
  | none => some (u.set.getD onChain)
  | some required => if onChain = required then some (u.set.getD onChain) else none

/-- The on-chain state after the update, if all its preconditions hold. -/
def AccountUpdate.apply (u : AccountUpdate) (onChain : RollupState) : Option RollupState := do
  let latestL2StateRoot ← u.latestL2StateRoot.apply onChain.latestL2StateRoot
  let latestProofCommitment ← u.latestProofCommitment.apply onChain.latestProofCommitment
  let latestDACommitment ← u.latestDACommitment.apply onChain.latestDACommitment
  pure ⟨latestL2StateRoot, latestProofCommitment, latestDACommitment⟩

inductive Method
  | initializeState (initialState : InitialStateInputs)
  | update (proof : Proof)
  deriving DecidableEq

/-- **A transaction**: a method call, with the state its client saw, which may be stale. -/
structure Transaction where
  seen : RollupState
  method : Method
  deriving DecidableEq

/-- The account update the client proves, unless an assertion fails. -/
def Transaction.prepare (tx : Transaction) : Except AssertionError AccountUpdate :=
  match tx.method with
  | .initializeState initialState => initializeState tx.seen initialState
  | .update proof => update tx.seen proof

/-- **The chain takes a transaction** if it could be prepared and its preconditions hold
now; the state it leaves. -/
def accept (onChain : RollupState) (tx : Transaction) : Option RollupState :=
  match tx.prepare with
  | .error _ => none
  | .ok accountUpdate => accountUpdate.apply onChain

/-! ## What an accepted transaction does -/

@[simp] theorem RollupState.assertEquals_ok_iff {a b : RollupState} {u : Unit} :
    RollupState.assertEquals a b = .ok u ↔ a = b := by
  obtain ⟨a₁, a₂, a₃⟩ := a
  obtain ⟨b₁, b₂, b₃⟩ := b
  simp [RollupState.assertEquals, bind_ok_iff]

/-- The state a method sets. -/
def Method.newState : Method → RollupState
  | .initializeState initialState => RollupState.createFromInputs initialState
  | .update proof => proof.publicInput.newState

def Transaction.newState (tx : Transaction) : RollupState := tx.method.newState

/-- What a method asserts of the state its client sees. -/
def Method.Asserts : Method → RollupState → Prop
  | .initializeState _, seen => seen = RollupState.createEmpty
  | .update proof, seen => proof.publicInput.previousState = seen ∧ proof.verify = .ok ()

theorem prepare_ok_iff {tx : Transaction} {u : AccountUpdate} :
    tx.prepare = .ok u ↔ tx.method.Asserts tx.seen ∧ .replace tx.seen tx.newState = u := by
  obtain ⟨seen, method⟩ := tx
  cases method with
  | initializeState initialState =>
    obtain ⟨s₁, s₂, s₃⟩ := seen
    simp [Transaction.prepare, initializeState, Method.Asserts, Transaction.newState,
      Method.newState, RollupState.createEmpty, RollupState.createFromInputs, bind_ok_iff,
      and_assoc]
  | update proof =>
    simp only [Transaction.prepare, update, Method.Asserts, Transaction.newState, Method.newState,
      bind_ok_iff, RollupState.assertEquals_ok_iff, pure_ok_iff]
    constructor
    · rintro ⟨_, hprevious, ⟨⟩, hverify, hu⟩
      exact ⟨⟨hprevious, hverify⟩, hu⟩
    · rintro ⟨⟨hprevious, hverify⟩, hu⟩
      exact ⟨(), hprevious, (), hverify, hu⟩

theorem FieldUpdate.apply_replace {seen value onChain result : Field} :
    (FieldUpdate.replace seen value).apply onChain = some result ↔
      onChain = seen ∧ value = result := by
  simp [FieldUpdate.apply, FieldUpdate.replace]

theorem AccountUpdate.apply_replace {seen newState onChain result : RollupState} :
    (AccountUpdate.replace seen newState).apply onChain = some result ↔
      onChain = seen ∧ newState = result := by
  obtain ⟨s₁, s₂, s₃⟩ := seen
  obtain ⟨n₁, n₂, n₃⟩ := newState
  obtain ⟨o₁, o₂, o₃⟩ := onChain
  obtain ⟨r₁, r₂, r₃⟩ := result
  simp only [AccountUpdate.apply, AccountUpdate.replace, bind, Option.bind_eq_some_iff,
    FieldUpdate.apply_replace, pure, Option.some.injEq, RollupState.mk.injEq]
  constructor
  · rintro ⟨_, ⟨rfl, rfl⟩, _, ⟨rfl, rfl⟩, _, ⟨rfl, rfl⟩, rfl, rfl, rfl⟩
    exact ⟨⟨rfl, rfl, rfl⟩, rfl, rfl, rfl⟩
  · rintro ⟨⟨rfl, rfl, rfl⟩, rfl, rfl, rfl⟩
    exact ⟨_, ⟨rfl, rfl⟩, _, ⟨rfl, rfl⟩, _, ⟨rfl, rfl⟩, rfl, rfl, rfl⟩

/-- **An accepted transaction** saw the state it is applied to, satisfies its assertions
there, and leaves the state its method sets. -/
theorem accept_iff {tx : Transaction} {onChain next : RollupState} :
    accept onChain tx = some next ↔
      tx.seen = onChain ∧ tx.method.Asserts onChain ∧ tx.newState = next := by
  unfold accept
  cases hprepare : tx.prepare with
  | error e =>
    have hnot : ¬ tx.method.Asserts tx.seen := by
      intro hasserts
      have hok := prepare_ok_iff.mpr ⟨hasserts, rfl⟩
      rw [hprepare] at hok
      cases hok
    simp only [reduceCtorEq, false_iff]
    rintro ⟨rfl, hasserts, -⟩
    exact hnot hasserts
  | ok u =>
    obtain ⟨hasserts, rfl⟩ := prepare_ok_iff.mp hprepare
    rw [AccountUpdate.apply_replace]
    constructor
    · rintro ⟨rfl, rfl⟩
      exact ⟨rfl, hasserts, rfl⟩
    · rintro ⟨rfl, -, rfl⟩
      exact ⟨rfl, rfl⟩

end OpSuccinct.Settlement
