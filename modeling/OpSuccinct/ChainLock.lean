import Mathlib.Algebra.Ring.Int.Defs
import Mathlib.Algebra.Ring.Nat
import Mathlib.Logic.Function.Basic
import OpSuccinct.TransitionRuns
import OpSuccinct.WorkerFleet

/-! # The chain lock

Validity proposers that share a database (`validity/src/proposer.rs`, `db/client.rs`).
`Proposer::new` asks whether the chain is locked and, if not, locks it; every
successful iteration of the loop refreshes the lock at its end.  A lock counts for one
loop interval of the process that asks.

The question and the lock are two statements, the lock expires, and refreshing it does
not ask who holds it.  So two processes come to run the loop for one chain exactly when
one of them asked while the other was past its own question and the chain had no lock
younger than the asking process's interval (`chain_lock_exclusive_iff`).
-/
namespace OpSuccinct.ChainLock

open Fleets Transition

/-! ## The database -/

/-- `(l1_chain_id, l2_chain_id)`. -/
structure ChainId where
  l1ChainId : Int
  l2ChainId : Int
  deriving DecidableEq

/-- The table `chain_locks`: the `locked_at` of each chain with a row, in microseconds. -/
abbrev ChainLocks := ChainId → Option Int

/-- `PgInterval::try_from` of a duration in seconds: its microseconds, if an `i64` holds
them. -/
def pgInterval (secs : Nat) : Option Int :=
  if secs * 1000000 < 2 ^ 63 then some (secs * 1000000) else none

def addChainLock (locks : ChainLocks) (chain : ChainId) (now : Int) : ChainLocks :=
  Function.update locks chain (some now)

/-- `EXISTS` of a row locked less than an interval ago. -/
def isChainLocked (locks : ChainLocks) (chain : ChainId) (interval now : Int) : Bool :=
  match locks chain with
  | some lockedAt => decide (now - interval < lockedAt)
  | none => false

/-- `UPDATE` of the chain's row, whoever locked it. -/
def updateChainLock (locks : ChainLocks) (chain : ChainId) (now : Int) : ChainLocks :=
  match locks chain with
  | some _ => Function.update locks chain (some now)
  | none => locks

/-! ## The processes -/

/-- Where a process is, once `is_chain_locked` has answered it with false: before
`add_chain_lock`, between it and the loop, or in the loop, iterating or sleeping. -/
inductive Phase
  | unlocked
  | locked
  | iterating
  | sleeping (secs : Nat)
  deriving DecidableEq

/-- The process runs its loop. -/
def Phase.running : Phase → Bool
  | .iterating | .sleeping _ => true
  | .unlocked | .locked => false

structure Process where
  chain : ChainId
  loopInterval : Nat
  phase : Phase
  deriving DecidableEq

/-- The processes past their question, the table, and the database's clock. -/
structure State where
  processes : Nat → Option Process
  locks : ChainLocks
  now : Int

/-- No process, and whatever earlier ones left in the table. -/
def State.start (locks : ChainLocks) (now : Int) : State := ⟨fun _ => none, locks, now⟩

/-- The statements and moves of the processes, and time.  An iteration fails at any point
before its end, and a process ends at any point. -/
inductive Label
  | tick (d : Nat)
  | askLocked (pid : Nat) (chain : ChainId) (loopInterval : Nat)
  | addLock (pid : Nat)
  | enterLoop (pid : Nat)
  | iterationOk (pid : Nat)
  | iterationErr (pid : Nat)
  | wake (pid : Nat)
  | exit (pid : Nat)
  deriving DecidableEq

namespace State
variable (s : State)

/-- A process goes on to another phase, and its statement to another table. -/
def advance (pid : Nat) (next : Process → Option (Phase × ChainLocks)) : Option State := do
  let p ← s.processes pid
  let (phase, locks) ← next p
  return { s with
    processes := Function.update s.processes pid (some { p with phase := phase })
    locks := locks }

/-- One step.  A process whose question is answered with true returns an error and is
gone. -/
def step : Label → Option State
  | .tick d => some { s with now := s.now + d }
  | .askLocked pid chain loopInterval =>
    match s.processes pid, pgInterval loopInterval with
    | none, some interval =>
      if isChainLocked s.locks chain interval s.now then some s
      else some { s with
        processes := Function.update s.processes pid (some ⟨chain, loopInterval, .unlocked⟩) }
    | _, _ => none
  | .addLock pid => s.advance pid fun p =>
    if p.phase = .unlocked then some (.locked, addChainLock s.locks p.chain s.now) else none
  | .enterLoop pid => s.advance pid fun p =>
    if p.phase = .locked then some (.iterating, s.locks) else none
  | .iterationOk pid => s.advance pid fun p =>
    if p.phase = .iterating then
      some (.sleeping p.loopInterval, updateChainLock s.locks p.chain s.now)
    else none
  | .iterationErr pid => s.advance pid fun p =>
    if p.phase = .iterating then some (.sleeping 10, s.locks) else none
  | .wake pid => s.advance pid fun p =>
    match p.phase with
    | .sleeping _ => some (.iterating, s.locks)
    | _ => none
  | .exit pid => some { s with processes := Function.update s.processes pid none }

end State

/-- The steps of the system. -/
abbrev LockStep : State → Taken State Label → State → Prop := takenOf State.step

/-! ## Mutual exclusion -/

/-- **Mutual exclusion**: no two processes run their loops for one chain. -/
def Exclusive (s : State) : Prop :=
  ∀ pid p pid' p', s.processes pid = some p → s.processes pid' = some p' → p.chain = p'.chain →
    p.phase.running = true → p'.phase.running = true → pid = pid'

/-- No two processes are past their questions for one chain. -/
def OneHolder (s : State) : Prop :=
  ∀ pid p pid' p', s.processes pid = some p → s.processes pid' = some p' → p.chain = p'.chain →
    pid = pid'

def Label.asks : Label → Prop
  | .askLocked _ _ _ => True
  | _ => False

/-- **The state stays exclusive** as long as no further process asks. -/
def StaysExclusive (s : State) : Prop :=
  ∀ tr t, Run LockStep s tr t → (∀ e ∈ tr, ¬ e.label.asks) → Exclusive t

/-- **A question sees the holder**: if it is asked while a process is past its own for the
chain, the chain's row is younger than the asking process's interval. -/
def SeesHolder (s : State) : Label → Prop
  | .askLocked _ chain loopInterval => ∀ pid p interval, s.processes pid = some p →
    p.chain = chain → pgInterval loopInterval = some interval →
      isChainLocked s.locks chain interval s.now = true
  | _ => True

variable {s t : State} {pid : Nat} {p : Process}

/-! ### What a step does -/

theorem advance_some_iff {next : Process → Option (Phase × ChainLocks)} :
    s.advance pid next = some t ↔ ∃ p phase locks, s.processes pid = some p ∧
      next p = some (phase, locks) ∧ t = { s with
        processes := Function.update s.processes pid (some { p with phase := phase })
        locks := locks } := by
  simp only [State.advance, bind, pure, Option.bind_eq_some_iff, Option.some.injEq, Prod.exists]
  constructor
  · rintro ⟨p, hp, phase, locks, hnext, rfl⟩
    exact ⟨p, phase, locks, hp, hnext, rfl⟩
  · rintro ⟨p, phase, locks, hp, hnext, rfl⟩
    exact ⟨p, hp, phase, locks, hnext, rfl⟩

/-- Every process of `t` was one of `s`, for the same chain. -/
def NoNewHolder (s t : State) : Prop :=
  ∀ pid p, t.processes pid = some p → ∃ p', s.processes pid = some p' ∧ p'.chain = p.chain

theorem noNewHolder_advance {next : Process → Option (Phase × ChainLocks)}
    (h : s.advance pid next = some t) : NoNewHolder s t := by
  obtain ⟨p, phase, locks, hp, -, rfl⟩ := advance_some_iff.mp h
  intro pid' p' hp'
  rcases update_eq_some hp' with ⟨rfl, hpost⟩ | ⟨-, hpre⟩
  · obtain rfl := Option.some.inj hpost
    exact ⟨p, hp, rfl⟩
  · exact ⟨p', hpre, rfl⟩

theorem noNewHolder_step {l : Label} (h : s.step l = some t) (hasks : ¬ l.asks) :
    NoNewHolder s t := by
  cases l with
  | tick d =>
    cases h
    exact fun pid p hp => ⟨p, hp, rfl⟩
  | askLocked pid chain loopInterval => exact absurd trivial hasks
  | exit pid =>
    cases h
    intro pid' p' hp'
    rcases update_eq_some hp' with ⟨-, hpost⟩ | ⟨-, hpre⟩
    · cases hpost
    · exact ⟨p', hpre, rfl⟩
  | addLock pid => exact noNewHolder_advance h
  | enterLoop pid => exact noNewHolder_advance h
  | iterationOk pid => exact noNewHolder_advance h
  | iterationErr pid => exact noNewHolder_advance h
  | wake pid => exact noNewHolder_advance h

/-- What becomes of a question: an error, or a process past it when the chain has no young
row. -/
theorem askLocked_some {chain : ChainId} {loopInterval : Nat}
    (h : s.step (.askLocked pid chain loopInterval) = some t) :
    s.processes pid = none ∧ ∃ interval, pgInterval loopInterval = some interval ∧
      (isChainLocked s.locks chain interval s.now = true ∧ t = s ∨
        isChainLocked s.locks chain interval s.now = false ∧ t = { s with
          processes :=
            Function.update s.processes pid (some ⟨chain, loopInterval, .unlocked⟩) }) := by
  simp only [State.step] at h
  split at h
  · rename_i interval hpid hinterval
    refine ⟨hpid, interval, hinterval, ?_⟩
    split at h
    · rename_i hlocked
      exact .inl ⟨hlocked, (Option.some.inj h).symm⟩
    · rename_i hlocked
      exact .inr ⟨by simpa using hlocked, (Option.some.inj h).symm⟩
  · cases h

/-! ### One holder -/

theorem OneHolder.exclusive (h : OneHolder s) : Exclusive s :=
  fun pid p pid' p' hp hp' hchain _ _ => h pid p pid' p' hp hp' hchain

theorem OneHolder.of_noNewHolder (h : OneHolder s) (hst : NoNewHolder s t) : OneHolder t := by
  intro pid p pid' p' hp hp' hchain
  obtain ⟨q, hq, hqp⟩ := hst pid p hp
  obtain ⟨q', hq', hqp'⟩ := hst pid' p' hp'
  exact h pid q pid' q' hq hq' ((hqp.trans hchain).trans hqp'.symm)

/-- A step keeps at most one holder when its question, if it is one, sees the holder. -/
theorem OneHolder.step {l : Label} (h : OneHolder s) (hstep : s.step l = some t)
    (hsees : SeesHolder s l) : OneHolder t := by
  by_cases hasks : l.asks
  · cases l with
    | askLocked pid chain loopInterval =>
      obtain ⟨hpid, interval, hinterval, ⟨-, rfl⟩ | ⟨hfree, rfl⟩⟩ := askLocked_some hstep
      · exact h
      · -- Nobody else holds the chain, for the question would have seen it.
        have hnone : ∀ pid' p', s.processes pid' = some p' → p'.chain ≠ chain := by
          intro pid' p' hp' hchain
          rw [hsees pid' p' interval hp' hchain hinterval] at hfree
          cases hfree
        intro q p q' p' hp hp' hchain
        rcases update_eq_some hp with ⟨hq, hnew⟩ | ⟨-, hold⟩
        · rcases update_eq_some hp' with ⟨hq', -⟩ | ⟨-, hold'⟩
          · exact hq.trans hq'.symm
          · obtain rfl := Option.some.inj hnew
            exact absurd hchain.symm (hnone q' p' hold')
        · rcases update_eq_some hp' with ⟨-, hnew'⟩ | ⟨-, hold'⟩
          · obtain rfl := Option.some.inj hnew'
            exact absurd hchain (hnone q p hold)
          · exact h q p q' p' hold hold' hchain
    | _ => exact absurd hasks id
  · exact h.of_noNewHolder (noNewHolder_step hstep hasks)

theorem OneHolder.staysExclusive (h : OneHolder s) : StaysExclusive s := by
  intro tr t hrun hasks
  refine OneHolder.exclusive ?_
  induction hrun with
  | nil => exact h
  | snoc hr hs ih =>
    obtain ⟨-, -, hstep⟩ := hs
    rename_i e
    have hbefore := ih fun e' he' => hasks e' (List.mem_append_left _ he')
    exact hbefore.of_noNewHolder (noNewHolder_step hstep (hasks e (by simp)))

theorem oneHolder_start (locks : ChainLocks) (now : Int) : OneHolder (State.start locks now) :=
  fun _ _ _ _ hp => nomatch hp

/-! ### Two holders -/

/-- From `s`, without a question, only the process at `pid` moves, and comes to run its
loop. -/
def CanRun (s : State) (pid : Nat) (p : Process) : Prop :=
  ∃ tr t p', Run LockStep s tr t ∧ (∀ e ∈ tr, ¬ e.label.asks) ∧ t.processes pid = some p' ∧
    p'.chain = p.chain ∧ p'.phase.running = true ∧
    ∀ pid', pid' ≠ pid → t.processes pid' = s.processes pid'

theorem CanRun.of_step {p' : Process} {l : Label} (hstep : s.step l = some t) (hasks : ¬ l.asks)
    (hchain : p'.chain = p.chain) (hothers : ∀ pid', pid' ≠ pid → t.processes pid' =
      s.processes pid') (h : CanRun t pid p') : CanRun s pid p := by
  obtain ⟨tr, u, q, hrun, hnone, hq, hqchain, hrunning, hsame⟩ := h
  refine ⟨⟨s, l, t⟩ :: tr, u, q, .cons ⟨rfl, rfl, hstep⟩ hrun, ?_, hq, hqchain.trans hchain,
    hrunning, fun pid' hne => (hsame pid' hne).trans (hothers pid' hne)⟩
  intro e he
  rcases List.mem_cons.mp he with rfl | he
  · exact hasks
  · exact hnone e he

theorem canRun_of_running (hp : s.processes pid = some p) (h : p.phase.running = true) :
    CanRun s pid p :=
  ⟨[], s, p, .nil, fun _ he => absurd he List.not_mem_nil, hp, rfl, h, fun _ _ => rfl⟩

theorem canRun_of_locked (hp : s.processes pid = some p) (h : p.phase = .locked) :
    CanRun s pid p := by
  have hstep : s.step (.enterLoop pid) = some { s with
      processes := Function.update s.processes pid (some { p with phase := .iterating }) } :=
    advance_some_iff.mpr ⟨p, .iterating, s.locks, hp, if_pos h, rfl⟩
  refine .of_step hstep id ?_ (fun pid' hne => Function.update_of_ne hne _ _)
    (canRun_of_running (Function.update_self _ _ _) ?_)
  · rfl
  · rfl

/-- Nothing keeps a process that is past its question from its loop. -/
theorem canRun (hp : s.processes pid = some p) : CanRun s pid p := by
  cases hphase : p.phase with
  | unlocked =>
    have hstep : s.step (.addLock pid) = some { s with
        processes := Function.update s.processes pid (some { p with phase := .locked })
        locks := addChainLock s.locks p.chain s.now } :=
      advance_some_iff.mpr ⟨p, .locked, _, hp, if_pos hphase, rfl⟩
    refine .of_step hstep id ?_ (fun pid' hne => Function.update_of_ne hne _ _)
      (canRun_of_locked (Function.update_self _ _ _) ?_)
    · rfl
    · rfl
  | locked => exact canRun_of_locked hp hphase
  | iterating => exact canRun_of_running hp (by rw [hphase]; rfl)
  | sleeping secs => exact canRun_of_running hp (by rw [hphase]; rfl)

/-- Two processes past their questions for one chain can both come to run their loops. -/
theorem oneHolder_of_staysExclusive (h : StaysExclusive s) : OneHolder s := by
  intro pid p pid' p' hp hp' hchain
  by_contra hne
  obtain ⟨tr, t, q, hrun, hnone, hq, hqchain, hqrunning, hothers⟩ := canRun hp
  have hp't : t.processes pid' = some p' := (hothers pid' (Ne.symm hne)).trans hp'
  obtain ⟨tr', u, q', hrun', hnone', hq', hqchain', hqrunning', hothers'⟩ := canRun hp't
  have hexclusive : Exclusive u := h (tr ++ tr') u (hrun.trans hrun') fun e he =>
    (List.mem_append.mp he).elim (hnone e) (hnone' e)
  have hqu : u.processes pid = some q := (hothers' pid hne).trans hq
  exact hne (hexclusive pid q pid' q' hqu hq'
    ((hqchain.trans hchain).trans hqchain'.symm) hqrunning hqrunning')

/-- A state stays exclusive exactly when at most one process is past its question. -/
theorem staysExclusive_iff : StaysExclusive s ↔ OneHolder s :=
  ⟨oneHolder_of_staysExclusive, OneHolder.staysExclusive⟩

/-- A question that misses a holder makes a second one. -/
theorem seesHolder_of_oneHolder {l : Label} (hstep : s.step l = some t) (h : OneHolder t) :
    SeesHolder s l := by
  cases l with
  | askLocked pid chain loopInterval =>
    intro pid' p' interval hp' hchain hinterval
    obtain ⟨hpid, interval', hinterval', ⟨hlocked, -⟩ | ⟨-, rfl⟩⟩ := askLocked_some hstep
    · cases hinterval.symm.trans hinterval'
      exact hlocked
    · have hne : pid' ≠ pid := by
        rintro rfl
        rw [hpid] at hp'
        cases hp'
      exact absurd (h pid' p' pid ⟨chain, loopInterval, .unlocked⟩
        ((Function.update_of_ne hne _ _).trans hp') (Function.update_self _ _ _) hchain) hne
  | _ => trivial

/-! ### Runs -/

/-- **When the chain lock excludes.**  For every run of any number of processes, from any
table and time: every state the run reaches is exclusive, and stays so as long as no further
process asks, if and only if every question of the run that is asked while another process
is past its own for the chain sees a lock younger than the asking process's interval. -/
theorem chain_lock_exclusive_iff {locks : ChainLocks} {now : Int}
    {tr : List (Taken State Label)} (hrun : Run LockStep (State.start locks now) tr s) :
    (∀ e ∈ tr, StaysExclusive e.post) ↔ ∀ e ∈ tr, SeesHolder e.pre e.label := by
  constructor
  · intro h e he
    obtain ⟨before, after, rfl⟩ := List.append_of_mem he
    obtain ⟨a, b, -, ⟨rfl, rfl, hstep⟩, -⟩ := hrun.of_append_cons
    exact seesHolder_of_oneHolder hstep (staysExclusive_iff.mp (h e he))
  · intro h
    suffices hone : OneHolder s ∧ ∀ e ∈ tr, OneHolder e.post from
      fun e he => (hone.2 e he).staysExclusive
    induction hrun with
    | nil => exact ⟨oneHolder_start locks now, fun _ he => absurd he List.not_mem_nil⟩
    | snoc hr hs ih =>
      obtain ⟨hpre, hpost, hstep⟩ := hs
      obtain ⟨hbefore, hall⟩ := ih fun e he => h e (List.mem_append_left _ he)
      have hafter := hbefore.step hstep (hpre ▸ h _ (List.mem_append_right _ (.head _)))
      refine ⟨hafter, fun e he => ?_⟩
      rcases List.mem_append.mp he with he | he
      · exact hall e he
      · rw [List.mem_singleton.mp he, hpost]
        exact hafter

/-! ### A lock that expires in the loop

Both processes have a loop interval of 60 seconds.  The first iteration of process 0 ends
after 5 seconds and refreshes the lock.  When the process wakes 60 seconds later, its lock
has expired, and it is refreshed only at the end of the next iteration. -/

def exampleChain : ChainId := ⟨1, 10⟩

def exampleEmpty : State := .start (fun _ => none) 0

/-- The first iteration of process 0. -/
def exampleFirstIteration : List Label :=
  [.askLocked 0 exampleChain 60, .addLock 0, .enterLoop 0, .tick 5000000, .iterationOk 0]

/-- Process 1 asks while process 0 sleeps, and sees its lock. -/
def exampleRefused : List Label :=
  exampleFirstIteration ++ [.tick 30000000, .askLocked 1 exampleChain 60]

/-- Process 1 asks while process 0 iterates for the second time. -/
def exampleExpired : List Label :=
  exampleFirstIteration ++ [.tick 60000000, .wake 0, .askLocked 1 exampleChain 60, .addLock 1,
    .enterLoop 1]

theorem chain_lock_exclusive_iff_example :
    StaysExclusive (endOf State.step exampleEmpty exampleRefused) := by
  have hfirst : SeesHolder exampleEmpty (.askLocked 0 exampleChain 60) :=
    fun pid p interval hp => nomatch hp
  have hsecond : SeesHolder (endOf State.step exampleEmpty (exampleFirstIteration ++
      [.tick 30000000])) (.askLocked 1 exampleChain 60) := by
    rintro pid p interval - - hinterval
    obtain rfl : 60000000 = interval := Option.some.inj hinterval
    decide +kernel
  have hsees : ∀ e ∈ takenAll State.step exampleEmpty exampleRefused, SeesHolder e.pre e.label :=
    List.forall_mem_cons.mpr ⟨hfirst, List.forall_mem_cons.mpr ⟨trivial,
      List.forall_mem_cons.mpr ⟨trivial, List.forall_mem_cons.mpr ⟨trivial,
      List.forall_mem_cons.mpr ⟨trivial, List.forall_mem_cons.mpr ⟨trivial,
      List.forall_mem_cons.mpr ⟨hsecond, fun e he => absurd he List.not_mem_nil⟩⟩⟩⟩⟩⟩⟩
  have hlast : (takenAll State.step exampleEmpty exampleRefused)[6]? =
      some ⟨_, .askLocked 1 exampleChain 60, endOf State.step exampleEmpty exampleRefused⟩ := rfl
  exact (chain_lock_exclusive_iff (run_takenAll (by decide +kernel))).mpr hsees _
    (List.mem_of_getElem? hlast)

/-- **The failing run.**  Both processes run their loops for one chain. -/
theorem two_loops_for_one_chain :
    ∃ tr s, Run LockStep exampleEmpty tr s ∧ ¬ Exclusive s := by
  refine ⟨takenAll State.step exampleEmpty exampleExpired,
    endOf State.step exampleEmpty exampleExpired,
    run_takenAll (by decide +kernel), fun hexclusive => ?_⟩
  have h := hexclusive 0 ⟨exampleChain, 60, .iterating⟩ 1 ⟨exampleChain, 60, .iterating⟩
    (by decide +kernel) (by decide +kernel) rfl rfl rfl
  cases h

end OpSuccinct.ChainLock
