import Mathlib.Data.Finset.Erase
import Mathlib.Data.Finset.Insert
import OpSuccinct.WorkerFleet

/-! # Claimed keys and work in flight

A piece of work is started for a key that is not claimed, and claims it.  It moves from
stage to stage, among other pieces of work, and ends by keeping its claim or by releasing
it.  So at most one piece of work for a key is in flight (`Desk.Guarded`).

A claim that is kept should stand for something that is done.  It does for every claimed
key without work in flight (`Desk.Settled`) as long as no work keeps its claim undone.
-/
namespace OpSuccinct.InFlight

open Fleets

/-- The claimed keys, the work in flight by its id, and the next id. -/
structure Desk (K T : Type) where
  claimed : Finset K
  running : Nat → Option (K × T)
  nextId : Nat

namespace Desk
variable {K T : Type} (d : Desk K T)

def empty : Desk K T := ⟨∅, fun _ => none, 0⟩

/-- No work for the key is in flight. -/
def Idle (k : K) : Prop := ∀ id stage, d.running id ≠ some (k, stage)

/-! ## Steps -/

def start [DecidableEq K] (k : K) (stage : T) : Desk K T where
  claimed := insert k d.claimed
  running := Function.update d.running d.nextId (some (k, stage))
  nextId := d.nextId + 1

/-- The work gets to another stage. -/
def move (id : Nat) (k : K) (stage : T) : Desk K T :=
  { d with running := Function.update d.running id (some (k, stage)) }

/-- The work ends and keeps its claim. -/
def finish (id : Nat) : Desk K T := { d with running := Function.update d.running id none }

/-- The work ends and gives its key back. -/
def release [DecidableEq K] (id : Nat) (k : K) : Desk K T :=
  { d with claimed := d.claimed.erase k, running := Function.update d.running id none }

/-- **At most one piece of work for a key** is in flight, and its key is claimed. -/
structure Guarded : Prop where
  claimed : ∀ id k stage, d.running id = some (k, stage) → k ∈ d.claimed
  unique : ∀ id id' k stage stage', d.running id = some (k, stage) →
    d.running id' = some (k, stage') → id = id'
  fresh : ∀ id k stage, d.running id = some (k, stage) → id < d.nextId

/-- What is claimed and not in flight is done. -/
def Settled (done : K → Prop) : Prop := ∀ k ∈ d.claimed, d.Idle k → done k

variable {d} {k : K} {stage stage' : T} {id : Nat} {done : K → Prop}

/-! ## Work that is in flight -/

theorem guarded_empty : (empty : Desk K T).Guarded :=
  ⟨fun _ _ _ h => (nomatch h), fun _ _ _ _ _ h => (nomatch h), fun _ _ _ h => (nomatch h)⟩

theorem Guarded.start [DecidableEq K] (h : d.Guarded) (hk : k ∉ d.claimed) :
    (d.start k stage).Guarded where
  claimed := by
    intro id k' stage' hrun
    rcases update_eq_some hrun with ⟨-, hnew⟩ | ⟨-, hold⟩
    · cases hnew
      exact Finset.mem_insert_self _ _
    · exact Finset.mem_insert_of_mem (h.claimed id k' stage' hold)
  unique := by
    intro id id' k' stage₁ stage₂ hrun hrun'
    rcases update_eq_some hrun with ⟨rfl, hnew⟩ | ⟨-, hold⟩
    · rcases update_eq_some hrun' with ⟨rfl, -⟩ | ⟨-, hold'⟩
      · rfl
      · cases hnew
        exact absurd (h.claimed id' k stage₂ hold') hk
    · rcases update_eq_some hrun' with ⟨rfl, hnew'⟩ | ⟨-, hold'⟩
      · cases hnew'
        exact absurd (h.claimed id k stage₁ hold) hk
      · exact h.unique id id' k' stage₁ stage₂ hold hold'
  fresh := by
    intro id k' stage' hrun
    rcases update_eq_some hrun with ⟨rfl, -⟩ | ⟨-, hold⟩
    · exact Nat.lt_succ_self _
    · exact Nat.lt_succ_of_lt (h.fresh id k' stage' hold)

theorem Guarded.move (h : d.Guarded) (hrun : d.running id = some (k, stage)) :
    (d.move id k stage').Guarded where
  claimed := by
    intro id' k' stage₁ hrun'
    rcases update_eq_some hrun' with ⟨rfl, hnew⟩ | ⟨-, hold⟩
    · cases hnew
      exact h.claimed id' k stage hrun
    · exact h.claimed id' k' stage₁ hold
  unique := by
    intro id₁ id₂ k' stage₁ stage₂ hrun₁ hrun₂
    rcases update_eq_some hrun₁ with ⟨rfl, hnew⟩ | ⟨-, hold⟩
    · cases hnew
      rcases update_eq_some hrun₂ with ⟨rfl, -⟩ | ⟨-, hold'⟩
      · rfl
      · exact h.unique _ _ _ _ _ hrun hold'
    · rcases update_eq_some hrun₂ with ⟨rfl, hnew⟩ | ⟨-, hold'⟩
      · cases hnew
        exact h.unique _ _ _ _ _ hold hrun
      · exact h.unique _ _ _ _ _ hold hold'
  fresh := by
    intro id' k' stage₁ hrun'
    rcases update_eq_some hrun' with ⟨rfl, -⟩ | ⟨-, hold⟩
    · exact h.fresh id' k stage hrun
    · exact h.fresh id' k' stage₁ hold

/-- What stays in flight when a piece of work ends. -/
theorem running_of_ended {id' : Nat}
    (hrun : Function.update d.running id none id' = some (k, stage)) :
    id' ≠ id ∧ d.running id' = some (k, stage) := by
  rcases update_eq_some hrun with ⟨-, hnew⟩ | hold
  · cases hnew
  · exact hold

theorem Guarded.finish (h : d.Guarded) : (d.finish id).Guarded where
  claimed _ _ _ hrun := h.claimed _ _ _ (running_of_ended hrun).2
  unique _ _ _ _ _ hrun hrun' :=
    h.unique _ _ _ _ _ (running_of_ended hrun).2 (running_of_ended hrun').2
  fresh _ _ _ hrun := h.fresh _ _ _ (running_of_ended hrun).2

theorem Guarded.release [DecidableEq K] (h : d.Guarded) (hrun : d.running id = some (k, stage)) :
    (d.release id k).Guarded where
  claimed := by
    intro id' k' stage₁ hrun'
    obtain ⟨hne, hold⟩ := running_of_ended hrun'
    refine Finset.mem_erase.mpr ⟨fun hsame => hne ?_, h.claimed id' k' stage₁ hold⟩
    subst hsame
    exact h.unique _ _ _ _ _ hold hrun
  unique _ _ _ _ _ hrun hrun' :=
    h.unique _ _ _ _ _ (running_of_ended hrun).2 (running_of_ended hrun').2
  fresh _ _ _ hrun := h.fresh _ _ _ (running_of_ended hrun).2

/-- Nothing else is in flight for the key of a piece of work that ends. -/
theorem Guarded.idle_finish (h : d.Guarded) (hrun : d.running id = some (k, stage)) :
    (d.finish id).Idle k := by
  intro id' stage' hrun'
  obtain ⟨hne, hold⟩ := running_of_ended hrun'
  exact hne (h.unique _ _ _ _ _ hold hrun)

/-! ## Claims that stand for something done -/

theorem Settled.mono {done' : K → Prop} (h : d.Settled done) (hle : ∀ k, done k → done' k) :
    d.Settled done' :=
  fun k hk hidle => hle k (h k hk hidle)

theorem Settled.start [DecidableEq K] (h : d.Settled done) (hfresh : d.running d.nextId = none) :
    (d.start k stage).Settled done := by
  intro k' hk' hidle
  have hne : k' ≠ k := by
    rintro rfl
    exact hidle d.nextId stage (Function.update_self _ _ _)
  refine h k' (Finset.mem_of_mem_insert_of_ne hk' hne) fun id' stage' hrun => ?_
  have hid : id' ≠ d.nextId := by
    rintro rfl
    rw [hfresh] at hrun
    cases hrun
  exact hidle id' stage' ((Function.update_of_ne hid _ _).trans hrun)

theorem Settled.move (h : d.Settled done) (hrun : d.running id = some (k, stage)) :
    (d.move id k stage').Settled done := by
  intro k' hk' hidle
  refine h k' hk' fun id' stage₁ hrun' => ?_
  by_cases hid : id' = id
  · subst hid
    cases hrun.symm.trans hrun'
    exact hidle id' stage' (Function.update_self _ _ _)
  · exact hidle id' stage₁ ((Function.update_of_ne hid _ _).trans hrun')

/-- Work that is done may keep its claim. -/
theorem Settled.finish (h : d.Settled done) (hrun : d.running id = some (k, stage))
    (hdone : done k) : (d.finish id).Settled done := by
  intro k' hk' hidle
  by_cases hsame : k' = k
  · exact hsame ▸ hdone
  · refine h k' hk' fun id' stage₁ hrun' => ?_
    have hid : id' ≠ id := by
      rintro rfl
      cases hrun.symm.trans hrun'
      exact hsame rfl
    exact hidle id' stage₁ ((Function.update_of_ne hid _ _).trans hrun')

/-- Any work may release it. -/
theorem Settled.release [DecidableEq K] (h : d.Settled done)
    (hrun : d.running id = some (k, stage)) : (d.release id k).Settled done := by
  intro k' hk' hidle
  obtain ⟨hne, hk'⟩ := Finset.mem_erase.mp hk'
  refine h k' hk' fun id' stage₁ hrun' => ?_
  have hid : id' ≠ id := by
    rintro rfl
    cases hrun.symm.trans hrun'
    exact hne rfl
  exact hidle id' stage₁ ((Function.update_of_ne hid _ _).trans hrun')

theorem Guarded.nextId_free (h : d.Guarded) : d.running d.nextId = none := by
  cases hrun : d.running d.nextId with
  | none => rfl
  | some work => exact absurd (h.fresh _ _ _ hrun) (Nat.lt_irrefl _)

end Desk

end OpSuccinct.InFlight
