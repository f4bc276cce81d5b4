import Mathlib.Logic.Function.Basic

/-! # Workers and their handles

A manager spawns workers, each on a datum it is given, and keeps a handle on one
worker for each job.  A worker is live until it has ended.  The manager is in
control of its workers when every live one is the one its job's handle is on
(`Fleet.Tracked`), and then no job has two live workers (`Tracked.unique`).

A step of a worker and the dropping of an ended worker's handle keep the
manager in control.  Spawning does so only when the job has no live worker: the
new handle replaces the old one.
-/
namespace OpSuccinct.Fleets

/-- An entry of a table after an update is the new one, or another one as it was. -/
theorem update_eq_some {K V : Type} [DecidableEq K] {f : K → Option V} {k k' : K} {v : Option V}
    {w : V} (h : Function.update f k v k' = some w) :
    k' = k ∧ v = some w ∨ k' ≠ k ∧ f k' = some w := by
  by_cases heq : k' = k
  · rw [heq, Function.update_self] at h
    exact .inl ⟨heq, h⟩
  · rw [Function.update_of_ne heq] at h
    exact .inr ⟨heq, h⟩

structure Worker (D T : Type) where
  datum : D
  state : T
  deriving DecidableEq

/-- The handles by job, the workers by key, and the next key. -/
structure Fleet (J D T : Type) where
  handles : J → Option (Nat × D)
  workers : Nat → Option (Worker D T)
  nextKey : Nat

namespace Fleet
variable {J D T : Type} (job : D → J) (live : T → Prop) (f : Fleet J D T)

/-- No live worker is on the job. -/
def NoLive (j : J) : Prop := ∀ k w, f.workers k = some w → job w.datum = j → ¬ live w.state

/-- **The manager is in control.** -/
structure Tracked : Prop where
  handle : ∀ j k d, f.handles j = some (k, d) → job d = j ∧ ∃ t, f.workers k = some ⟨d, t⟩
  live : ∀ k w, f.workers k = some w → live w.state →
    f.handles (job w.datum) = some (k, w.datum)
  fresh : ∀ k w, f.workers k = some w → k < f.nextKey

/-! ## Steps -/

/-- A worker gets to another state. -/
def move (k : Nat) (w : Worker D T) (t : T) : Fleet J D T :=
  { f with workers := Function.update f.workers k (some ⟨w.datum, t⟩) }

/-- The manager and all workers end. -/
def crash : Fleet J D T := { f with handles := fun _ => none, workers := fun _ => none }

def spawn [DecidableEq J] (d : D) (t : T) : Fleet J D T where
  handles := Function.update f.handles (job d) (some (f.nextKey, d))
  workers := Function.update f.workers f.nextKey (some ⟨d, t⟩)
  nextKey := f.nextKey + 1

/-- The handle on a job's worker is dropped. -/
def forget [DecidableEq J] (j : J) : Fleet J D T :=
  { f with handles := Function.update f.handles j none }

@[simp] theorem handles_move (k : Nat) (w : Worker D T) (t : T) :
    (f.move k w t).handles = f.handles := rfl

@[simp] theorem workers_move (k : Nat) (w : Worker D T) (t : T) :
    (f.move k w t).workers = Function.update f.workers k (some ⟨w.datum, t⟩) := rfl

@[simp] theorem handles_spawn [DecidableEq J] (d : D) (t : T) :
    (f.spawn job d t).handles = Function.update f.handles (job d) (some (f.nextKey, d)) := rfl

@[simp] theorem workers_spawn [DecidableEq J] (d : D) (t : T) :
    (f.spawn job d t).workers = Function.update f.workers f.nextKey (some ⟨d, t⟩) := rfl

@[simp] theorem handles_forget [DecidableEq J] (j : J) :
    (f.forget j).handles = Function.update f.handles j none := rfl

@[simp] theorem workers_forget [DecidableEq J] (j : J) : (f.forget j).workers = f.workers := rfl

variable {job live f}

/-! ## Control -/

/-- **No job has two live workers.** -/
theorem Tracked.unique (h : f.Tracked job live) {k k' : Nat} {w w' : Worker D T}
    (hw : f.workers k = some w) (hw' : f.workers k' = some w') (hlive : live w.state)
    (hlive' : live w'.state) (hjob : job w.datum = job w'.datum) : k = k' := by
  have hhandle := h.live k w hw hlive
  rw [hjob, h.live k' w' hw' hlive'] at hhandle
  exact (Prod.mk.inj (Option.some.inj hhandle)).1.symm

theorem Tracked.noLive_of_none (h : f.Tracked job live) {j : J} (hj : f.handles j = none) :
    f.NoLive job live j := by
  intro k w hw hjob hlive
  have hhandle := h.live k w hw hlive
  rw [hjob, hj] at hhandle
  cases hhandle

/-- The live worker on a job, if any, is the one the handle is on. -/
theorem Tracked.noLive_of_handle (h : f.Tracked job live) {j : J} {k : Nat} {d : D}
    {w : Worker D T} (hj : f.handles j = some (k, d)) (hw : f.workers k = some w)
    (hended : ¬ live w.state) : f.NoLive job live j := by
  intro k' w' hw' hjob hlive
  have hhandle := h.live k' w' hw' hlive
  rw [hjob, hj] at hhandle
  cases hhandle
  cases hw.symm.trans hw'
  exact hended hlive

theorem Tracked.move (h : f.Tracked job live) {k : Nat} {w : Worker D T} (t : T)
    (hw : f.workers k = some w) (hlive : live w.state) : (f.move k w t).Tracked job live where
  handle := by
    intro j k' d hj
    obtain ⟨hd, t', hw'⟩ := h.handle j k' d hj
    by_cases hk : k' = k
    · subst hk
      cases hw.symm.trans hw'
      exact ⟨hd, t, Function.update_self _ _ _⟩
    · exact ⟨hd, t', (Function.update_of_ne hk _ _).trans hw'⟩
  live := by
    intro k' w' hw' hlive'
    rcases update_eq_some hw' with ⟨rfl, hnew⟩ | ⟨-, hold⟩
    · cases hnew
      exact h.live k' w hw hlive
    · exact h.live k' w' hold hlive'
  fresh := by
    intro k' w' hw'
    rcases update_eq_some hw' with ⟨rfl, -⟩ | ⟨-, hold⟩
    · exact h.fresh k' w hw
    · exact h.fresh k' w' hold

theorem tracked_crash : f.crash.Tracked job live :=
  ⟨fun _ _ _ h => (nomatch h), fun _ _ h => (nomatch h), fun _ _ h => (nomatch h)⟩

/-- A live worker's step brings no other worker to life. -/
theorem NoLive.move {j : J} (h : f.NoLive job live j) {k : Nat} {w : Worker D T} (t : T)
    (hw : f.workers k = some w) (hlive : live w.state) : (f.move k w t).NoLive job live j := by
  intro k' w' hw' hjob
  rcases update_eq_some hw' with ⟨rfl, hnew⟩ | ⟨-, hold⟩
  · cases hnew
    exact absurd hlive (h k' w hw hjob)
  · exact h k' w' hold hjob

variable [DecidableEq J]

theorem Tracked.spawn (h : f.Tracked job live) {d : D} (t : T)
    (hnone : f.NoLive job live (job d)) : (f.spawn job d t).Tracked job live where
  handle := by
    intro j k d' hj
    rcases update_eq_some hj with ⟨rfl, hnew⟩ | ⟨-, hold⟩
    · cases hnew
      exact ⟨rfl, t, Function.update_self _ _ _⟩
    · obtain ⟨hd, t', hw⟩ := h.handle j k d' hold
      have hk : k ≠ f.nextKey := Nat.ne_of_lt (h.fresh k _ hw)
      exact ⟨hd, t', (Function.update_of_ne hk _ _).trans hw⟩
  live := by
    intro k w hw hlive
    rcases update_eq_some hw with ⟨rfl, hnew⟩ | ⟨-, hold⟩
    · cases hnew
      exact Function.update_self _ _ _
    · have hjob : job w.datum ≠ job d := fun heq => hnone k w hold heq hlive
      exact (Function.update_of_ne hjob _ _).trans (h.live k w hold hlive)
  fresh := by
    intro k w hw
    show k < f.nextKey + 1
    rcases update_eq_some hw with ⟨rfl, -⟩ | ⟨-, hold⟩
    · omega
    · have hlt := h.fresh k w hold
      omega

theorem Tracked.forget (h : f.Tracked job live) {j : J} (hnone : f.NoLive job live j) :
    (f.forget j).Tracked job live where
  handle := by
    intro j' k d hj
    rcases update_eq_some hj with ⟨-, hnew⟩ | ⟨-, hold⟩
    · cases hnew
    · exact h.handle j' k d hold
  live := by
    intro k w hw hlive
    have hjob : job w.datum ≠ j := fun heq => hnone k w hw heq hlive
    exact (Function.update_of_ne hjob _ _).trans (h.live k w hw hlive)
  fresh := h.fresh

end Fleet

end OpSuccinct.Fleets
