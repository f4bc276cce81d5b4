import OpSuccinct.TransitionRuns

/-! # Call frames that may revert

A contract's state changes inside nested message calls: an action may hand
control to other code, which may call back before the action returns, and any
frame may end by reverting, which undoes everything done since it was entered.
`FrameStep` adds frames to an arbitrary transition relation.  A call that runs
foreign code before it returns is `enter` followed by the call; its success is
`returned` and its failure `reverted`.

Two rules carry facts about single steps to states inside any nesting: a
step-preserved predicate holds of the current state and of every saved one
(`Frames.invariant`), and a value that steps keep once it is set is kept across a
run (`Frames.keeps`).
-/
namespace OpSuccinct.Transition

variable {S L : Type}

/-- The current state, and the states in which the open frames were entered,
innermost first. -/
structure Frames (S : Type) where
  current : S
  saved : List S

inductive FrameOp (L : Type)
  | enter
  | call (l : L)
  | returned
  | reverted

/-- **One step inside call frames.** -/
inductive FrameStep (step : S → L → S → Prop) : Frames S → FrameOp L → Frames S → Prop
  | enter (a : S) (saved : List S) : FrameStep step ⟨a, saved⟩ .enter ⟨a, a :: saved⟩
  | call (a b : S) (saved : List S) (l : L) :
      step a l b → FrameStep step ⟨a, saved⟩ (.call l) ⟨b, saved⟩
  | returned (a entered : S) (saved : List S) :
      FrameStep step ⟨a, entered :: saved⟩ .returned ⟨a, saved⟩
  | reverted (a entered : S) (saved : List S) :
      FrameStep step ⟨a, entered :: saved⟩ .reverted ⟨entered, saved⟩

namespace Frames
variable {step : S → L → S → Prop} {s t : Frames S} {tr : List (FrameOp L)}

/-- The predicate holds of the current state and of every saved one. -/
def All (I : S → Prop) (s : Frames S) : Prop := I s.current ∧ ∀ a ∈ s.saved, I a

/-- **Invariants.**  What every step preserves holds inside every nesting. -/
theorem invariant {I : S → Prop} {P : L → Prop}
    (hstep : ∀ a l b, I a → P l → step a l b → I b) (hrun : Run (FrameStep step) s tr t)
    (hl : ∀ l, .call l ∈ tr → P l) (h₀ : s.All I) : t.All I := by
  refine hrun.traceInvariant (I := fun tr t => (∀ l, .call l ∈ tr → P l) → t.All I)
    ?_ (fun _ => h₀) hl
  intro tr a op b ih hs hops
  obtain ⟨hcur, hsaved⟩ := ih fun l hmem => hops l (List.mem_append_left _ hmem)
  cases hs with
  | enter a saved =>
    exact ⟨hcur, by simpa using ⟨hcur, hsaved⟩⟩
  | call a b saved l hab =>
    exact ⟨hstep a l b hcur (hops l (by simp)) hab, hsaved⟩
  | returned a entered saved =>
    exact ⟨hcur, fun x hx => hsaved x (List.mem_cons_of_mem _ hx)⟩
  | reverted a entered saved =>
    exact ⟨hsaved entered List.mem_cons_self, fun x hx => hsaved x (List.mem_cons_of_mem _ hx)⟩

/-- **Values set once.**  If no step changes `f` where it satisfies `P`, a run
from outside all frames does not change it either. -/
theorem keeps {β : Type} {f : S → β} {P : β → Prop}
    (hstep : ∀ a l b, P (f a) → step a l b → f b = f a) (hrun : Run (FrameStep step) s tr t)
    (h₀ : s.saved = []) (hs : P (f s.current)) : f t.current = f s.current := by
  refine (invariant (I := fun a => f a = f s.current) (P := fun _ => True)
    (fun a l b ha _ hab => ?_) hrun (fun _ _ => trivial) ⟨rfl, by simp [h₀]⟩).1
  exact (hstep a l b (ha ▸ hs) hab).trans ha

end Frames

end OpSuccinct.Transition
