import OpSuccinct.TransitionRuns

/-! # Loops

The body of a loop either leaves it with a result or goes on in another state,
with a label for what it did (`Turn`).  `loop` iterates a body with a bound on
the number of turns; the turns it takes are a run of the body's transition
relation (`Turns`), and the loop returns exactly when such a run ends in a state
whose turn leaves it (`loop_returns_iff`).  Runs of one body from one state are
prefixes of each other (`turns_total`), so what one run shows about the turns of
a loop holds of all of them.
-/
namespace OpSuccinct.Transition

variable {S L R : Type}

/-- What one turn of a loop does. -/
inductive Turn (S L R : Type)
  | done (result : R)
  | next (label : L) (state : S)

/-- At most `fuel` turns of the loop with body `body`. -/
def loop (body : S → Turn S L R) : Nat → S → Option R
  | 0, _ => none
  | fuel + 1, s =>
    match body s with
    | .done r => some r
    | .next _ t => loop body fuel t

/-- The turns of the loop as a labelled transition relation. -/
def Turns (body : S → Turn S L R) (s : S) (l : L) (t : S) : Prop := body s = .next l t

variable {body : S → Turn S L R} {s t u : S} {tr tr' : List L} {r : R}

theorem Run.cases_head {step : S → L → S → Prop} (h : Run step s tr t) :
    (tr = [] ∧ s = t) ∨ ∃ l tr' u, tr = l :: tr' ∧ step s l u ∧ Run step u tr' t := by
  induction h with
  | nil => exact .inl ⟨rfl, rfl⟩
  | snoc h hs ih =>
    obtain ⟨rfl, rfl⟩ | ⟨l, tr', u, rfl, hhead, hrest⟩ := ih
    · exact .inr ⟨_, _, _, rfl, hs, .nil⟩
    · exact .inr ⟨l, _, u, rfl, hhead, hrest.snoc hs⟩

/-- **The loop returns** exactly when its turns lead to a state that leaves it. -/
theorem loop_returns_iff :
    (∃ fuel, loop body fuel s = some r) ↔ ∃ tr t, Run (Turns body) s tr t ∧ body t = .done r := by
  constructor
  · rintro ⟨fuel, h⟩
    induction fuel generalizing s with
    | zero => cases h
    | succ fuel ih =>
      rw [loop] at h
      split at h
      · rename_i hdone
        obtain rfl := Option.some.inj h
        exact ⟨[], s, .nil, hdone⟩
      · rename_i l t hnext
        obtain ⟨tr, u, hrun, hdone⟩ := ih h
        exact ⟨l :: tr, u, .cons hnext hrun, hdone⟩
  · rintro ⟨tr, t, hrun, hdone⟩
    induction tr generalizing s with
    | nil =>
      obtain ⟨-, rfl⟩ | ⟨_, _, _, heq, -⟩ := hrun.cases_head
      · exact ⟨1, by rw [loop, hdone]⟩
      · cases heq
    | cons l tr ih =>
      obtain ⟨heq, -⟩ | ⟨l', tr', u, heq, hnext, hrest⟩ := hrun.cases_head
      · cases heq
      · cases heq
        obtain ⟨fuel, hloop⟩ := ih hrest
        exact ⟨fuel + 1, by rw [loop, hnext]; exact hloop⟩

/-- **Determinism.**  Of two runs of a loop from one state, one continues the other. -/
theorem turns_total (h : Run (Turns body) s tr t) (h' : Run (Turns body) s tr' u) :
    (∃ tr'', tr' = tr ++ tr'' ∧ Run (Turns body) t tr'' u) ∨
      ∃ tr'', tr = tr' ++ tr'' ∧ Run (Turns body) u tr'' t := by
  induction h with
  | nil => exact .inl ⟨tr', rfl, h'⟩
  | snoc _ hs ih =>
    obtain ⟨tr'', rfl, hrest⟩ | ⟨tr'', rfl, hrest⟩ := ih
    · obtain ⟨rfl, rfl⟩ | ⟨l', tr₁, v, rfl, hhead, htail⟩ := hrest.cases_head
      · exact .inr ⟨_, by rw [List.append_nil], .single hs⟩
      · -- The next turn of the longer run is the one just taken.
        obtain ⟨rfl, rfl⟩ : l' = _ ∧ v = _ := by
          have heq := hhead.symm.trans hs
          exact ⟨by injection heq, by injection heq⟩
        exact .inl ⟨tr₁, by simp, htail⟩
    · exact .inr ⟨_, by rw [List.append_assoc], hrest.snoc hs⟩

end OpSuccinct.Transition
