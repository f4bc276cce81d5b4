/-! # Finite runs of a labelled transition relation

A run is a finite sequence of labelled steps.  Everything a development proves
about "every reachable state" or "every later state" goes through three rules:
a step-preserved predicate holds at the end of a run (`Run.invariant`), a
step-preserved predicate of the labels taken so far and the state does too
(`Run.traceInvariant`), and a reflexive, transitive relation that holds across
each step holds across the run (`Run.relates`).  A deterministic step function
that fails on a label it does not accept gives a transition relation
(`stepOf`), and its iteration (`runAll`) gives runs of it, so a concrete run is
checked by evaluation.  Where a property of a run speaks of the states its steps
were taken in, the labels carry them (`Taken`).
-/
namespace OpSuccinct.Transition

variable {S L : Type}

/-- `Run step s tr t`: from `s`, the steps labelled `tr`, oldest first, lead to `t`. -/
inductive Run (step : S → L → S → Prop) (s : S) : List L → S → Prop
  | nil : Run step s [] s
  | snoc {t u : S} {tr : List L} {l : L} :
      Run step s tr t → step t l u → Run step s (tr ++ [l]) u

namespace Run
variable {step step' : S → L → S → Prop} {s t u : S} {tr tr' : List L} {l : L}

theorem single (h : step s l t) : Run step s [l] t := snoc nil h

theorem trans (h : Run step s tr t) (h' : Run step t tr' u) : Run step s (tr ++ tr') u := by
  induction h' with
  | nil => simpa using h
  | snoc _ hs ih =>
    rw [← List.append_assoc]
    exact snoc ih hs

theorem cons (h : step s l t) (h' : Run step t tr u) : Run step s (l :: tr) u :=
  (single h).trans h'

/-- A run goes through a state between any two of its labels. -/
theorem of_append (h : Run step s (tr ++ tr') u) : ∃ t, Run step s tr t ∧ Run step t tr' u := by
  generalize hlabels : tr ++ tr' = labels at h
  induction h generalizing tr' with
  | nil =>
    obtain ⟨rfl, rfl⟩ := List.append_eq_nil_iff.mp hlabels
    exact ⟨s, nil, nil⟩
  | snoc hr hs ih =>
    rcases List.eq_nil_or_concat tr' with rfl | ⟨init, last, rfl⟩
    · rw [List.append_nil] at hlabels
      exact ⟨_, hlabels ▸ snoc hr hs, nil⟩
    · rw [List.concat_eq_append, ← List.append_assoc] at hlabels
      obtain ⟨hinit, hlast⟩ := List.append_inj' hlabels rfl
      obtain ⟨t, ht, hu⟩ := ih hinit
      obtain rfl := (List.cons.inj hlast).1
      exact ⟨t, ht, List.concat_eq_append ▸ snoc hu hs⟩

/-- The last step of a run. -/
theorem snoc_inv (h : Run step s (tr ++ [l]) u) : ∃ t, Run step s tr t ∧ step t l u := by
  generalize hlabels : tr ++ [l] = labels at h
  cases h with
  | nil => simp at hlabels
  | snoc hr hs =>
    obtain ⟨rfl, hlast⟩ := List.append_inj' hlabels rfl
    obtain rfl := (List.cons.inj hlast).1
    exact ⟨_, hr, hs⟩

/-- The step a label in the middle of a run stands for. -/
theorem of_append_cons (h : Run step s (tr ++ l :: tr') u) :
    ∃ a b, Run step s tr a ∧ step a l b ∧ Run step b tr' u := by
  rw [List.append_cons] at h
  obtain ⟨b, hb, hu⟩ := h.of_append
  obtain ⟨a, ha, hs⟩ := hb.snoc_inv
  exact ⟨a, b, ha, hs, hu⟩

/-- A run of a relation is a run of every larger relation. -/
theorem mono (hle : ∀ a l b, step a l b → step' a l b) (h : Run step s tr t) :
    Run step' s tr t := by
  induction h with
  | nil => exact nil
  | snoc _ hs ih => exact snoc ih (hle _ _ _ hs)

/-- **Invariants.**  A predicate every step preserves holds at the end of a run
that starts in it. -/
theorem invariant {I : S → Prop} (hstep : ∀ a l b, I a → step a l b → I b)
    (h : Run step s tr t) (h0 : I s) : I t := by
  induction h with
  | nil => exact h0
  | snoc _ hs ih => exact hstep _ _ _ ih hs

/-- **Invariants over the labels taken.**  The predicate may speak of the whole
sequence of labels that led to the state. -/
theorem traceInvariant {I : List L → S → Prop}
    (hstep : ∀ tr a l b, I tr a → step a l b → I (tr ++ [l]) b)
    (h : Run step s tr t) (h0 : I [] s) : I tr t := by
  induction h with
  | nil => exact h0
  | snoc _ hs ih => exact hstep _ _ _ _ ih hs

/-- A run inside an invariant is a run of every relation that holds of its steps. -/
theorem strengthen {I : S → Prop} (hinv : ∀ a l b, I a → step a l b → I b)
    (hle : ∀ a l b, I a → step a l b → step' a l b) (h : Run step s tr t) (h0 : I s) :
    Run step' s tr t := by
  induction h with
  | nil => exact nil
  | snoc hr hs ih => exact snoc ih (hle _ _ _ (hr.invariant hinv h0) hs)

/-- **Relations across a run.**  A reflexive, transitive relation that holds
across every step taken inside an invariant holds from the start of a run to its
end. -/
theorem relates {I : S → Prop} {R : S → S → Prop} (refl : ∀ a, R a a)
    (trans : ∀ a b c, R a b → R b c → R a c)
    (hinv : ∀ a l b, I a → step a l b → I b)
    (hstep : ∀ a l b, I a → step a l b → R a b)
    (h : Run step s tr t) (h0 : I s) : R s t := by
  induction h with
  | nil => exact refl s
  | snoc hr hs ih => exact trans _ _ _ ih (hstep _ _ _ (hr.invariant hinv h0) hs)

end Run

/-- The transition relation of a step function that fails on labels it does not
accept. -/
def stepOf (f : S → L → Option S) (s : S) (l : L) (t : S) : Prop := f s l = some t

/-- Iteration of a step function along a list of labels. -/
def runAll (f : S → L → Option S) (s : S) : List L → Option S
  | [] => some s
  | l :: tr => (f s l).bind fun t => runAll f t tr

/-- **Evaluating a step function along labels exhibits a run.** -/
theorem run_of_runAll {f : S → L → Option S} {s t : S} {tr : List L}
    (h : runAll f s tr = some t) : Run (stepOf f) s tr t := by
  induction tr generalizing s with
  | nil =>
    obtain rfl : s = t := Option.some.inj h
    exact .nil
  | cons l tr ih =>
    obtain ⟨u, hu, ht⟩ := Option.bind_eq_some_iff.mp h
    exact .cons hu (ih ht)

/-- Where the labels lead to, if all of them are accepted. -/
def endOf (f : S → L → Option S) (s : S) (tr : List L) : S := (runAll f s tr).getD s

theorem run_endOf {f : S → L → Option S} {s : S} {tr : List L}
    (h : (runAll f s tr).isSome = true) : Run (stepOf f) s tr (endOf f s tr) := by
  obtain ⟨t, ht⟩ := Option.isSome_iff_exists.mp h
  rw [endOf, ht]
  exact run_of_runAll ht

/-! ## Steps with their states -/

/-- A label with the states before and after its step. -/
structure Taken (S L : Type) where
  pre : S
  label : L
  post : S

/-- The transition relation of a step function, with the states in the label. -/
def takenOf (f : S → L → Option S) (s : S) (e : Taken S L) (t : S) : Prop :=
  e.pre = s ∧ e.post = t ∧ f s e.label = some t

/-- The steps a step function takes along labels, until one is not accepted. -/
def takenAll (f : S → L → Option S) (s : S) : List L → List (Taken S L)
  | [] => []
  | l :: tr =>
    match f s l with
    | some t => ⟨s, l, t⟩ :: takenAll f t tr
    | none => []

/-- **Evaluating a step function along labels exhibits a run** of its steps. -/
theorem run_takenAll {f : S → L → Option S} {s : S} {tr : List L}
    (h : (runAll f s tr).isSome = true) :
    Run (takenOf f) s (takenAll f s tr) (endOf f s tr) := by
  obtain ⟨t, ht⟩ := Option.isSome_iff_exists.mp h
  rw [endOf, ht]
  show Run (takenOf f) s (takenAll f s tr) t
  clear h
  induction tr generalizing s with
  | nil =>
    obtain rfl : s = t := Option.some.inj ht
    exact .nil
  | cons l tr ih =>
    obtain ⟨u, hu, ht⟩ := Option.bind_eq_some_iff.mp ht
    rw [takenAll, hu]
    exact .cons ⟨rfl, rfl, hu⟩ (ih ht)

end OpSuccinct.Transition
