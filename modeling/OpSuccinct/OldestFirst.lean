import Mathlib.Data.Finset.Card
import Mathlib.Data.Finset.Range
import OpSuccinct.TransitionRuns

/-! # Serving the oldest request first

Requests are numbered in the order they arrive, and one server takes an open one at a time:
the oldest that is ready, whenever there is one.  Taking a request and being done with it are
two steps, so others may act in between, and they may withdraw requests, but no request opens
again, and what is ready stays so while it is open.

Then a ready request is overtaken by none that arrives later.  It is no longer open once the
server was done as often as there were open requests up to it (`OldestFirst.not_open`), whatever
came in or got ready meanwhile.
-/
namespace OpSuccinct.Transition

open Classical in
/-- The number of open requests up to `i`. -/
noncomputable def openUpTo {S : Type} (Open : S → Nat → Prop) (s : S) (i : Nat) : Nat :=
  ((Finset.range (i + 1)).filter (Open s)).card

theorem openUpTo_le {S : Type} (Open : S → Nat → Prop) (s : S) (i : Nat) :
    openUpTo Open s i ≤ i + 1 := by
  classical
  exact (Finset.card_filter_le _ _).trans (Finset.card_range (i + 1)).le

/-- **One server**, that takes the oldest of the ready requests.  `done` marks the steps that
end a service. -/
structure OldestFirst {S L : Type} (step : S → L → S → Prop) (arrived : S → Nat)
    (Open Ready : S → Nat → Prop) (serving : S → Option Nat) (done : L → Bool) : Prop where
  arrives : ∀ {s t l}, step s l t → arrived s ≤ arrived t
  /-- No request opens again. -/
  closed : ∀ {s t l i}, step s l t → i < arrived s → Open t i → Open s i
  /-- A ready request stays ready while it is open. -/
  keeps : ∀ {s t l i}, step s l t → Ready s i → Open t i → Ready t i
  /-- The server takes nothing while it serves, and nothing above a ready request. -/
  takes : ∀ {s t l}, step s l t → done l = false →
    serving t = serving s ∨ serving t = none ∨
      serving s = none ∧ ∀ i j, i < arrived s → serving t = some j → Ready s i → Open s j ∧ j ≤ i
  /-- A served request is not open. -/
  serves : ∀ {s t l}, step s l t → done l = true →
    serving t = none ∧ ∃ j, serving s = some j ∧ ¬ Open t j

/-- How often the server was done. -/
def served {L : Type} (done : L → Bool) (tr : List L) : Nat := tr.countP done

section Waiting
variable {S L : Type} {step : S → L → S → Prop} {arrived : S → Nat} {Open Ready : S → Nat → Prop}
  {serving : S → Option Nat} {done : L → Bool} {s t : S} {tr : List L} {l : L} {i : Nat}

open Classical in
/-- The open requests up to `i` that are not being served. -/
noncomputable def waitingUpTo (Open : S → Nat → Prop) (serving : S → Option Nat) (s : S)
    (i : Nat) : Finset Nat :=
  (Finset.range (i + 1)).filter fun j => Open s j ∧ serving s ≠ some j

theorem mem_waitingUpTo {j : Nat} :
    j ∈ waitingUpTo Open serving s i ↔ j ≤ i ∧ Open s j ∧ serving s ≠ some j := by
  simp only [waitingUpTo, Finset.mem_filter, Finset.mem_range, Nat.lt_succ_iff]

/-- What a request that is still open waited for: the `n` services since, the one that goes on,
and the requests that still wait. -/
noncomputable def waited (Open : S → Nat → Prop) (serving : S → Option Nat) (s : S) (i n : Nat) :
    Nat :=
  (waitingUpTo Open serving s i).card + n + if serving s = none then 0 else 1

/-- What waits after a step waited before it, or was being served. -/
theorem OldestFirst.waiting_of_step (h : OldestFirst step arrived Open Ready serving done)
    (hstep : step s l t) (hi : i < arrived s) {j : Nat} (hj : j ∈ waitingUpTo Open serving t i) :
    j ∈ waitingUpTo Open serving s i ∨ serving s = some j := by
  obtain ⟨hji, hopen, -⟩ := mem_waitingUpTo.mp hj
  have hbefore := h.closed hstep (Nat.lt_of_le_of_lt hji hi) hopen
  by_cases hserving : serving s = some j
  · exact .inr hserving
  · exact .inl (mem_waitingUpTo.mpr ⟨hji, hbefore, hserving⟩)

/-- Nothing new waits while the server goes on. -/
theorem OldestFirst.waiting_subset (h : OldestFirst step arrived Open Ready serving done)
    (hstep : step s l t) (hi : i < arrived s)
    (hserving : ∀ j, serving s = some j → Open t j → serving t = some j) :
    waitingUpTo Open serving t i ⊆ waitingUpTo Open serving s i := by
  intro j hj
  rcases h.waiting_of_step hstep hi hj with hw | hs
  · exact hw
  · obtain ⟨-, hopen, hne⟩ := mem_waitingUpTo.mp hj
    exact absurd (hserving j hs hopen) hne

/-- **One step** does not add to what a ready request waits for. -/
theorem OldestFirst.waited_step (h : OldestFirst step arrived Open Ready serving done)
    (hstep : step s l t) (hi : i < arrived s) (hready : Ready s i) (n : Nat) :
    waited Open serving t i (n + if done l then 1 else 0) ≤ waited Open serving s i n := by
  unfold waited
  by_cases hdone : done l = true
  · obtain ⟨hnone, j, hj, hclosed⟩ := h.serves hstep hdone
    have hsub := Finset.card_le_card (h.waiting_subset hstep hi fun j' hj' hopen' => by
      obtain rfl : j = j' := Option.some.inj (hj.symm.trans hj')
      exact absurd hopen' hclosed)
    simp only [hdone, hnone, hj, if_true, reduceCtorEq, if_false]
    omega
  · rw [if_neg hdone]
    rcases h.takes hstep (by simpa using hdone) with hsame | hdropped | ⟨hidle, htakes⟩
    · have hsub := Finset.card_le_card (h.waiting_subset hstep hi fun j hj _ => hsame.trans hj)
      rw [hsame]
      omega
    · cases hs : serving s with
      | none =>
        have hsub := Finset.card_le_card (h.waiting_subset hstep hi fun j hj _ => by
          rw [hs] at hj
          cases hj)
        simp only [hdropped, if_true]
        omega
      | some j =>
        have hsub : waitingUpTo Open serving t i ⊆ insert j (waitingUpTo Open serving s i) := by
          intro j' hj'
          rcases h.waiting_of_step hstep hi hj' with hw | hj
          · exact Finset.mem_insert_of_mem hw
          · obtain rfl : j = j' := Option.some.inj (hs.symm.trans hj)
            exact Finset.mem_insert_self _ _
        have hcard := (Finset.card_le_card hsub).trans (Finset.card_insert_le _ _)
        simp only [hdropped, if_true, reduceCtorEq, if_false]
        omega
    · have hsub := h.waiting_subset hstep hi fun j hj _ => by
        rw [hidle] at hj
        cases hj
      cases ht : serving t with
      | none =>
        have hcard := Finset.card_le_card hsub
        simp only [hidle, if_true]
        omega
      | some j =>
        -- the request that is taken waited, and waits no more
        obtain ⟨hj, hji⟩ := htakes i j hi ht hready
        have hmem : j ∈ waitingUpTo Open serving s i :=
          mem_waitingUpTo.mpr ⟨hji, hj, by rw [hidle]; nofun⟩
        have herase : waitingUpTo Open serving t i ⊆ (waitingUpTo Open serving s i).erase j := by
          intro j' hj'
          refine Finset.mem_erase.mpr ⟨fun heq => ?_, hsub hj'⟩
          exact (mem_waitingUpTo.mp hj').2.2 (heq ▸ ht)
        have hcard := Finset.card_le_card herase
        rw [Finset.card_erase_of_mem hmem] at hcard
        have hpos := Finset.card_pos.mpr ⟨j, hmem⟩
        simp only [hidle, if_true, reduceCtorEq, if_false]
        omega

/-- **A ready request is overtaken by no later one**: after as many services as there were open
requests up to it, it is not open. -/
theorem OldestFirst.not_open (h : OldestFirst step arrived Open Ready serving done)
    (hrun : Run step s tr t) (hidle : serving s = none) (hi : i < arrived s)
    (hready : Open s i → Ready s i) (hserved : openUpTo Open s i ≤ served done tr) :
    ¬ Open t i := by
  have hinv : i < arrived t ∧ (Open t i → Ready t i ∧
      waited Open serving t i (served done tr) ≤ openUpTo Open s i) := by
    refine hrun.traceInvariant (I := fun tr t => i < arrived t ∧ (Open t i → Ready t i ∧
      waited Open serving t i (served done tr) ≤ openUpTo Open s i))
      ?_ ⟨hi, fun hopen => ⟨hready hopen, ?_⟩⟩
    · rintro tr a l b ⟨hia, hwaited⟩ hstep
      refine ⟨Nat.lt_of_lt_of_le hia (h.arrives hstep), fun hopen => ?_⟩
      obtain ⟨hready, hwaited⟩ := hwaited (h.closed hstep hia hopen)
      have hle := h.waited_step hstep hia hready (served done tr)
      rw [served, List.countP_append, List.countP_singleton]
      exact ⟨h.keeps hstep hready hopen, hle.trans hwaited⟩
    · rw [waited, if_pos hidle, openUpTo]
      show (waitingUpTo Open serving s i).card ≤ _
      refine Finset.card_le_card fun j hj => ?_
      obtain ⟨hji, hopen, -⟩ := mem_waitingUpTo.mp hj
      classical exact Finset.mem_filter.mpr ⟨Finset.mem_range_succ_iff.mpr hji, hopen⟩
  intro hopen
  obtain ⟨-, hwaited⟩ := hinv.2 hopen
  by_cases hserving : serving t = none
  · have hmem : i ∈ waitingUpTo Open serving t i :=
      mem_waitingUpTo.mpr ⟨Nat.le_refl i, hopen, by rw [hserving]; nofun⟩
    have hpos := Finset.card_pos.mpr ⟨i, hmem⟩
    unfold waited at hwaited
    omega
  · rw [waited, if_neg hserving] at hwaited
    omega

end Waiting
end OpSuccinct.Transition
