import Mathlib.Algebra.Ring.Nat

/-! # Checked steps of a reverting computation

Guards and overflow-checked operations in `Except`, with the inversion lemmas
that take a successful computation apart: a guard that passed was true, a
checked operation that returned did not overflow, and a successful sequence
succeeded at every step.
-/
namespace OpSuccinct

variable {ε α β : Type}

/-- Fail with `e` unless `c` holds. -/
def require (c : Prop) [Decidable c] (e : ε) : Except ε Unit :=
  if c then .ok () else .error e

/-- Addition of unsigned integers of `width` bits that fails on overflow. -/
def checkedAdd (width : Nat) (e : ε) (a b : Nat) : Except ε Nat :=
  if a + b < 2 ^ width then .ok (a + b) else .error e

/-- Multiplication of unsigned integers of `width` bits that fails on overflow. -/
def checkedMul (width : Nat) (e : ε) (a b : Nat) : Except ε Nat :=
  if a * b < 2 ^ width then .ok (a * b) else .error e

/-- Subtraction of unsigned integers that fails on underflow. -/
def checkedSub (e : ε) (a b : Nat) : Except ε Nat :=
  if b ≤ a then .ok (a - b) else .error e

theorem bind_ok_iff {x : Except ε α} {f : α → Except ε β} {b : β} :
    (x >>= f) = .ok b ↔ ∃ a, x = .ok a ∧ f a = .ok b := by
  cases x with
  | error e => simp [bind, Except.bind]
  | ok a => simp [bind, Except.bind]

theorem bind_error_iff {x : Except ε α} {f : α → Except ε β} {e : ε} :
    (x >>= f) = .error e ↔ x = .error e ∨ ∃ a, x = .ok a ∧ f a = .error e := by
  cases x with
  | error e' => simp [bind, Except.bind]
  | ok a => simp [bind, Except.bind]

@[simp] theorem map_ok_iff {x : Except ε α} {f : α → β} {b : β} :
    f <$> x = .ok b ↔ ∃ a, x = .ok a ∧ f a = b := by
  cases x with
  | error e => simp [Functor.map, Except.map]
  | ok a => simp [Functor.map, Except.map]

@[simp] theorem map_error_iff {x : Except ε α} {f : α → β} {e : ε} :
    f <$> x = .error e ↔ x = .error e := by
  cases x with
  | error e' => simp [Functor.map, Except.map]
  | ok a => simp [Functor.map, Except.map]

theorem mapError_ok_iff {ε' : Type} {f : ε → ε'} {x : Except ε α} {a : α} :
    x.mapError f = .ok a ↔ x = .ok a := by
  cases x <;> simp [Except.mapError]

/-- A computation that evaluates to a result returns it. -/
theorem exists_ok_of_isSome {x : Except ε α} (h : x.toOption.isSome = true) : ∃ a, x = .ok a := by
  cases x with
  | error e => simp [Except.toOption] at h
  | ok a => exact ⟨a, rfl⟩

@[simp] theorem pure_ok_iff {a b : α} : (pure a : Except ε α) = .ok b ↔ a = b := by
  simp [pure, Except.pure]

@[simp] theorem throw_ok_iff {e : ε} {b : α} : (throw e : Except ε α) = .ok b ↔ False := by
  simp [throw, throwThe, MonadExceptOf.throw]

@[simp] theorem require_ok_iff {c : Prop} [Decidable c] {e : ε} {u : Unit} :
    require c e = .ok u ↔ c := by
  unfold require
  split <;> simp_all

@[simp] theorem require_error_iff {c : Prop} [Decidable c] {e e' : ε} :
    require c e = .error e' ↔ ¬ c ∧ e = e' := by
  unfold require
  split <;> simp_all

@[simp] theorem checkedAdd_ok_iff {width : Nat} {e : ε} {a b c : Nat} :
    checkedAdd width e a b = .ok c ↔ a + b < 2 ^ width ∧ a + b = c := by
  unfold checkedAdd
  split <;> simp <;> omega

@[simp] theorem checkedAdd_error_iff {width : Nat} {e e' : ε} {a b : Nat} :
    checkedAdd width e a b = .error e' ↔ 2 ^ width ≤ a + b ∧ e = e' := by
  unfold checkedAdd
  split <;> simp <;> omega

@[simp] theorem checkedMul_ok_iff {width : Nat} {e : ε} {a b c : Nat} :
    checkedMul width e a b = .ok c ↔ a * b < 2 ^ width ∧ a * b = c := by
  unfold checkedMul
  split <;> simp <;> omega

@[simp] theorem checkedSub_ok_iff {e : ε} {a b c : Nat} :
    checkedSub e a b = .ok c ↔ b ≤ a ∧ a - b = c := by
  unfold checkedSub
  split <;> simp <;> omega

@[simp] theorem checkedSub_error_iff {e e' : ε} {a b : Nat} :
    checkedSub e a b = .error e' ↔ a < b ∧ e = e' := by
  unfold checkedSub
  split <;> simp <;> omega

/-- A traversal succeeds exactly when every element passes. -/
theorem forM_ok_iff {xs : List α} {f : α → Except ε Unit} {u : Unit} :
    xs.forM f = .ok u ↔ ∀ x ∈ xs, f x = .ok () := by
  induction xs with
  | nil => simp [List.forM]
  | cons x xs ih =>
    show (f x >>= fun _ => xs.forM f) = .ok u ↔ _
    rw [bind_ok_iff]
    constructor
    · rintro ⟨_, hx, hxs⟩ y hy
      rcases List.mem_cons.mp hy with rfl | hy
      · exact hx
      · exact ih.mp hxs y hy
    · intro h
      exact ⟨(), h x List.mem_cons_self, ih.mpr fun y hy => h y (List.mem_cons_of_mem x hy)⟩

/-- A traversal returns all results when every element has one. -/
theorem mapM_ok {xs : List α} {f : α → Except ε β} {g : α → β} (h : ∀ x ∈ xs, f x = .ok (g x)) :
    xs.mapM f = .ok (xs.map g) := by
  induction xs with
  | nil => rfl
  | cons x xs ih =>
    have htail := ih fun y hy => h y (List.mem_cons_of_mem x hy)
    rw [List.mapM_cons, h x List.mem_cons_self, htail]
    rfl

end OpSuccinct
