import Mathlib.Data.List.Basic

/-! # Windows of an ordered list

The entries of a list come in the order of a key.  The first entry with a property whose
key lies in a window (`firstIn`) is looked for window by window: two windows that touch
give what the window they make up gives (`firstIn_append`).
-/
namespace OpSuccinct.Windows

variable {α : Type} {key : α → Nat} {p : α → Bool} {xs : List α} {lo mid hi : Nat} {x : α}

/-- The key lies in the window, both ends included. -/
def inWindow (key : α → Nat) (lo hi : Nat) (x : α) : Bool := decide (lo ≤ key x ∧ key x ≤ hi)

theorem inWindow_iff : inWindow key lo hi x = true ↔ lo ≤ key x ∧ key x ≤ hi := decide_eq_true_iff

/-- The first entry in the window with the property. -/
def firstIn (key : α → Nat) (p : α → Bool) (xs : List α) (lo hi : Nat) : Option α :=
  (xs.filter (inWindow key lo hi)).find? p

/-- The keys do not decrease. -/
def Ordered (key : α → Nat) (xs : List α) : Prop := xs.Pairwise fun x y => key x ≤ key y

theorem firstIn_some (h : firstIn key p xs lo hi = some x) :
    x ∈ xs ∧ (lo ≤ key x ∧ key x ≤ hi) ∧ p x = true := by
  obtain ⟨hx, hwindow⟩ := List.mem_filter.mp (List.mem_of_find?_eq_some h)
  exact ⟨hx, inWindow_iff.mp hwindow, List.find?_some h⟩

theorem firstIn_isSome_iff :
    (firstIn key p xs lo hi).isSome = true ↔
      ∃ x ∈ xs, (lo ≤ key x ∧ key x ≤ hi) ∧ p x = true := by
  simp only [firstIn, List.find?_isSome, List.mem_filter, inWindow_iff]
  exact exists_congr fun _ => and_assoc

/-- An empty window holds nothing. -/
theorem firstIn_of_lt (h : hi < lo) : firstIn key p xs lo hi = none := by
  cases hfirst : firstIn key p xs lo hi with
  | none => rfl
  | some x =>
    obtain ⟨-, ⟨hlo, hhi⟩, -⟩ := firstIn_some hfirst
    omega

/-- In an ordered list the entries of a window come before those of the next. -/
theorem filter_append (hxs : Ordered key xs) (hlo : lo ≤ mid + 1) (hhi : mid ≤ hi) :
    xs.filter (inWindow key lo hi) =
      xs.filter (inWindow key lo mid) ++ xs.filter (inWindow key (mid + 1) hi) := by
  induction xs with
  | nil => rfl
  | cons x xs ih =>
    obtain ⟨hfirst, hxs⟩ := List.pairwise_cons.mp hxs
    have hrest := ih hxs
    have hle : ∀ y ∈ x :: xs, key x ≤ key y := by
      intro y hy
      rcases List.mem_cons.mp hy with rfl | hy
      · exact Nat.le_refl _
      · exact hfirst y hy
    by_cases hmid : key x ≤ mid
    · -- The entry may lie in the first window, and does not lie in the second.
      have hsecond : inWindow key (mid + 1) hi x = false :=
        decide_eq_false fun h => absurd h.1 (by omega)
      have hsame : inWindow key lo hi x = inWindow key lo mid x :=
        decide_eq_decide.mpr (by omega)
      rw [List.filter_cons, List.filter_cons, List.filter_cons, hsecond, hsame, hrest]
      cases inWindow key lo mid x <;> rfl
    · -- Neither it nor a later entry lies in the first window.
      have hnone : (x :: xs).filter (inWindow key lo mid) = [] := by
        rw [List.filter_eq_nil_iff]
        intro y hy
        have hlater := hle y hy
        rw [inWindow_iff]
        omega
      rw [hnone, List.nil_append]
      refine List.filter_congr fun y hy => decide_eq_decide.mpr ?_
      have hlater := hle y hy
      omega

/-- **Window by window.** -/
theorem firstIn_append (hxs : Ordered key xs) (hlo : lo ≤ mid + 1) (hhi : mid ≤ hi) :
    firstIn key p xs lo hi =
      (firstIn key p xs lo mid).or (firstIn key p xs (mid + 1) hi) := by
  rw [firstIn, filter_append hxs hlo hhi, List.find?_append]
  rfl

/-- What the first of two windows gives is what both give. -/
theorem firstIn_of_some (hxs : Ordered key xs) (hlo : lo ≤ mid + 1) (hhi : mid ≤ hi)
    (h : firstIn key p xs lo mid = some x) : firstIn key p xs lo hi = some x := by
  rw [firstIn_append hxs hlo hhi, h]
  rfl

/-- If the first of two windows gives nothing, both give what the second gives. -/
theorem firstIn_of_none (hxs : Ordered key xs) (hlo : lo ≤ mid + 1) (hhi : mid ≤ hi)
    (h : firstIn key p xs lo mid = none) :
    firstIn key p xs lo hi = firstIn key p xs (mid + 1) hi := by
  rw [firstIn_append hxs hlo hhi, h]
  rfl

end OpSuccinct.Windows
