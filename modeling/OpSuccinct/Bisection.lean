import Mathlib.Order.Bounds.Defs
import OpSuccinct.CheckedArith

/-! # Bisection with inclusive bounds

A search narrows an interval of machine integers, both of its ends included.  The middle is
probed, and the search stops there, or goes on below it, up to `middle - 1`, or above it,
from `middle + 1`; each of the three sums may leave the range of the integers.

What a search does is shown with one rule (`Search.run_spec`): an invariant of the part
that is left, written with an excluded end, so that it never speaks of `0 - 1`.  The usual
invariant is that the boundary of a property lies in that part (`Bracket`), and with it the
search ends at the boundary.  Where every probe sends the search the same way it runs out
of the integers instead (`Search.run_underflow`, `Search.run_overflow`).
-/
namespace OpSuccinct.Bisection

variable {ε A R : Type}

/-! ## The search -/

/-- Where a probe sends the search, with what is known then. -/
inductive Verdict (A R : Type)
  | stop (result : R)
  | lower (acc : A)
  | higher (acc : A)

/-- How a search ends: at a probe, or when its bounds have crossed. -/
inductive Outcome (A R : Type)
  | stopped (result : R)
  | crossed (low : Nat) (acc : A)

/-- What a search depends on: the integers are below `limit`, the sum of two bounds is
computed if `sumFits`, and `overflow` is the error of a sum that leaves the integers. -/
structure Search (ε A R : Type) where
  limit : Nat
  overflow : ε
  sumFits : Nat → Nat → Bool
  probe : Nat → A → Except ε (Verdict A R)

def middle (low high : Nat) : Nat := low + (high - low) / 2

theorem le_middle (low high : Nat) : low ≤ middle low high := Nat.le_add_right _ _

theorem middle_le {low high : Nat} (h : low ≤ high) : middle low high ≤ high := by
  unfold middle
  omega

/-- The middle, computed by the sum of the bounds. -/
theorem add_div_two {low high : Nat} (h : low ≤ high) : (low + high) / 2 = middle low high := by
  unfold middle
  omega

/-- The loop, while the bounds have not crossed. -/
def Search.run (s : Search ε A R) (low high : Nat) (acc : A) : Except ε (Outcome A R) :=
  if low ≤ high then
    if s.sumFits low high = true then
      match s.probe (middle low high) acc with
      | .error e => .error e
      | .ok (.stop r) => .ok (.stopped r)
      | .ok (.lower acc) =>
        if middle low high = 0 then .error s.overflow else s.run low (middle low high - 1) acc
      | .ok (.higher acc) =>
        if middle low high + 1 < s.limit then s.run (middle low high + 1) high acc
        else .error s.overflow
    else .error s.overflow
  else .ok (.crossed low acc)
termination_by high + 1 - low
decreasing_by all_goals (unfold middle at *; omega)

variable {s : Search ε A R} {low high : Nat} {acc acc' : A}

theorem Search.run_of_lt (h : high < low) : s.run low high acc = .ok (.crossed low acc) := by
  rw [Search.run, if_neg (Nat.not_le.mpr h)]

theorem Search.run_of_not_sumFits (hle : low ≤ high) (hsum : s.sumFits low high = false) :
    s.run low high acc = .error s.overflow := by
  rw [Search.run, if_pos hle, hsum, if_neg Bool.false_ne_true]

theorem Search.run_of_stop {r : R} (hle : low ≤ high) (hsum : s.sumFits low high = true)
    (hprobe : s.probe (middle low high) acc = .ok (.stop r)) :
    s.run low high acc = .ok (.stopped r) := by
  rw [Search.run, if_pos hle, if_pos hsum, hprobe]

theorem Search.run_of_lower (hle : low ≤ high) (hsum : s.sumFits low high = true)
    (hprobe : s.probe (middle low high) acc = .ok (.lower acc')) :
    s.run low high acc =
      if middle low high = 0 then .error s.overflow else s.run low (middle low high - 1) acc' := by
  rw [Search.run, if_pos hle, if_pos hsum, hprobe]

theorem Search.run_of_higher (hle : low ≤ high) (hsum : s.sumFits low high = true)
    (hprobe : s.probe (middle low high) acc = .ok (.higher acc')) :
    s.run low high acc =
      if middle low high + 1 < s.limit then s.run (middle low high + 1) high acc'
      else .error s.overflow := by
  rw [Search.run, if_pos hle, if_pos hsum, hprobe]

/-! ## The invariant rule -/

/-- What a probe of the middle must leave: an invariant of the part below or above it, or
what is wanted of a result. -/
def Search.Leaves (s : Search ε A R) (Inv : Nat → Nat → A → Prop) (Q : R → Prop)
    (low high : Nat) : Verdict A R → Prop
  | .stop r => Q r
  | .lower acc => middle low high ≠ 0 ∧ Inv low (middle low high) acc
  | .higher acc => middle low high + 1 < s.limit ∧ Inv (middle low high + 1) (high + 1) acc

/-- What a search then ends with. -/
def Outcome.Meets (Inv : Nat → Nat → A → Prop) (Q : R → Prop) : Outcome A R → Prop
  | .stopped r => Q r
  | .crossed low acc => Inv low low acc

/-- **The invariant rule.**  If every probe keeps an invariant of the part that is left,
the search ends with that part empty, or stops with a result as wanted. -/
theorem Search.run_spec (Inv : Nat → Nat → A → Prop) (Q : R → Prop)
    (hstep : ∀ low high acc, low ≤ high → Inv low (high + 1) acc →
      s.sumFits low high = true ∧
        ∃ v, s.probe (middle low high) acc = .ok v ∧ s.Leaves Inv Q low high v)
    (hle : low ≤ high + 1) (h : Inv low (high + 1) acc) :
    ∃ o, s.run low high acc = .ok o ∧ o.Meets Inv Q := by
  induction hleft : high + 1 - low using Nat.strongRecOn generalizing low high acc with
  | ind n ih =>
    by_cases hlow : low ≤ high
    · obtain ⟨hsum, v, hprobe, hleaves⟩ := hstep low high acc hlow h
      have hmid := middle_le hlow
      have hmid' := le_middle low high
      cases v with
      | stop r => exact ⟨.stopped r, run_of_stop hlow hsum hprobe, hleaves⟩
      | lower acc' =>
        obtain ⟨hne, hinv⟩ := hleaves
        have hpast : middle low high - 1 + 1 = middle low high := by omega
        rw [run_of_lower hlow hsum hprobe, if_neg hne]
        exact ih _ (by omega) (by omega) (hpast.symm ▸ hinv) rfl
      | higher acc' =>
        obtain ⟨hlt, hinv⟩ := hleaves
        rw [run_of_higher hlow hsum hprobe, if_pos hlt]
        exact ih _ (by omega) (by omega) hinv rfl
    · obtain rfl : low = high + 1 := by omega
      exact ⟨.crossed _ acc, run_of_lt (Nat.lt_succ_self high), h⟩

/-! ## Searches that leave the integers -/

/-- **A search from zero that is always sent down** ends below zero. -/
theorem Search.run_underflow
    (hprobe : ∀ m ≤ high, ∀ acc, ∃ acc', s.probe m acc = .ok (.lower acc')) :
    s.run 0 high acc = .error s.overflow := by
  induction high using Nat.strongRecOn generalizing acc with
  | ind high ih =>
    have hmid := middle_le (Nat.zero_le high)
    cases hsum : s.sumFits 0 high with
    | false => exact run_of_not_sumFits (Nat.zero_le high) hsum
    | true =>
      obtain ⟨acc', hlower⟩ := hprobe (middle 0 high) hmid acc
      rw [run_of_lower (Nat.zero_le high) hsum hlower]
      split
      · rfl
      · exact ih _ (by omega) fun m hm => hprobe m (by omega)

/-- **A search up to the greatest integer that is always sent up** ends above it. -/
theorem Search.run_overflow (hle : low ≤ high) (hlimit : s.limit ≤ high + 1)
    (hprobe : ∀ m, low ≤ m → m ≤ high → ∀ acc, ∃ acc', s.probe m acc = .ok (.higher acc')) :
    s.run low high acc = .error s.overflow := by
  induction hleft : high - low using Nat.strongRecOn generalizing low acc with
  | ind n ih =>
    have hmid := middle_le hle
    have hmid' := le_middle low high
    cases hsum : s.sumFits low high with
    | false => exact run_of_not_sumFits hle hsum
    | true =>
      obtain ⟨acc', hhigher⟩ := hprobe (middle low high) hmid' hmid acc
      rw [run_of_higher hle hsum hhigher]
      split
      · exact ih _ (by omega) (by omega) (fun m hm => hprobe m (by omega)) rfl
      · rfl

/-! ## Boundaries -/

variable {P : Nat → Prop} {first last past n m : Nat}

/-- Between `first` and `last`, what holds of a number holds of the greater ones. -/
def Upward (P : Nat → Prop) (first last : Nat) : Prop :=
  ∀ m n, first ≤ m → m ≤ n → n ≤ last → P m → P n

/-- **The boundary of the property lies between `low` and `past`**: it fails below, and
holds from `past` on. -/
structure Bracket (P : Nat → Prop) (first last low past : Nat) : Prop where
  first_le : first ≤ low
  le : low ≤ past
  past_le : past ≤ last + 1
  below : ∀ n, first ≤ n → n < low → ¬ P n
  above : ∀ n, past ≤ n → n ≤ last → P n

theorem Bracket.start (h : first ≤ last + 1) : Bracket P first last first (last + 1) where
  first_le := Nat.le_refl _
  le := h
  past_le := Nat.le_refl _
  below _ hn hn' := absurd hn' (Nat.not_lt.mpr hn)
  above _ hn hn' := absurd hn' (Nat.not_le.mpr hn)

theorem Bracket.lower (h : Bracket P first last low (high + 1)) (hup : Upward P first last)
    (hle : low ≤ high) (hmid : P (middle low high)) :
    Bracket P first last low (middle low high) where
  first_le := h.first_le
  le := le_middle low high
  past_le := Nat.le_trans (middle_le hle) (Nat.le_trans (Nat.le_succ high) h.past_le)
  below := h.below
  above n hn hn' := hup _ n (Nat.le_trans h.first_le (le_middle low high)) hn hn' hmid

theorem Bracket.higher (h : Bracket P first last low (high + 1)) (hup : Upward P first last)
    (hle : low ≤ high) (hmid : ¬ P (middle low high)) :
    Bracket P first last (middle low high + 1) (high + 1) where
  first_le := Nat.le_trans h.first_le (Nat.le_succ_of_le (le_middle low high))
  le := Nat.succ_le_succ (middle_le hle)
  past_le := h.past_le
  below n hn hn' hP := by
    have hmid' := middle_le hle
    have hpast := h.past_le
    exact hmid (hup n _ hn (Nat.le_of_lt_succ hn') (by omega) hP)
  above := h.above

/-- The middle of the part that is left is inside. -/
theorem Bracket.middle_mem (h : Bracket P first last low (high + 1)) (hle : low ≤ high) :
    first ≤ middle low high ∧ middle low high ≤ last := by
  have hmid := middle_le hle
  have hmid' := le_middle low high
  have hfirst := h.first_le
  have hpast := h.past_le
  omega

/-- **When nothing is left the boundary is found.** -/
theorem Bracket.holds_iff (h : Bracket P first last n n) (hfirst : first ≤ m) (hlast : m ≤ last) :
    P m ↔ n ≤ m := by
  constructor
  · intro hP
    by_contra hlt
    exact h.below m hfirst (Nat.not_le.mp hlt) hP
  · intro hle
    exact h.above m hle hlast

/-- The boundary is the least number with the property. -/
theorem Bracket.isLeast (h : Bracket P first last n n) (hn : n ≤ last) :
    IsLeast {m | first ≤ m ∧ m ≤ last ∧ P m} n :=
  ⟨⟨h.first_le, hn, (h.holds_iff h.first_le hn).mpr (Nat.le_refl n)⟩,
    fun _ ⟨hfirst, hlast, hP⟩ => (h.holds_iff hfirst hlast).mp hP⟩

end OpSuccinct.Bisection
