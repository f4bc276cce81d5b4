import OpSuccinct.CheckedArith

/-! # Scans with fallible visits

A loop over consecutive indices that reads an entry, visits it, and stops at the
first visit that gives a result.  Reading and visiting can fail, and a failure
ends the scan: it returns a result exactly when some entry gives it and every
entry before it was read and visited without one (`scanFrom_some_iff`), and none
exactly when all entries were (`scanFrom_none_iff`).  A scan that goes down from
an index to zero is characterised the same way (`scanBack_some_iff`,
`scanBack_none_iff`).
-/
namespace OpSuccinct

variable {ε α β : Type}

/-- The entries at `count` indices from `i` on, up to the first that gives a result. -/
def scanFrom (get : Nat → Except ε α) (visit : α → Except ε (Option β)) :
    Nat → Nat → Except ε (Option β)
  | 0, _ => pure none
  | count + 1, i => do
    let entry ← get i
    match ← visit entry with
    | some result => return some result
    | none => scanFrom get visit count (i + 1)

variable {get : Nat → Except ε α} {visit : α → Except ε (Option β)} {b : β}

/-- The entry at `i` is read and visited without a result. -/
def Passed (get : Nat → Except ε α) (visit : α → Except ε (Option β)) (i : Nat) : Prop :=
  ∃ entry, get i = .ok entry ∧ visit entry = .ok none

theorem scanFrom_succ_some_iff {count i : Nat} :
    scanFrom get visit (count + 1) i = .ok (some b) ↔
      (∃ entry, get i = .ok entry ∧ visit entry = .ok (some b)) ∨
        Passed get visit i ∧ scanFrom get visit count (i + 1) = .ok (some b) := by
  simp only [scanFrom, bind_ok_iff, Passed]
  constructor
  · rintro ⟨entry, hget, result, hvisit, h⟩
    cases result with
    | some b' =>
      obtain rfl : b' = b := by simpa using h
      exact .inl ⟨entry, hget, hvisit⟩
    | none => exact .inr ⟨⟨entry, hget, hvisit⟩, h⟩
  · rintro (⟨entry, hget, hvisit⟩ | ⟨⟨entry, hget, hvisit⟩, h⟩)
    · exact ⟨entry, hget, _, hvisit, rfl⟩
    · exact ⟨entry, hget, _, hvisit, h⟩

/-- **When a scan returns a result.** -/
theorem scanFrom_some_iff {count i : Nat} :
    scanFrom get visit count i = .ok (some b) ↔
      ∃ j, i ≤ j ∧ j < i + count ∧ (∃ entry, get j = .ok entry ∧ visit entry = .ok (some b)) ∧
        ∀ n, i ≤ n → n < j → Passed get visit n := by
  induction count generalizing i with
  | zero =>
    constructor
    · intro h
      simp [scanFrom] at h
    · rintro ⟨j, hij, hj, -⟩
      omega
  | succ count ih =>
    rw [scanFrom_succ_some_iff, ih]
    constructor
    · rintro (hfound | ⟨hpassed, j, hij, hj, hfound, hbefore⟩)
      · exact ⟨i, by omega, by omega, hfound, fun n hin hn => by omega⟩
      · refine ⟨j, by omega, by omega, hfound, fun n hin hn => ?_⟩
        by_cases heq : n = i
        · exact heq ▸ hpassed
        · exact hbefore n (by omega) hn
    · rintro ⟨j, hij, hj, hfound, hbefore⟩
      by_cases heq : j = i
      · exact .inl (heq ▸ hfound)
      · have hpassed := hbefore i (by omega) (by omega)
        exact .inr ⟨hpassed, j, by omega, by omega, hfound,
          fun n hin hn => hbefore n (by omega) hn⟩

/-- **When a scan returns none.** -/
theorem scanFrom_none_iff {count i : Nat} :
    scanFrom get visit count i = .ok none ↔
      ∀ n, i ≤ n → n < i + count → Passed get visit n := by
  induction count generalizing i with
  | zero =>
    refine iff_of_true rfl fun n hin hn => ?_
    omega
  | succ count ih =>
    simp only [scanFrom, bind_ok_iff]
    constructor
    · rintro ⟨entry, hget, result, hvisit, h⟩ n hin hn
      cases result with
      | some b => simp at h
      | none =>
        by_cases heq : n = i
        · exact heq ▸ ⟨entry, hget, hvisit⟩
        · exact ih.mp h n (by omega) (by omega)
    · intro h
      obtain ⟨entry, hget, hvisit⟩ := h i (Nat.le_refl i) (by omega)
      exact ⟨entry, hget, none, hvisit, ih.mpr fun n hin hn => h n (by omega) (by omega)⟩

/-! ## Downwards -/

/-- The entries from index `i` down to zero, up to the first that gives a result, which is
returned with its index. -/
def scanBack (get : Nat → Except ε α) (visit : α → Except ε (Option β)) (i : Nat) :
    Except ε (Option (β × Nat)) := do
  let entry ← get i
  match ← visit entry with
  | some result => return some (result, i)
  | none =>
    match i with
    | 0 => return none
    | i + 1 => scanBack get visit i

theorem scanBack_some {i : Nat} {entry : α} (hget : get i = .ok entry)
    (hvisit : visit entry = .ok (some b)) : scanBack get visit i = .ok (some (b, i)) := by
  rw [scanBack.eq_def]
  exact bind_ok_iff.mpr ⟨entry, hget, bind_ok_iff.mpr ⟨some b, hvisit, rfl⟩⟩

theorem Passed.scanBack_zero (h : Passed get visit 0) : scanBack get visit 0 = .ok none := by
  obtain ⟨entry, hget, hvisit⟩ := h
  rw [scanBack]
  exact bind_ok_iff.mpr ⟨entry, hget, bind_ok_iff.mpr ⟨none, hvisit, rfl⟩⟩

theorem Passed.scanBack_succ {i : Nat} (h : Passed get visit (i + 1)) :
    scanBack get visit (i + 1) = scanBack get visit i := by
  obtain ⟨entry, hget, hvisit⟩ := h
  rw [scanBack, hget]
  show (visit entry >>= _) = _
  rw [hvisit]
  rfl

/-- A scan that does not fail reads and visits its first entry. -/
theorem scanBack_ok {i : Nat} {r : Option (β × Nat)} (h : scanBack get visit i = .ok r) :
    (∃ entry b, get i = .ok entry ∧ visit entry = .ok (some b) ∧ r = some (b, i)) ∨
      Passed get visit i := by
  rw [scanBack.eq_def, bind_ok_iff] at h
  obtain ⟨entry, hget, h⟩ := h
  obtain ⟨result, hvisit, h⟩ := bind_ok_iff.mp h
  cases result with
  | some b => exact .inl ⟨entry, b, hget, hvisit, (pure_ok_iff.mp h).symm⟩
  | none => exact .inr ⟨entry, hget, hvisit⟩

/-- **When a scan down returns a result.** -/
theorem scanBack_some_iff {i j : Nat} :
    scanBack get visit i = .ok (some (b, j)) ↔
      j ≤ i ∧ (∃ entry, get j = .ok entry ∧ visit entry = .ok (some b)) ∧
        ∀ n, j < n → n ≤ i → Passed get visit n := by
  induction i with
  | zero =>
    constructor
    · intro h
      rcases scanBack_ok h with ⟨entry, b', hget, hvisit, heq⟩ | hpassed
      · cases heq
        exact ⟨Nat.le_refl 0, ⟨entry, hget, hvisit⟩, fun n hn hle => by omega⟩
      · rw [hpassed.scanBack_zero] at h
        cases h
    · rintro ⟨hle, ⟨entry, hget, hvisit⟩, -⟩
      obtain rfl : j = 0 := by omega
      exact scanBack_some hget hvisit
  | succ i ih =>
    constructor
    · intro h
      rcases scanBack_ok h with ⟨entry, b', hget, hvisit, heq⟩ | hpassed
      · cases heq
        exact ⟨Nat.le_refl _, ⟨entry, hget, hvisit⟩, fun n hn hle => by omega⟩
      · rw [hpassed.scanBack_succ] at h
        obtain ⟨hle, hfound, habove⟩ := ih.mp h
        refine ⟨by omega, hfound, fun n hn hle => ?_⟩
        by_cases heq : n = i + 1
        · exact heq ▸ hpassed
        · exact habove n hn (by omega)
    · rintro ⟨hle, hfound, habove⟩
      by_cases heq : j = i + 1
      · obtain ⟨entry, hget, hvisit⟩ := hfound
        subst heq
        exact scanBack_some hget hvisit
      · rw [(habove (i + 1) (by omega) (Nat.le_refl _)).scanBack_succ]
        exact ih.mpr ⟨by omega, hfound, fun n hn hle => habove n hn (by omega)⟩

/-- **When a scan down returns none.** -/
theorem scanBack_none_iff {i : Nat} :
    scanBack get visit i = .ok none ↔ ∀ n, n ≤ i → Passed get visit n := by
  induction i with
  | zero =>
    constructor
    · intro h n hn
      rcases scanBack_ok h with ⟨_, _, -, -, heq⟩ | hpassed
      · cases heq
      · exact Nat.le_zero.mp hn ▸ hpassed
    · intro h
      exact (h 0 (Nat.le_refl 0)).scanBack_zero
  | succ i ih =>
    constructor
    · intro h n hn
      rcases scanBack_ok h with ⟨_, _, -, -, heq⟩ | hpassed
      · cases heq
      · rw [hpassed.scanBack_succ] at h
        by_cases heq : n = i + 1
        · exact heq ▸ hpassed
        · exact ih.mp h n (by omega)
    · intro h
      rw [(h (i + 1) (Nat.le_refl _)).scanBack_succ]
      exact ih.mpr fun n hn => h n (by omega)

end OpSuccinct
