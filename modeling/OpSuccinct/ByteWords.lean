import Mathlib.Algebra.Ring.Nat
import Mathlib.Data.List.Induction

/-! # Big-endian words

Fixed-width big-endian encodings of unsigned integers as lists of bytes, the way
an ABI word, a packed argument or a `to_be_bytes` call lays them out.  Reading an
encoding back gives the number modulo its width (`ofBytesBE_toBytesBE_mod`), so a
number that fits is read back exactly (`ofBytesBE_toBytesBE`).
-/
namespace OpSuccinct

abbrev Bytes := List UInt8

/-- The `width` low bytes of `n`, most significant first. -/
def toBytesBE : Nat → Nat → Bytes
  | 0, _ => []
  | width + 1, n => toBytesBE width (n / 256) ++ [UInt8.ofNat n]

/-- The number a byte string spells, most significant byte first. -/
def ofBytesBE (bs : Bytes) : Nat :=
  bs.foldl (fun acc b => acc * 256 + b.toNat) 0

@[simp] theorem ofBytesBE_append_singleton (bs : Bytes) (b : UInt8) :
    ofBytesBE (bs ++ [b]) = ofBytesBE bs * 256 + b.toNat := by
  simp [ofBytesBE, List.foldl_append]

@[simp] theorem length_toBytesBE (width n : Nat) : (toBytesBE width n).length = width := by
  induction width generalizing n with
  | zero => rfl
  | succ width ih => simp [toBytesBE, ih]

/-- **Reading an encoding back** gives the number modulo the width. -/
theorem ofBytesBE_toBytesBE_mod (width n : Nat) :
    ofBytesBE (toBytesBE width n) = n % 256 ^ width := by
  induction width generalizing n with
  | zero => simp [toBytesBE, ofBytesBE, Nat.mod_one]
  | succ width ih =>
    have hbyte : (UInt8.ofNat n).toNat = n % 256 := by simp
    rw [toBytesBE, ofBytesBE_append_singleton, ih, hbyte, Nat.pow_succ', Nat.mod_mul]
    omega

theorem ofBytesBE_toBytesBE {width n : Nat} (h : n < 256 ^ width) :
    ofBytesBE (toBytesBE width n) = n := by
  rw [ofBytesBE_toBytesBE_mod, Nat.mod_eq_of_lt h]

theorem ofBytesBE_lt (bs : Bytes) : ofBytesBE bs < 256 ^ bs.length := by
  induction bs using List.reverseRecOn with
  | nil => simp [ofBytesBE]
  | append_singleton bs b ih =>
    have hb : b.toNat < 256 := b.toNat_lt
    rw [ofBytesBE_append_singleton, List.length_append, List.length_singleton, Nat.pow_succ]
    omega

/-- **Encoding what was read** gives the bytes back. -/
theorem toBytesBE_ofBytesBE (bs : Bytes) : toBytesBE bs.length (ofBytesBE bs) = bs := by
  induction bs using List.reverseRecOn with
  | nil => rfl
  | append_singleton bs b ih =>
    have hb : b.toNat < 256 := b.toNat_lt
    have hdiv : (ofBytesBE bs * 256 + b.toNat) / 256 = ofBytesBE bs := by omega
    have hbyte : UInt8.ofNat (ofBytesBE bs * 256 + b.toNat) = b := by
      apply UInt8.toNat_inj.mp
      simp
    rw [ofBytesBE_append_singleton, List.length_append, List.length_singleton, toBytesBE, hdiv, ih,
      hbyte]

/-- Numbers that fit are told apart by their encodings. -/
theorem toBytesBE_inj {width n m : Nat} (hn : n < 256 ^ width) (hm : m < 256 ^ width) :
    toBytesBE width n = toBytesBE width m ↔ n = m := by
  constructor
  · intro h
    rw [← ofBytesBE_toBytesBE hn, h, ofBytesBE_toBytesBE hm]
  · rintro rfl
    rfl

/-! ## Words one after the other -/

/-- The bytes of the `i`-th word of a string of words of `width` bytes. -/
def wordAt (width i : Nat) (bs : Bytes) : Bytes := (bs.drop (width * i)).take width

/-- **A layout of fixed-width words determines the words.** -/
theorem flatMap_toBytesBE_inj {width : Nat} {ns ms : List Nat} (hlen : ns.length = ms.length)
    (hns : ∀ n ∈ ns, n < 256 ^ width) (hms : ∀ m ∈ ms, m < 256 ^ width) :
    ns.flatMap (toBytesBE width) = ms.flatMap (toBytesBE width) ↔ ns = ms := by
  constructor
  · intro h
    induction ns generalizing ms with
    | nil => exact (List.length_eq_zero_iff.mp hlen.symm).symm
    | cons n ns ih =>
      cases ms with
      | nil => simp at hlen
      | cons m ms =>
        rw [List.flatMap_cons, List.flatMap_cons] at h
        obtain ⟨hhead, htail⟩ := List.append_inj h (by simp)
        have hn : n = m :=
          (toBytesBE_inj (hns n List.mem_cons_self) (hms m List.mem_cons_self)).mp hhead
        rw [hn, ih (Nat.succ.inj hlen) (fun x hx => hns x (List.mem_cons_of_mem n hx))
          (fun x hx => hms x (List.mem_cons_of_mem m hx)) htail]
  · rintro rfl
    rfl

/-- Reading the `i`-th word of a layout gives the encoding of the `i`-th number. -/
theorem wordAt_flatMap {α : Type} {width : Nat} {f : α → Bytes} (hf : ∀ a, (f a).length = width)
    {xs : List α} {i : Nat} {x : α} (hi : xs[i]? = some x) :
    wordAt width i (xs.flatMap f) = f x := by
  induction xs generalizing i with
  | nil => simp at hi
  | cons a xs ih =>
    cases i with
    | zero =>
      obtain rfl : a = x := by simpa using hi
      rw [wordAt, Nat.mul_zero, List.drop_zero, List.flatMap_cons, ← hf a, List.take_left]
    | succ i =>
      have hdrop : ((a :: xs).flatMap f).drop (width * (i + 1)) =
          (xs.flatMap f).drop (width * i) := by
        rw [List.flatMap_cons, Nat.mul_succ, Nat.add_comm, ← List.drop_drop, ← hf a, List.drop_left]
      have hword := ih (i := i) (by simpa using hi)
      rw [wordAt, hdrop]
      exact hword

/-- Two strings of the same number of words are equal when all their words are. -/
theorem eq_of_wordAt {width count : Nat} (hwidth : 0 < width) {xs ys : Bytes}
    (hxs : xs.length = width * count) (hys : ys.length = width * count)
    (h : ∀ i < count, wordAt width i xs = wordAt width i ys) : xs = ys := by
  apply List.ext_getElem?
  intro j
  by_cases hj : j < width * count
  · have hword := h (j / width) (Nat.div_lt_of_lt_mul hj)
    have hmod : j % width < width := Nat.mod_lt j hwidth
    -- the byte is the one at `j % width` in word `j / width`
    have hbyte : ∀ zs : Bytes, (wordAt width (j / width) zs)[j % width]? = zs[j]? := by
      intro zs
      rw [wordAt, List.getElem?_take_of_lt hmod, List.getElem?_drop, Nat.div_add_mod]
    rw [← hbyte xs, ← hbyte ys, hword]
  · rw [List.getElem?_eq_none (by omega), List.getElem?_eq_none (by omega)]

end OpSuccinct
