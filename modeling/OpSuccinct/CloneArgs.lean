import OpSuccinct.ByteWords

/-! # Clones with immutable arguments

A clone forwards a call to its implementation with its immutable arguments appended to
the call data, and after them two bytes that hold their length (`cloneCalldata`).  The
two bytes count as arguments, so arguments of `n` bytes have the length `n + 2`.

The implementation reads the arguments through a base contract (`Clone`), of which only
what it answers on such call data is needed (`ReadsArgs`).  `calldataClone` is one that
finds the arguments from the end of the call data.
-/
namespace OpSuccinct.Clones

/-! ## Words of the call data -/

/-- `sub(a, b)` on words. -/
def evmSub (a b : Nat) : Nat := (a + (2 ^ 256 - b)) % 2 ^ 256

/-- `shr(bits, a)`. -/
def shr (bits a : Nat) : Nat := a / 2 ^ bits

/-- The `len` bytes at an offset. -/
def slice (bs : Bytes) (off len : Nat) : Bytes := (bs.drop off).take len

/-- `calldataload(off)`: the word at an offset, filled up with zeros after the end. -/
def calldataload (calldata : Bytes) (off : Nat) : Nat :=
  ofBytesBE (slice calldata off 32) * 256 ^ (32 - (slice calldata off 32).length)

/-- What the last two bytes of the call data hold. -/
def argsLength (calldata : Bytes) : Nat :=
  shr 240 (calldataload calldata (evmSub calldata.length 2))

variable {bs bs' : Bytes} {off len a b : Nat}

theorem evmSub_of_le (hle : b ≤ a) (hlt : a < 2 ^ 256) : evmSub a b = a - b := by
  have hsum : a + (2 ^ 256 - b) = a - b + 2 ^ 256 := by omega
  rw [evmSub, hsum, Nat.add_mod_right, Nat.mod_eq_of_lt (by omega)]

theorem slice_append {before word after : Bytes} (hoff : before.length = off)
    (hlen : word.length = len) : slice (before ++ word ++ after) off len = word := by
  rw [slice, ← hoff, ← hlen, List.append_assoc, List.drop_left, List.take_left]

theorem slice_first {word after : Bytes} (hlen : word.length = len) :
    slice (word ++ after) 0 len = word := by
  rw [slice, List.drop_zero, ← hlen, List.take_left]

theorem slice_skip {before : Bytes} {n : Nat} (hn : before.length = n) (off len : Nat) :
    slice (before ++ bs) (n + off) len = slice bs off len := by
  rw [slice, slice, ← hn, ← List.drop_drop, List.drop_left]

/-- All bytes from an offset on. -/
theorem slice_all (bs : Bytes) : slice bs 0 bs.length = bs := by
  rw [slice, List.drop_zero, List.take_length]

/-- Reading behind a prefix. -/
theorem slice_shift {before after : Bytes} (h : off + len ≤ bs.length) :
    slice (before ++ bs ++ after) (before.length + off) len = slice bs off len := by
  have hshort : len ≤ (bs.drop off).length := by rw [List.length_drop]; omega
  rw [slice, slice, List.append_assoc, List.drop_append, List.drop_eq_nil_of_le (by omega),
    List.nil_append, Nat.add_sub_cancel_left, List.drop_append_of_le_length (by omega),
    List.take_append_of_le_length hshort]

theorem ofBytesBE_append (bs bs' : Bytes) :
    ofBytesBE (bs ++ bs') = ofBytesBE bs * 256 ^ bs'.length + ofBytesBE bs' := by
  induction bs' using List.reverseRecOn with
  | nil => simp [ofBytesBE]
  | append_singleton bs' x ih =>
    rw [← List.append_assoc, ofBytesBE_append_singleton, ih, ofBytesBE_append_singleton,
      List.length_append, List.length_singleton, Nat.pow_succ, Nat.add_mul, Nat.mul_assoc,
      Nat.add_assoc]

/-- **A shifted word** holds the bytes at the offset. -/
theorem shr_calldataload (hlen : len ≤ 32) (h : off + len ≤ bs.length) :
    shr (8 * (32 - len)) (calldataload bs off) = ofBytesBE (slice bs off len) := by
  have hword : slice bs off 32 = slice bs off len ++ slice bs (off + len) (32 - len) := by
    rw [slice, slice, slice, ← List.drop_drop, ← List.take_add, Nat.add_sub_cancel' hlen]
  have hfirst : (slice bs off len).length = len := by
    rw [slice, List.length_take, List.length_drop]
    omega
  generalize slice bs off len = first at hword hfirst
  generalize hrest : slice bs (off + len) (32 - len) = rest at hword
  have hrestLength : rest.length ≤ 32 - len := by
    rw [← hrest, slice]
    exact List.length_take_le _ _
  have htotal : 32 - (first ++ rest).length = 32 - len - rest.length := by
    rw [List.length_append, hfirst]
    omega
  -- The bytes after the ones that are read are less than one unit of the shift.
  have hpow : 256 ^ rest.length * 256 ^ (32 - len - rest.length) = 256 ^ (32 - len) := by
    rw [← Nat.pow_add, Nat.add_sub_cancel' hrestLength]
  have htail : ofBytesBE rest * 256 ^ (32 - len - rest.length) < 256 ^ (32 - len) := by
    rw [← hpow]
    exact Nat.mul_lt_mul_of_pos_right (ofBytesBE_lt rest) (Nat.pow_pos (by decide))
  have hbase : (2 : Nat) ^ (8 * (32 - len)) = 256 ^ (32 - len) := Nat.pow_mul 2 8 _
  rw [shr, calldataload, hword, htotal, ofBytesBE_append, Nat.add_mul, Nat.mul_assoc, hpow, hbase,
    Nat.mul_comm, Nat.mul_add_div (Nat.pow_pos (by decide)), Nat.div_eq_of_lt htail, Nat.add_zero]

/-! ## Calls on a clone -/

abbrev Selector := Vector UInt8 4

/-- The call data of a call without arguments of its own. -/
def cloneCalldata (selector : Selector) (args : Bytes) : Bytes :=
  selector.toList ++ args ++ toBytesBE 2 (args.length + 2)

/-- The arguments fit, with the two bytes of their length. -/
def ArgsFit (args : Bytes) : Prop := args.length + 2 < 2 ^ 16

variable {selector : Selector} {args : Bytes}

theorem length_cloneCalldata : (cloneCalldata selector args).length = 4 + args.length + 2 := by
  rw [cloneCalldata, List.length_append, List.length_append, length_toBytesBE,
    Vector.length_toList]

/-- **The length at the end of the call data.** -/
theorem argsLength_cloneCalldata (hfit : ArgsFit args) :
    argsLength (cloneCalldata selector args) = args.length + 2 := by
  have hfit : args.length + 2 < 65536 := hfit
  have hoff : evmSub (cloneCalldata selector args).length 2 = 4 + args.length := by
    rw [length_cloneCalldata, evmSub_of_le (by omega)
      (Nat.lt_trans (by omega) (by decide : 2 ^ 17 < 2 ^ 256)), Nat.add_sub_cancel]
  have hlast : slice (cloneCalldata selector args) (4 + args.length) 2 =
      toBytesBE 2 (args.length + 2) := by
    rw [cloneCalldata, ← List.append_nil (selector.toList ++ args ++ _)]
    exact slice_append (by rw [List.length_append, Vector.length_toList]) (length_toBytesBE _ _)
  rw [argsLength, hoff]
  have hbound : 4 + args.length + 2 ≤ (cloneCalldata selector args).length := by
    rw [length_cloneCalldata]
  have hshr := shr_calldataload (by decide) hbound
  rw [hlast, ofBytesBE_toBytesBE (by omega)] at hshr
  exact hshr

/-! ## The base contract -/

/-- **The getters of the base contract**, as functions of the call data. -/
structure Clone where
  getArgBytes : Bytes → Nat → Nat → Bytes
  getArgAddress : Bytes → Nat → BitVec 160
  getArgBytes32 : Bytes → Nat → BitVec 256
  getArgUint256 : Bytes → Nat → Nat
  getArgUint32 : Bytes → Nat → Nat

/-- **On a call on a clone, the getters read the immutable arguments** that are there. -/
structure Clone.ReadsArgs (clone : Clone) : Prop where
  bytes : ∀ selector args off len, ArgsFit args → off + len ≤ args.length →
    clone.getArgBytes (cloneCalldata selector args) off len = slice args off len
  address : ∀ selector args off, ArgsFit args → off + 20 ≤ args.length →
    clone.getArgAddress (cloneCalldata selector args) off =
      BitVec.ofNat 160 (ofBytesBE (slice args off 20))
  bytes32 : ∀ selector args off, ArgsFit args → off + 32 ≤ args.length →
    clone.getArgBytes32 (cloneCalldata selector args) off =
      BitVec.ofNat 256 (ofBytesBE (slice args off 32))
  uint256 : ∀ selector args off, ArgsFit args → off + 32 ≤ args.length →
    clone.getArgUint256 (cloneCalldata selector args) off = ofBytesBE (slice args off 32)
  uint32 : ∀ selector args off, ArgsFit args → off + 4 ≤ args.length →
    clone.getArgUint32 (cloneCalldata selector args) off = ofBytesBE (slice args off 4)

/-- Where the arguments start, counted from the end of the call data. -/
def argsOffset (calldata : Bytes) : Nat := evmSub calldata.length (argsLength calldata)

/-- Getters that load words behind the start of the arguments. -/
def calldataClone : Clone where
  getArgBytes calldata off len := slice calldata (argsOffset calldata + off) len
  getArgAddress calldata off :=
    BitVec.ofNat 160 (shr 96 (calldataload calldata (argsOffset calldata + off)))
  getArgBytes32 calldata off :=
    BitVec.ofNat 256 (calldataload calldata (argsOffset calldata + off))
  getArgUint256 calldata off := calldataload calldata (argsOffset calldata + off)
  getArgUint32 calldata off := shr 224 (calldataload calldata (argsOffset calldata + off))

theorem argsOffset_cloneCalldata (hfit : ArgsFit args) :
    argsOffset (cloneCalldata selector args) = 4 := by
  have hlt : args.length + 2 < 65536 := hfit
  rw [argsOffset, argsLength_cloneCalldata hfit, length_cloneCalldata,
    evmSub_of_le (by omega) (Nat.lt_trans (by omega) (by decide : 2 ^ 17 < 2 ^ 256))]
  omega

theorem slice_cloneCalldata (hfit : ArgsFit args) (h : off + len ≤ args.length) :
    slice (cloneCalldata selector args) (argsOffset (cloneCalldata selector args) + off) len =
      slice args off len := by
  rw [argsOffset_cloneCalldata hfit, show 4 = selector.toList.length from Vector.length_toList.symm,
    cloneCalldata]
  exact slice_shift h

variable (selector) in
theorem shr_cloneCalldata (hfit : ArgsFit args) (hlen : len ≤ 32) (h : off + len ≤ args.length) :
    shr (8 * (32 - len)) (calldataload (cloneCalldata selector args)
      (argsOffset (cloneCalldata selector args) + off)) = ofBytesBE (slice args off len) := by
  rw [shr_calldataload hlen, slice_cloneCalldata hfit h]
  rw [argsOffset_cloneCalldata hfit, length_cloneCalldata]
  omega

theorem calldataClone_readsArgs : calldataClone.ReadsArgs where
  bytes := fun _ _ _ _ hfit h => slice_cloneCalldata hfit h
  address := fun _ _ _ hfit h =>
    congrArg (BitVec.ofNat 160) (shr_cloneCalldata _ hfit (by decide) h)
  bytes32 := by
    intro selector args off hfit h
    have hword := shr_cloneCalldata selector hfit (Nat.le_refl 32) h
    rw [shr, Nat.sub_self, Nat.mul_zero, Nat.pow_zero, Nat.div_one] at hword
    exact congrArg (BitVec.ofNat 256) hword
  uint256 := by
    intro selector args off hfit h
    have hword := shr_cloneCalldata selector hfit (Nat.le_refl 32) h
    rw [shr, Nat.sub_self, Nat.mul_zero, Nat.pow_zero, Nat.div_one] at hword
    exact hword
  uint32 := fun _ _ _ hfit h => shr_cloneCalldata _ hfit (by decide) h

end OpSuccinct.Clones
