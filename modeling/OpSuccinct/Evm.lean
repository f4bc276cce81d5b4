import OpSuccinct.ByteWords

/-! # Words, addresses and message calls

The value types the contracts compute with.  Unsigned integers of 256 bits are
`Nat`, with the overflow checks of Solidity 0.8 written where the code relies on
them (`checkedAdd` and its siblings); a narrowing cast is explicit (`toUint64`,
`toUint128`).  Identifiers that are only compared, addresses and 32-byte words,
are bit vectors.
-/
namespace OpSuccinct

abbrev Address := BitVec 160
abbrev Bytes32 := BitVec 256

/-- `address(0)`. -/
def zeroAddress : Address := 0

/-- `B256::from` of 32 bytes. -/
def b256 (bytes : Bytes) : Bytes32 := BitVec.ofNat 256 (ofBytesBE bytes)

/-- `uint64(x)`: the cast keeps the low 64 bits. -/
def toUint64 (n : Nat) : Nat := n % 2 ^ 64

/-- `uint128(x)`: the cast keeps the low 128 bits. -/
def toUint128 (n : Nat) : Nat := n % 2 ^ 128

theorem toUint64_of_lt {n : Nat} (h : n < 2 ^ 64) : toUint64 n = n := Nat.mod_eq_of_lt h

theorem toUint128_of_lt {n : Nat} (h : n < 2 ^ 128) : toUint128 n = n := Nat.mod_eq_of_lt h

/-- **A message call**, as the called contract sees it.  No account with a key
and no contract lives at the zero address, so it is never the sender. -/
structure Msg where
  sender : Address
  value : Nat
  timestamp : Nat
  sender_ne_zero : sender ≠ zeroAddress

/-- One 32-byte word of `abi.encode`. -/
def abiWord (n : Nat) : Bytes := toBytesBE 32 n

/-- The public values committed to for an OP Succinct aggregation program
(`src/lib/Types.sol`). -/
structure AggregationOutputs where
  l1Head : Bytes32
  l2PreRoot : Bytes32
  claimRoot : Bytes32
  claimBlockNum : Nat
  rollupConfigHash : Bytes32
  rangeVkeyCommitment : Bytes32
  proverAddress : Address
  deriving DecidableEq

/-- `abi.encode` of the struct: its seven static fields, one word each. -/
def AggregationOutputs.abiEncode (o : AggregationOutputs) : Bytes :=
  abiWord o.l1Head.toNat ++ abiWord o.l2PreRoot.toNat ++ abiWord o.claimRoot.toNat ++
    abiWord o.claimBlockNum ++ abiWord o.rollupConfigHash.toNat ++
    abiWord o.rangeVkeyCommitment.toNat ++ abiWord o.proverAddress.toNat

end OpSuccinct
