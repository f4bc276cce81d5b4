import OpSuccinct.Evm

/-! # Boot infos

What a range proof is about (`utils/client/src/boot.rs`): the boot info the host
supplies, and the part of it the range program commits to.
-/
namespace OpSuccinct

/-- The boot info of the derivation (`kona_proof::BootInfo`). -/
structure BootInfo (RollupConfig : Type) where
  l1Head : Bytes32
  agreedL2OutputRoot : Bytes32
  claimedL2OutputRoot : Bytes32
  claimedL2BlockNumber : UInt64
  chainId : UInt64
  rollupConfig : RollupConfig

/-- The public values of one range proof. -/
structure BootInfoStruct where
  l1Head : Bytes32
  l2PreRoot : Bytes32
  l2PostRoot : Bytes32
  l2BlockNumber : UInt64
  rollupConfigHash : Bytes32
  deriving DecidableEq

/-- `BootInfoStruct::from`, given the hash of rollup configs. -/
def BootInfoStruct.ofBootInfo {RollupConfig : Type} (hashRollupConfig : RollupConfig → Bytes32)
    (bootInfo : BootInfo RollupConfig) : BootInfoStruct where
  l1Head := bootInfo.l1Head
  l2PreRoot := bootInfo.agreedL2OutputRoot
  l2PostRoot := bootInfo.claimedL2OutputRoot
  l2BlockNumber := bootInfo.claimedL2BlockNumber
  rollupConfigHash := hashRollupConfig bootInfo.rollupConfig

end OpSuccinct
