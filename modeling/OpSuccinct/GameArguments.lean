import OpSuccinct.CloneArgs
import OpSuccinct.FaultGameSteps

/-! # The arguments of a game

A game is a clone whose immutable arguments are its creator, the root claim, the L1 head
and the extra data `create` was called with (`GameArgs`).  The proposers pack the extra
data without padding (`createGameExtraData`, `relayExtraData`), and the games read it back
at fixed offsets; a validity game finds the length of its proof from the length at the
end of the call data.

What was packed is read back exactly, and the size check of `initialize` leaves a fault
game one extra data for its block and its parent (`game_arguments_round_trip`).
-/
namespace OpSuccinct

open Clones

/-- The immutable arguments the factory gives a game. -/
structure GameArgs where
  creator : Address
  rootClaim : Bytes32
  l1Head : Bytes32
  extraData : Bytes

/-- The layout of the arguments. -/
def GameArgs.bytes (a : GameArgs) : Bytes :=
  toBytesBE 20 a.creator.toNat ++ toBytesBE 32 a.rootClaim.toNat ++ toBytesBE 32 a.l1Head.toNat ++
    a.extraData

/-- The extra data of `create_game`. -/
def createGameExtraData (l2BlockNumber parentGameIndex : Nat) : Bytes :=
  toBytesBE 32 l2BlockNumber ++ toBytesBE 4 parentGameIndex

/-- The extra data of `relay_aggregation_proof`. -/
def relayExtraData (endBlock l1BlockNumber : Nat) (proverAddress : Address) (configName : Bytes32)
    (proof : Bytes) : Bytes :=
  toBytesBE 32 endBlock ++ toBytesBE 32 l1BlockNumber ++ toBytesBE 20 proverAddress.toNat ++
    toBytesBE 32 configName.toNat ++ proof

theorem GameArgs.length_bytes (a : GameArgs) : a.bytes.length = 0x54 + a.extraData.length := by
  simp [GameArgs.bytes]
  omega

theorem length_createGameExtraData (block parent : Nat) :
    (createGameExtraData block parent).length = 0x24 := by
  simp [createGameExtraData]

theorem GameArgs.slice_rootClaim (a : GameArgs) :
    slice a.bytes 0x14 32 = toBytesBE 32 a.rootClaim.toNat := by
  simp only [GameArgs.bytes, List.append_assoc]
  exact (slice_skip (length_toBytesBE 20 _) 0 32).trans (slice_first (length_toBytesBE _ _))

/-- The extra data starts at `0x54`. -/
theorem GameArgs.slice_extraData (a : GameArgs) (off len : Nat) :
    slice a.bytes (0x54 + off) len = slice a.extraData off len := by
  refine slice_skip ?_ off len
  simp

theorem ofBytesBE_address (a : Address) :
    BitVec.ofNat 160 (ofBytesBE (toBytesBE 20 a.toNat)) = a := by
  rw [ofBytesBE_toBytesBE (by simpa using a.isLt), BitVec.ofNat_toNat, BitVec.setWidth_eq]

theorem ofBytesBE_bytes32 (a : Bytes32) :
    BitVec.ofNat 256 (ofBytesBE (toBytesBE 32 a.toNat)) = a := by
  rw [ofBytesBE_toBytesBE (by simpa using a.isLt), BitVec.ofNat_toNat, BitVec.setWidth_eq]

/-! ## `OPSuccinctFaultDisputeGame` -/

namespace FaultGame

/-! ### Getters of a call -/

namespace Getters
variable (clone : Clone) (calldata : Bytes)

def rootClaim : Bytes32 := clone.getArgBytes32 calldata 0x14

def l2BlockNumber : Nat := clone.getArgUint256 calldata 0x54

def parentIndex : Nat := clone.getArgUint32 calldata 0x74

def extraData : Bytes := clone.getArgBytes calldata 0x54 0x24

/-- `gameData()`, the preimage of the game's UUID. -/
def gameData (im : Immutables) : Nat × Bytes32 × Bytes :=
  (im.gameType, rootClaim clone calldata, extraData clone calldata)

end Getters

variable {clone : Clone} {selector : Selector} {im : Immutables} {a : GameArgs}

/-- What the getters read of extra data of the right size. -/
structure Reads (clone : Clone) (calldata : Bytes) (a : GameArgs) : Prop where
  rootClaim : Getters.rootClaim clone calldata = a.rootClaim
  l2BlockNumber : Getters.l2BlockNumber clone calldata = ofBytesBE (slice a.extraData 0 32)
  parentIndex : Getters.parentIndex clone calldata = ofBytesBE (slice a.extraData 32 4)
  extraData : Getters.extraData clone calldata = a.extraData

theorem reads_of_length (hclone : clone.ReadsArgs) (h : a.extraData.length = 36) :
    Reads clone (cloneCalldata selector a.bytes) a := by
  have hlength : a.bytes.length = 0x78 := by rw [a.length_bytes, h]
  have hfit : ArgsFit a.bytes := by
    rw [ArgsFit, hlength]
    decide
  refine ⟨?_, ?_, ?_, ?_⟩
  · rw [Getters.rootClaim, hclone.bytes32 _ _ _ hfit (by omega), a.slice_rootClaim,
      ofBytesBE_bytes32]
  · rw [Getters.l2BlockNumber, hclone.uint256 _ _ _ hfit (by omega)]
    exact congrArg ofBytesBE (a.slice_extraData 0 32)
  · rw [Getters.parentIndex, hclone.uint32 _ _ _ hfit (by omega)]
    exact congrArg ofBytesBE (a.slice_extraData 32 4)
  · rw [Getters.extraData, hclone.bytes _ _ _ _ hfit (by omega)]
    exact (a.slice_extraData 0 0x24).trans (h ▸ slice_all a.extraData)

/-- On a call, the getters agree with those of the arguments. -/
theorem l2BlockNumber_eq (hclone : clone.ReadsArgs) (h : a.extraData.length = 36) :
    Getters.l2BlockNumber clone (cloneCalldata selector a.bytes) = l2BlockNumber a.bytes := by
  rw [(reads_of_length hclone h).l2BlockNumber, ← a.slice_extraData 0 32]
  rfl

theorem parentIndex_eq (hclone : clone.ReadsArgs) (h : a.extraData.length = 36) :
    Getters.parentIndex clone (cloneCalldata selector a.bytes) = parentIndex a.bytes := by
  rw [(reads_of_length hclone h).parentIndex, ← a.slice_extraData 32 4]
  rfl

/-! ### What `create_game` packs -/

/-- A game of `create_game` reads back what was packed. -/
structure ReadsBack (clone : Clone) (calldata : Bytes) (block parent : Nat) : Prop where
  l2BlockNumber : Getters.l2BlockNumber clone calldata = block
  parentIndex : Getters.parentIndex clone calldata = parent
  extraData : Getters.extraData clone calldata = createGameExtraData block parent

theorem readsBack_createGame {block parent : Nat} (hclone : clone.ReadsArgs)
    (hextra : a.extraData = createGameExtraData block parent) (hblock : block < 2 ^ 256)
    (hparent : parent < 2 ^ 32) :
    ReadsBack clone (cloneCalldata selector a.bytes) block parent := by
  have hreads : Reads clone (cloneCalldata selector a.bytes) a := reads_of_length hclone
    (by rw [hextra, length_createGameExtraData])
  refine ⟨?_, ?_, hreads.extraData.trans hextra⟩
  · rw [hreads.l2BlockNumber, hextra, createGameExtraData, slice_first (length_toBytesBE _ _),
      ofBytesBE_toBytesBE hblock]
  · have hlast : slice (createGameExtraData block parent) (32 + 0) 4 = toBytesBE 4 parent :=
      (slice_skip (length_toBytesBE 32 _) 0 4).trans (slice_all _)
    rw [hreads.parentIndex, hextra, hlast, ofBytesBE_toBytesBE hparent]

/-! ### The size check -/

/-- `initialize` accepts a game with the arguments. -/
def Accepts (im : Immutables) (args : Bytes) : Prop :=
  ∃ w m g g', initializeGame im args w m g = .ok g'

/-- **The size check** of `initialize` passes extra data of 36 bytes, and an accepted game
passed it. -/
structure SizeCheck (im : Immutables) (a : GameArgs) : Prop where
  exact : ∀ selector, (cloneCalldata selector a.bytes).length = 0x7E ↔ a.extraData.length = 36
  accepted : Accepts im a.bytes → a.extraData.length = 36

theorem sizeCheck (im : Immutables) (a : GameArgs) : SizeCheck im a := by
  have hsize : calldatasize a.bytes = 0x7E ↔ a.extraData.length = 36 := by
    rw [calldatasize, a.length_bytes]
    omega
  refine ⟨fun selector => ?_, ?_⟩
  · rw [length_cloneCalldata]
    exact hsize
  · rintro ⟨w, m, g, g', h⟩
    obtain ⟨-, -, -, h, -⟩ := initializeGame_ok_iff.mp h
    exact hsize.mp h

/-- Bytes are told apart by the numbers they spell. -/
theorem slice_inj {off len : Nat} {bs bs' : Bytes} (h : off + len ≤ bs.length)
    (h' : off + len ≤ bs'.length)
    (heq : ofBytesBE (slice bs off len) = ofBytesBE (slice bs' off len)) :
    slice bs off len = slice bs' off len := by
  have hlength : (slice bs off len).length = len := by
    rw [slice, List.length_take, List.length_drop]
    omega
  have hlength' : (slice bs' off len).length = len := by
    rw [slice, List.length_take, List.length_drop]
    omega
  rw [← toBytesBE_ofBytesBE (slice bs off len), ← toBytesBE_ofBytesBE (slice bs' off len), hlength,
    hlength', heq]

/-- Extra data of the right size, cut at the parent index. -/
theorem extraData_eq_append {extra : Bytes} (h : extra.length = 36) :
    slice extra 0 32 ++ slice extra 32 4 = extra := by
  have hrest : slice extra 32 4 = extra.drop 32 := by
    rw [slice, List.take_of_length_le]
    rw [List.length_drop]
    omega
  rw [hrest, slice, List.drop_zero, List.take_append_drop]

/-- The games of two calls claim the same output for the same parent. -/
structure SameClaim (clone : Clone) (calldata calldata' : Bytes) : Prop where
  rootClaim : Getters.rootClaim clone calldata = Getters.rootClaim clone calldata'
  l2BlockNumber : Getters.l2BlockNumber clone calldata = Getters.l2BlockNumber clone calldata'
  parentIndex : Getters.parentIndex clone calldata = Getters.parentIndex clone calldata'

/-- **One game for a claim**: accepted games with the same claim have the same extra data,
and so the same preimage of the UUID. -/
theorem gameData_eq {im' : Immutables} {a' : GameArgs} {selector' : Selector}
    (hclone : clone.ReadsArgs) (htype : im.gameType = im'.gameType) (h : Accepts im a.bytes)
    (h' : Accepts im' a'.bytes)
    (hsame : SameClaim clone (cloneCalldata selector a.bytes) (cloneCalldata selector' a'.bytes)) :
    a.extraData = a'.extraData ∧ Getters.gameData clone (cloneCalldata selector a.bytes) im =
      Getters.gameData clone (cloneCalldata selector' a'.bytes) im' := by
  have hlength := (sizeCheck im a).accepted h
  have hlength' := (sizeCheck im' a').accepted h'
  have hreads : Reads clone (cloneCalldata selector a.bytes) a := reads_of_length hclone hlength
  have hreads' : Reads clone (cloneCalldata selector' a'.bytes) a' :=
    reads_of_length hclone hlength'
  have hblock := hsame.l2BlockNumber
  rw [hreads.l2BlockNumber, hreads'.l2BlockNumber] at hblock
  have hparent := hsame.parentIndex
  rw [hreads.parentIndex, hreads'.parentIndex] at hparent
  have hextra : a.extraData = a'.extraData := by
    rw [← extraData_eq_append hlength, ← extraData_eq_append hlength',
      slice_inj (by omega) (by omega) hblock, slice_inj (by omega) (by omega) hparent]
  refine ⟨hextra, ?_⟩
  rw [Getters.gameData, Getters.gameData, htype, hsame.rootClaim, hreads.extraData,
    hreads'.extraData, hextra]

end FaultGame

/-! ## `OPSuccinctDisputeGame` -/

namespace DisputeGame

section Getters
variable (clone : Clone) (calldata : Bytes)

def rootClaim : Bytes32 := clone.getArgBytes32 calldata 0x14

def l2BlockNumber : Nat := clone.getArgUint256 calldata 0x54

def l1BlockNumber : Nat := clone.getArgUint256 calldata 0x74

def proverAddress : Address := clone.getArgAddress calldata 0x94

def configName : Bytes32 := clone.getArgBytes32 calldata 0xA8

/-- The length of the arguments from an offset on, from the end of the call data. -/
def lengthFrom (off : Nat) : Nat := evmSub (evmSub (argsLength calldata) 2) off

def proof : Bytes := clone.getArgBytes calldata 0xC8 (lengthFrom calldata 0xC8)

def extraData : Bytes := clone.getArgBytes calldata 0x54 (lengthFrom calldata 0x54)

end Getters

/-- A game of `relay_aggregation_proof` reads back what was packed, and the subtractions
for the two lengths do not underflow. -/
structure ReadsBack (clone : Clone) (calldata : Bytes) (endBlock l1Block : Nat) (prover : Address)
    (config : Bytes32) (proofBytes : Bytes) : Prop where
  l2BlockNumber : l2BlockNumber clone calldata = endBlock
  l1BlockNumber : l1BlockNumber clone calldata = l1Block
  proverAddress : proverAddress clone calldata = prover
  configName : configName clone calldata = config
  proof : proof clone calldata = proofBytes
  extraData : extraData clone calldata = relayExtraData endBlock l1Block prover config proofBytes
  noUnderflow : 2 ≤ argsLength calldata ∧ 0x54 ≤ argsLength calldata - 2 ∧
    0xC8 ≤ argsLength calldata - 2

variable {clone : Clone} {selector : Selector} {a : GameArgs} {endBlock l1Block : Nat}
  {prover : Address} {config : Bytes32} {proofBytes : Bytes}

theorem length_relayExtraData :
    (relayExtraData endBlock l1Block prover config proofBytes).length =
      0x74 + proofBytes.length := by
  simp [relayExtraData]
  omega

variable (endBlock l1Block prover config proofBytes) in
/-- The packed words, one after the other. -/
theorem slice_relayExtraData :
    slice (relayExtraData endBlock l1Block prover config proofBytes) 0 32 = toBytesBE 32 endBlock ∧
      slice (relayExtraData endBlock l1Block prover config proofBytes) 0x20 32 =
        toBytesBE 32 l1Block ∧
      slice (relayExtraData endBlock l1Block prover config proofBytes) 0x40 20 =
        toBytesBE 20 prover.toNat ∧
      slice (relayExtraData endBlock l1Block prover config proofBytes) 0x54 32 =
        toBytesBE 32 config.toNat ∧
      slice (relayExtraData endBlock l1Block prover config proofBytes) 0x74 proofBytes.length =
        proofBytes := by
  simp only [relayExtraData, List.append_assoc]
  have hskip (n : Nat) (word rest : Bytes) (hword : word.length = n) (off len : Nat) :
      slice (word ++ rest) (n + off) len = slice rest off len := slice_skip hword off len
  refine ⟨slice_first (length_toBytesBE _ _), ?_, ?_, ?_, ?_⟩
  · exact (hskip 32 _ _ (length_toBytesBE _ _) 0 32).trans (slice_first (length_toBytesBE _ _))
  · exact (hskip 32 _ _ (length_toBytesBE _ _) 0x20 20).trans
      ((hskip 32 _ _ (length_toBytesBE _ _) 0 20).trans (slice_first (length_toBytesBE _ _)))
  · exact (hskip 32 _ _ (length_toBytesBE _ _) 0x34 32).trans
      ((hskip 32 _ _ (length_toBytesBE _ _) 0x14 32).trans
        ((hskip 20 _ _ (length_toBytesBE _ _) 0 32).trans (slice_first (length_toBytesBE _ _))))
  · exact (hskip 32 _ _ (length_toBytesBE _ _) 0x54 _).trans
      ((hskip 32 _ _ (length_toBytesBE _ _) 0x34 _).trans
        ((hskip 20 _ _ (length_toBytesBE _ _) 0x20 _).trans
          ((hskip 32 _ _ (length_toBytesBE _ _) 0 _).trans (slice_all _))))

/-- **A length from the end of the call data** is exact. -/
theorem lengthFrom_eq {off : Nat} (hfit : ArgsFit a.bytes) (hoff : off ≤ a.bytes.length) :
    lengthFrom (cloneCalldata selector a.bytes) off = a.bytes.length - off := by
  have hlt : a.bytes.length + 2 < 65536 := hfit
  have hword : a.bytes.length + 2 < 2 ^ 256 :=
    Nat.lt_trans hlt (by decide : 65536 < 2 ^ 256)
  rw [lengthFrom, argsLength_cloneCalldata hfit, evmSub_of_le (by omega) hword,
    Nat.add_sub_cancel, evmSub_of_le hoff (Nat.lt_of_le_of_lt (Nat.le_add_right _ 2) hword)]

theorem readsBack_relay (hclone : clone.ReadsArgs) (hfit : ArgsFit a.bytes)
    (hextra : a.extraData = relayExtraData endBlock l1Block prover config proofBytes)
    (hend : endBlock < 2 ^ 256) (hl1 : l1Block < 2 ^ 256) :
    ReadsBack clone (cloneCalldata selector a.bytes) endBlock l1Block prover config proofBytes := by
  have hextraLength : a.extraData.length = 0x74 + proofBytes.length := by
    rw [hextra, length_relayExtraData]
  have hlength : a.bytes.length = 0xC8 + proofBytes.length := by
    rw [a.length_bytes, hextraLength]
    omega
  obtain ⟨hfirst, hsecond, hthird, hfourth, hrest⟩ :=
    slice_relayExtraData endBlock l1Block prover config proofBytes
  refine ⟨?_, ?_, ?_, ?_, ?_, ?_, ?_⟩
  · rw [DisputeGame.l2BlockNumber, hclone.uint256 _ _ _ hfit (by omega)]
    rw [show slice a.bytes 0x54 32 = _ from a.slice_extraData 0 32, hextra, hfirst,
      ofBytesBE_toBytesBE hend]
  · rw [DisputeGame.l1BlockNumber, hclone.uint256 _ _ _ hfit (by omega)]
    rw [show slice a.bytes 0x74 32 = _ from a.slice_extraData 0x20 32, hextra, hsecond,
      ofBytesBE_toBytesBE hl1]
  · rw [DisputeGame.proverAddress, hclone.address _ _ _ hfit (by omega)]
    rw [show slice a.bytes 0x94 20 = _ from a.slice_extraData 0x40 20, hextra, hthird,
      ofBytesBE_address]
  · rw [DisputeGame.configName, hclone.bytes32 _ _ _ hfit (by omega)]
    rw [show slice a.bytes 0xA8 32 = _ from a.slice_extraData 0x54 32, hextra, hfourth,
      ofBytesBE_bytes32]
  · have hlen : lengthFrom (cloneCalldata selector a.bytes) 0xC8 = proofBytes.length := by
      rw [lengthFrom_eq hfit (by omega), hlength, Nat.add_sub_cancel_left]
    rw [DisputeGame.proof, hlen, hclone.bytes _ _ _ _ hfit (by omega)]
    rw [show slice a.bytes 0xC8 _ = _ from a.slice_extraData 0x74 _, hextra, hrest]
  · have hlen : lengthFrom (cloneCalldata selector a.bytes) 0x54 = a.extraData.length := by
      rw [lengthFrom_eq hfit (by omega), a.length_bytes, Nat.add_sub_cancel_left]
    rw [DisputeGame.extraData, hlen, hclone.bytes _ _ _ _ hfit (by omega)]
    rw [show slice a.bytes 0x54 _ = _ from a.slice_extraData 0 _, slice_all, hextra]
  · rw [argsLength_cloneCalldata hfit]
    omega

end DisputeGame

/-! ## The round trip -/

/-- **Game arguments round trip.**  A fault game reads back the block and the parent of
`create_game`, its size check leaves one extra data and so one UUID for a claim, and a
validity game reads back all that `relay_aggregation_proof` packed. -/
theorem game_arguments_round_trip {clone : Clone} (hclone : clone.ReadsArgs) :
    (∀ (selector : Selector) (a : GameArgs) (block parent : Nat), block < 2 ^ 256 →
      parent < 2 ^ 32 → a.extraData = createGameExtraData block parent →
      FaultGame.ReadsBack clone (cloneCalldata selector a.bytes) block parent) ∧
    (∀ (im : FaultGame.Immutables) (a : GameArgs), FaultGame.SizeCheck im a) ∧
    (∀ (uuid : Nat × Bytes32 × Bytes → Bytes32) (im im' : FaultGame.Immutables) (a a' : GameArgs)
      (selector selector' : Selector), im.gameType = im'.gameType → FaultGame.Accepts im a.bytes →
      FaultGame.Accepts im' a'.bytes →
      FaultGame.SameClaim clone (cloneCalldata selector a.bytes)
        (cloneCalldata selector' a'.bytes) →
      a.extraData = a'.extraData ∧
        uuid (FaultGame.Getters.gameData clone (cloneCalldata selector a.bytes) im) =
          uuid (FaultGame.Getters.gameData clone (cloneCalldata selector' a'.bytes) im')) ∧
    ∀ (selector : Selector) (a : GameArgs) (endBlock l1Block : Nat) (prover : Address)
      (config : Bytes32) (proofBytes : Bytes), endBlock < 2 ^ 256 → l1Block < 2 ^ 256 →
      a.extraData = relayExtraData endBlock l1Block prover config proofBytes → ArgsFit a.bytes →
      DisputeGame.ReadsBack clone (cloneCalldata selector a.bytes) endBlock l1Block prover config
        proofBytes := by
  refine ⟨?_, FaultGame.sizeCheck, ?_, ?_⟩
  · intro selector a block parent hblock hparent hextra
    exact FaultGame.readsBack_createGame hclone hextra hblock hparent
  · intro uuid im im' a a' selector selector' htype h h' hsame
    obtain ⟨hextra, hdata⟩ := FaultGame.gameData_eq hclone htype h h' hsame
    exact ⟨hextra, congrArg uuid hdata⟩
  · intro selector a endBlock l1Block prover config proofBytes hend hl1 hextra hfit
    exact DisputeGame.readsBack_relay hclone hfit hextra hend hl1

/-! ### Two games -/

def exampleSelector : Selector := #v[0x81, 0x29, 0xFC, 0x1C]

/-- The arguments of a game with the extra data. -/
def exampleGameArgs (extraData : Bytes) : GameArgs := ⟨0xA11CE, 0xC1A1, 0xB10C, extraData⟩

theorem game_arguments_round_trip_example :
    FaultGame.Getters.parentIndex calldataClone (cloneCalldata exampleSelector
        (exampleGameArgs (createGameExtraData 20 3)).bytes) = 3 ∧
      DisputeGame.proof calldataClone (cloneCalldata exampleSelector
        (exampleGameArgs (relayExtraData 20 7 0xB0B 0xC0 [1, 2, 3])).bytes) = [1, 2, 3] := by
  obtain ⟨hfault, -, -, hvalidity⟩ := game_arguments_round_trip calldataClone_readsArgs
  refine ⟨(hfault _ _ 20 3 (by decide) (by decide) rfl).parentIndex, ?_⟩
  have hfit : ArgsFit (exampleGameArgs (relayExtraData 20 7 0xB0B 0xC0 [1, 2, 3])).bytes := by
    rw [ArgsFit, GameArgs.length_bytes, exampleGameArgs, DisputeGame.length_relayExtraData]
    decide
  exact (hvalidity _ _ 20 7 0xB0B 0xC0 [1, 2, 3] (by decide) (by decide) rfl hfit).proof

end OpSuccinct
