import OpSuccinct.FaultGame
import OpSuccinct.TransitionRuns

/-! # Calls on a fault dispute game

What each function of `FaultGame` does when it does not revert, one lemma per
function, and the transition relation of one game: any caller may make any call
at any time, with any answers of the other contracts.
-/
namespace OpSuccinct.FaultGame

open Transition

variable {im : Immutables} {args : Bytes} {w : World} {m : Msg} {g g' : Game}

/-! ## What a successful call does -/

theorem gameOver_iff :
    gameOver m g = true ↔ g.claimData.deadline < toUint64 m.timestamp ∨
      g.claimData.prover ≠ zeroAddress := by
  simp [gameOver]

theorem initializeGame_ok_iff :
    initializeGame im args w m g = .ok g' ↔
      g.initialized = false ∧ im.disputeGameFactory = m.sender ∧
      w.isAllowedProposer (gameCreator args) = true ∧ calldatasize args = 0x7E ∧
      ∃ start, startingRoot im args w = .ok start ∧ start.l2BlockNumber < l2BlockNumber args ∧
        m.timestamp + im.maxChallengeDuration.toNat < 2 ^ 256 ∧
        g.refundModeCredit (gameCreator args) + m.value < 2 ^ 256 ∧
        { g with
          startingOutputRoot := start
          claimData := ⟨parentIndex args, zeroAddress, zeroAddress, rootClaim args, .unchallenged,
            toUint64 (m.timestamp + im.maxChallengeDuration.toNat)⟩
          initialized := true
          refundModeCredit := Function.update g.refundModeCredit (gameCreator args)
            (g.refundModeCredit (gameCreator args) + m.value)
          createdAt := toUint64 m.timestamp
          wasRespectedGameTypeWhenCreated := decide (w.respectedGameType = im.gameType)
          balance := g.balance + m.value } = g' := by
  simp [initializeGame, bind_ok_iff, and_assoc]

theorem challenge_ok_iff :
    challenge im w m g = .ok g' ↔
      g.claimData.status = .unchallenged ∧ w.isAllowedChallenger m.sender = true ∧
      gameOver m g = false ∧ m.value = im.challengerBond ∧
      m.timestamp + im.maxProveDuration.toNat < 2 ^ 256 ∧
      g.refundModeCredit m.sender + m.value < 2 ^ 256 ∧
      { g with
        claimData := { g.claimData with
          counteredBy := m.sender
          status := .challenged
          deadline := toUint64 (m.timestamp + im.maxProveDuration.toNat) }
        refundModeCredit := Function.update g.refundModeCredit m.sender
          (g.refundModeCredit m.sender + m.value)
        balance := g.balance + m.value } = g' := by
  simp [challenge, bind_ok_iff, and_assoc]

theorem prove_ok_iff {proofBytes : Bytes} :
    prove im args w m g proofBytes = .ok g' ↔
      m.value = 0 ∧ gameOver m g = false ∧ proofAccepted im args w m g proofBytes = true ∧
      { g with
        claimData := { g.claimData with
          prover := m.sender
          status := if g.claimData.counteredBy = zeroAddress then
              .unchallengedAndValidProofProvided
            else .challengedAndValidProofProvided } } = g' := by
  simp [prove, bind_ok_iff]

theorem resolve_ok_iff :
    resolve im args w m g = .ok g' ↔
      m.value = 0 ∧ g.status = .inProgress ∧
      ∃ parent, getParentGameStatus args w = .ok parent ∧ parent ≠ .inProgress ∧
        ∃ status credit, resolveOutcome im args m g parent = .ok (status, credit) ∧
          { g with
            status := status
            normalModeCredit := credit
            claimData := { g.claimData with status := .resolved }
            resolvedAt := toUint64 m.timestamp } = g' := by
  simp [resolve, bind_ok_iff]

theorem closeGameBody_ok_iff :
    closeGameBody w g = .ok g' ↔
      (g.bondDistributionMode ≠ .undecided ∧ g = g') ∨
      (g.bondDistributionMode = .undecided ∧ w.isGameFinalized g = true ∧
        { g with
          bondDistributionMode := if w.isGameProper g = true then .normal else .refund } = g') := by
  unfold closeGameBody
  cases h : g.bondDistributionMode <;> simp

theorem recipientCredit_ok_iff {recipient : Address} {amount : Nat} :
    recipientCredit g recipient = .ok amount ↔
      g.bondDistributionMode = .refund ∧ g.refundModeCredit recipient = amount ∨
      g.bondDistributionMode = .normal ∧ g.normalModeCredit recipient = amount := by
  unfold recipientCredit
  cases h : g.bondDistributionMode <;> simp

/-- `claimCredit` closes the game, pays the whole credit of the decided mode, and
leaves the recipient none in either mode. -/
theorem claimCredit_ok_iff {recipient : Address} {amount : Nat} :
    claimCredit w m g recipient = .ok (g', amount) ↔
      m.value = 0 ∧ ∃ closed, closeGameBody w g = .ok closed ∧
        recipientCredit closed recipient = .ok amount ∧ amount ≠ 0 ∧ amount ≤ closed.balance ∧
        { closed with
          refundModeCredit := Function.update closed.refundModeCredit recipient 0
          normalModeCredit := Function.update closed.normalModeCredit recipient 0
          balance := closed.balance - amount } = g' := by
  simp only [claimCredit, bind_ok_iff, require_ok_iff, checkedSub_ok_iff, pure_ok_iff,
    Prod.mk.injEq]
  constructor
  · rintro ⟨_, hv, closed, hclosed, credit, hcredit, _, h0, _, ⟨hle, rfl⟩, rfl, rfl⟩
    exact ⟨hv, closed, hclosed, hcredit, h0, hle, rfl⟩
  · rintro ⟨hv, closed, hclosed, hcredit, h0, hle, rfl⟩
    exact ⟨(), hv, closed, hclosed, amount, hcredit, (), h0, _, ⟨hle, rfl⟩, rfl, rfl⟩

/-! ## Calls and steps -/

/-- A call on the game, with the answers of the other contracts during it.  ETH
can also be forced on the contract without calling it (`donate`). -/
inductive Op
  | initializeGame (w : World) (m : Msg)
  | challenge (w : World) (m : Msg)
  | prove (w : World) (m : Msg) (proofBytes : Bytes)
  | resolve (w : World) (m : Msg)
  | closeGame (w : World) (m : Msg)
  | claimCredit (w : World) (m : Msg) (recipient : Address)
  | donate (amount : Nat)

/-- ETH that a call moves: a bond deposited for an address, a donation, or a
payment to a recipient. -/
inductive Transfer
  | deposit (depositor : Address) (amount : Nat)
  | donation (amount : Nat)
  | payment (recipient : Address) (amount : Nat)
  deriving DecidableEq

/-- One call: the storage it leaves and the ETH it moves, or the error it reverts
with.  A claim is taken up to the recipient's code. -/
def step (im : Immutables) (args : Bytes) (g : Game) : Op → Except GameError (Game × List Transfer)
  | .initializeGame w m => do
    let g' ← FaultGame.initializeGame im args w m g
    pure (g', [.deposit (gameCreator args) m.value])
  | .challenge w m => do
    let g' ← FaultGame.challenge im w m g
    pure (g', [.deposit m.sender m.value])
  | .prove w m proofBytes => do
    let g' ← FaultGame.prove im args w m g proofBytes
    pure (g', [])
  | .resolve w m => do
    let g' ← FaultGame.resolve im args w m g
    pure (g', [])
  | .closeGame w m => do
    let g' ← FaultGame.closeGame w m g
    pure (g', [])
  | .claimCredit w m recipient => do
    let (g', amount) ← FaultGame.claimCredit w m g recipient
    pure (g', [.payment recipient amount])
  | .donate amount => pure ({ g with balance := g.balance + amount }, [.donation amount])

/-- **One step of a game**: a call that does not revert.  A call that reverts
leaves the game as it was, and is no step. -/
def GameStep (im : Immutables) (args : Bytes) (g : Game) (op : Op) (g' : Game) : Prop :=
  ∃ transfers, step im args g op = .ok (g', transfers)

section Inversion

private theorem exists_moves_iff {x : Except GameError Game} {transfers : Game → List Transfer} :
    (∃ ts, (do let g ← x; pure (g, transfers g)) = Except.ok (g', ts)) ↔ x = .ok g' := by
  cases x with
  | error e => simp
  | ok a => simp

@[simp] theorem gameStep_initializeGame :
    GameStep im args g (.initializeGame w m) g' ↔ initializeGame im args w m g = .ok g' :=
  exists_moves_iff

@[simp] theorem gameStep_challenge :
    GameStep im args g (.challenge w m) g' ↔ challenge im w m g = .ok g' :=
  exists_moves_iff

@[simp] theorem gameStep_prove {proofBytes : Bytes} :
    GameStep im args g (.prove w m proofBytes) g' ↔ prove im args w m g proofBytes = .ok g' :=
  exists_moves_iff

@[simp] theorem gameStep_resolve :
    GameStep im args g (.resolve w m) g' ↔ resolve im args w m g = .ok g' :=
  exists_moves_iff

@[simp] theorem gameStep_closeGame :
    GameStep im args g (.closeGame w m) g' ↔ m.value = 0 ∧ closeGameBody w g = .ok g' := by
  refine exists_moves_iff.trans ?_
  simp [closeGame, bind_ok_iff]

@[simp] theorem gameStep_claimCredit {recipient : Address} :
    GameStep im args g (.claimCredit w m recipient) g' ↔
      ∃ amount, claimCredit w m g recipient = .ok (g', amount) := by
  cases hc : claimCredit w m g recipient with
  | error e => simp [GameStep, step, hc]
  | ok r =>
    obtain ⟨closed, amount⟩ := r
    simp [GameStep, step, hc]

@[simp] theorem gameStep_donate {amount : Nat} :
    GameStep im args g (.donate amount) g' ↔ { g with balance := g.balance + amount } = g' := by
  simp [GameStep, step]

end Inversion

/-! ## What no call changes -/

/-- Closing a game decides its bond distribution mode and changes nothing else. -/
theorem closeGameBody_frame (h : closeGameBody w g = .ok g') :
    ∃ mode, g' = { g with bondDistributionMode := mode } := by
  rcases closeGameBody_ok_iff.mp h with ⟨-, rfl⟩ | ⟨-, -, rfl⟩
  · exact ⟨_, rfl⟩
  · exact ⟨_, rfl⟩

/-- A claim changes the mode, the credits and the balance only. -/
theorem claimCredit_frame {recipient : Address} {amount : Nat}
    (h : claimCredit w m g recipient = .ok (g', amount)) :
    ∃ mode normal refund balance, g' = { g with
      bondDistributionMode := mode
      normalModeCredit := normal
      refundModeCredit := refund
      balance := balance } := by
  obtain ⟨-, closed, hclosed, -, -, -, rfl⟩ := claimCredit_ok_iff.mp h
  obtain ⟨mode, rfl⟩ := closeGameBody_frame hclosed
  exact ⟨_, _, _, _, rfl⟩

/-- **Only `resolve` changes the winner** or the resolution time. -/
theorem GameStep.status_cases {op : Op} (h : GameStep im args g op g') :
    (g'.status = g.status ∧ g'.resolvedAt = g.resolvedAt) ∨
      ∃ w m, op = .resolve w m ∧ resolve im args w m g = .ok g' := by
  cases op with
  | initializeGame w m =>
    obtain ⟨-, -, -, -, start, -, -, -, -, rfl⟩ :=
      initializeGame_ok_iff.mp (gameStep_initializeGame.mp h)
    exact .inl ⟨rfl, rfl⟩
  | challenge w m =>
    obtain ⟨-, -, -, -, -, -, rfl⟩ := challenge_ok_iff.mp (gameStep_challenge.mp h)
    exact .inl ⟨rfl, rfl⟩
  | prove w m proofBytes =>
    obtain ⟨-, -, -, rfl⟩ := prove_ok_iff.mp (gameStep_prove.mp h)
    exact .inl ⟨rfl, rfl⟩
  | resolve w m => exact .inr ⟨w, m, rfl, gameStep_resolve.mp h⟩
  | closeGame w m =>
    obtain ⟨mode, rfl⟩ := closeGameBody_frame (gameStep_closeGame.mp h).2
    exact .inl ⟨rfl, rfl⟩
  | claimCredit w m recipient =>
    obtain ⟨amount, hc⟩ := gameStep_claimCredit.mp h
    obtain ⟨_, _, _, _, rfl⟩ := claimCredit_frame hc
    exact .inl ⟨rfl, rfl⟩
  | donate amount =>
    obtain rfl := gameStep_donate.mp h
    exact .inl ⟨rfl, rfl⟩

/-- **A resolved game stays resolved**, with the same winner and the same time. -/
theorem GameStep.status_eq {op : Op} (h : GameStep im args g op g')
    (hr : g.status ≠ .inProgress) : g'.status = g.status ∧ g'.resolvedAt = g.resolvedAt := by
  rcases h.status_cases with heq | ⟨w, m, rfl, hres⟩
  · exact heq
  · exact absurd (resolve_ok_iff.mp hres).2.1 hr

/-- **What a call can do to an initialized game**: the three calls that judge the claim, and
the others, which move credits and ETH only. -/
inductive GameChange (im : Immutables) (args : Bytes) (g : Game) : Op → Game → Prop
  | challenge {w : World} {m : Msg} {g' : Game} : challenge im w m g = .ok g' →
      GameChange im args g (.challenge w m) g'
  | prove {w : World} {m : Msg} {proofBytes : Bytes} {g' : Game} :
      prove im args w m g proofBytes = .ok g' → GameChange im args g (.prove w m proofBytes) g'
  | resolve {w : World} {m : Msg} {g' : Game} : resolve im args w m g = .ok g' →
      GameChange im args g (.resolve w m) g'
  | bonds {op : Op} (mode : BondDistributionMode) (normal refund : Address → Nat) (balance : Nat) :
      (∀ w m proofBytes, op ≠ .prove w m proofBytes) →
      GameChange im args g op { g with
        bondDistributionMode := mode
        normalModeCredit := normal
        refundModeCredit := refund
        balance := balance }

theorem GameStep.change {op : Op} (h : GameStep im args g op g') (hi : g.initialized = true) :
    GameChange im args g op g' := by
  cases op with
  | initializeGame w m =>
    obtain ⟨h0, -⟩ := initializeGame_ok_iff.mp (gameStep_initializeGame.mp h)
    rw [hi] at h0
    cases h0
  | challenge w m => exact .challenge (gameStep_challenge.mp h)
  | prove w m proofBytes => exact .prove (gameStep_prove.mp h)
  | resolve w m => exact .resolve (gameStep_resolve.mp h)
  | closeGame w m =>
    obtain ⟨mode, rfl⟩ := closeGameBody_frame (gameStep_closeGame.mp h).2
    exact .bonds mode _ _ _ nofun
  | claimCredit w m recipient =>
    obtain ⟨amount, hc⟩ := gameStep_claimCredit.mp h
    obtain ⟨mode, normal, refund, balance, rfl⟩ := claimCredit_frame hc
    exact .bonds mode normal refund balance nofun
  | donate amount =>
    obtain rfl := gameStep_donate.mp h
    exact .bonds _ _ _ _ nofun

/-- **An initialized game keeps its origin**: it is never initialized again. -/
theorem GameStep.origin_eq {op : Op} (h : GameStep im args g op g')
    (hi : g.initialized = true) :
    g'.initialized = true ∧ g'.startingOutputRoot = g.startingOutputRoot ∧
      g'.createdAt = g.createdAt := by
  cases h.change hi with
  | challenge hchallenge =>
    obtain ⟨-, -, -, -, -, -, rfl⟩ := challenge_ok_iff.mp hchallenge
    exact ⟨hi, rfl, rfl⟩
  | prove hprove =>
    obtain ⟨-, -, -, rfl⟩ := prove_ok_iff.mp hprove
    exact ⟨hi, rfl, rfl⟩
  | resolve hresolve =>
    obtain ⟨-, -, _, -, -, _, _, -, rfl⟩ := resolve_ok_iff.mp hresolve
    exact ⟨hi, rfl, rfl⟩
  | bonds => exact ⟨hi, rfl, rfl⟩

/-- **An initialized game keeps its parent.** -/
theorem GameStep.parentIndex_eq {op : Op} (h : GameStep im args g op g')
    (hi : g.initialized = true) : g'.claimData.parentIndex = g.claimData.parentIndex := by
  cases h.change hi with
  | challenge hchallenge =>
    obtain ⟨-, -, -, -, -, -, rfl⟩ := challenge_ok_iff.mp hchallenge
    rfl
  | prove hprove =>
    obtain ⟨-, -, -, rfl⟩ := prove_ok_iff.mp hprove
    rfl
  | resolve hresolve =>
    obtain ⟨-, -, _, -, -, _, _, -, rfl⟩ := resolve_ok_iff.mp hresolve
    rfl
  | bonds => rfl

/-- The factory created the game: it cloned the implementation to an address that
may hold ETH already, and `initialize` did not revert. -/
def Created (im : Immutables) (args : Bytes) (w : World) (m : Msg) (g : Game) : Prop :=
  ∃ balance, FaultGame.initializeGame im args w m (Game.fresh balance) = .ok g

/-- **What is assumed of the anchor state registry**: it calls a game finalized
only if the game is resolved. -/
def World.RegistrySound (w : World) : Prop :=
  ∀ g : Game, w.isGameFinalized g = true → g.status ≠ .inProgress

/-- The calls that ask the registry whether the game is finalized are made with a
sound registry; nothing is asked of the other calls. -/
def Op.RegistrySound : Op → Prop
  | .closeGame w _ => w.RegistrySound
  | .claimCredit w _ _ => w.RegistrySound
  | _ => True

/-- A game in progress cannot be closed. -/
theorem closeGameBody_inProgress (hw : w.RegistrySound) (hs : g.status = .inProgress)
    (hmode : g.bondDistributionMode = .undecided) : closeGameBody w g ≠ .ok g' := by
  intro h
  rcases closeGameBody_ok_iff.mp h with ⟨hd, -⟩ | ⟨-, hf, -⟩
  · exact hd hmode
  · exact hw g hf hs

/-- What `resolve` decides by the claim's status: only a claim left challenged
loses, and either one address is credited the whole balance, or the prover the
challenger's bond and the creator the rest. -/
theorem resolveByClaim_cases {status : GameStatus} {credit : Address → Nat}
    (h : resolveByClaim im args g = .ok (status, credit)) :
    g.claimData.status ≠ .resolved ∧
      status = (if g.claimData.status = .challenged then .challengerWins else .defenderWins) ∧
      ((∃ winner, credit = Function.update g.normalModeCredit winner g.balance) ∨
        g.claimData.prover ≠ gameCreator args ∧ im.challengerBond ≤ g.balance ∧
          credit = Function.update
            (Function.update g.normalModeCredit g.claimData.prover im.challengerBond)
            (gameCreator args) (g.balance - im.challengerBond)) := by
  unfold resolveByClaim at h
  cases hc : g.claimData.status with
  | unchallenged | challenged | unchallengedAndValidProofProvided =>
    simp only [hc, Except.ok.injEq, Prod.mk.injEq] at h
    exact ⟨by simp, by simp [← h.1], .inl ⟨_, h.2.symm⟩⟩
  | challengedAndValidProofProvided =>
    simp only [hc] at h
    split at h
    · simp only [Except.ok.injEq, Prod.mk.injEq] at h
      exact ⟨by simp, by simp [← h.1], .inl ⟨_, h.2.symm⟩⟩
    · rename_i hprover
      simp only [bind_ok_iff, checkedSub_ok_iff, pure_ok_iff, Prod.mk.injEq] at h
      obtain ⟨_, ⟨hbond, rfl⟩, hstatus, hcredit⟩ := h
      exact ⟨by simp, by simp [← hstatus], .inr ⟨hprover, hbond, hcredit.symm⟩⟩
  | resolved => simp [hc] at h

/-- What `resolve` decides, by how the parent ended. -/
theorem resolveOutcome_cases {parent status : GameStatus} {credit : Address → Nat}
    (h : resolveOutcome im args m g parent = .ok (status, credit)) :
    (parent = .challengerWins ∧ status = .challengerWins ∧
      credit = Function.update g.normalModeCredit g.claimData.counteredBy g.balance) ∨
    (parent ≠ .challengerWins ∧ gameOver m g = true ∧
      resolveByClaim im args g = .ok (status, credit)) := by
  unfold resolveOutcome at h
  split at h
  · simp only [Except.ok.injEq, Prod.mk.injEq] at h
    exact .inl ⟨‹_›, h.1.symm, h.2.symm⟩
  · obtain ⟨_, hover, hclaim⟩ := bind_ok_iff.mp h
    exact .inr ⟨‹_›, require_ok_iff.mp hover, hclaim⟩

/-- `resolve` never leaves the game in progress. -/
theorem resolveOutcome_status {parent status : GameStatus} {credit : Address → Nat}
    (h : resolveOutcome im args m g parent = .ok (status, credit)) : status ≠ .inProgress := by
  rcases resolveOutcome_cases h with ⟨-, rfl, -⟩ | ⟨-, -, hclaim⟩
  · decide
  · obtain ⟨-, hstatus, -⟩ := resolveByClaim_cases hclaim
    rw [hstatus]
    split <;> decide

/-! ## A game to run

The child of game 3, at block 20 over block 10, with a challenge window of 100 and
a proof window of 200, created at time 1000. -/

def exampleImmutables : Immutables where
  maxChallengeDuration := 100
  maxProveDuration := 200
  gameType := 42
  disputeGameFactory := 0xFAC
  rollupConfigHash := 1
  aggregationVkey := 2
  rangeVkeyCommitment := 3
  challengerBond := 5

def exampleArgs : Bytes := packArgs 0xA11CE 0xC1A1 0xB10C 20 3

/-- Everyone is allowed, the parent has the given status, every game is proper,
resolved games are final, and every proof verifies. -/
def exampleWorld (parent : GameStatus) : World where
  isAllowedProposer _ := true
  isAllowedChallenger _ := true
  gameAtIndex _ := some ⟨0x9A3E, parent, 0x9007, 10⟩
  isGameRespected _ := true
  isGameBlacklisted _ := false
  isGameRetired _ := false
  anchors _ := ⟨0x9007, 10⟩
  respectedGameType := 42
  isGameFinalized g := decide (g.status ≠ .inProgress)
  isGameProper _ := true
  verifyProof _ _ _ := true

def exampleMsg (sender : Address) (hs : sender ≠ zeroAddress) (value timestamp : Nat) : Msg :=
  ⟨sender, value, timestamp, hs⟩

/-- The factory's call that creates the game, with a bond of 4. -/
def exampleCreation : Msg := exampleMsg 0xFAC (by decide) 4 1000

def exampleGame : Game where
  createdAt := 1000
  resolvedAt := 0
  status := .inProgress
  initialized := true
  claimData := ⟨parentIndex exampleArgs, zeroAddress, zeroAddress, rootClaim exampleArgs,
    .unchallenged, 1100⟩
  normalModeCredit _ := 0
  refundModeCredit := Function.update (fun _ => 0) (gameCreator exampleArgs) 4
  startingOutputRoot := ⟨0x9007, 10⟩
  wasRespectedGameTypeWhenCreated := true
  bondDistributionMode := .undecided
  balance := 4

theorem exampleArgs_parentIndex : parentIndex exampleArgs = 3 := parentIndex_packArgs (by decide)

theorem exampleWorld_parent (parent : GameStatus) :
    getParentGameStatus exampleArgs (exampleWorld parent) = .ok parent := by
  simp [getParentGameStatus, exampleArgs_parentIndex, noParent, exampleWorld]

theorem exampleGame_initialized :
    initializeGame exampleImmutables exampleArgs (exampleWorld .inProgress) exampleCreation
      (Game.fresh 0) = .ok exampleGame := by
  have hstart : startingRoot exampleImmutables exampleArgs (exampleWorld .inProgress) =
      .ok ⟨0x9007, 10⟩ := by
    simp [startingRoot, exampleArgs_parentIndex, noParent, exampleWorld, require]
    rfl
  have hblock : l2BlockNumber exampleArgs = 20 := l2BlockNumber_packArgs (by decide)
  refine initializeGame_ok_iff.mpr ⟨rfl, rfl, rfl, calldatasize_packArgs, _, hstart, ?_,
    by decide, by decide, rfl⟩
  simp [hblock]

theorem exampleGame_created :
    Created exampleImmutables exampleArgs (exampleWorld .inProgress) exampleCreation exampleGame :=
  ⟨0, exampleGame_initialized⟩

/-- The call that challenges it, at 1050. -/
def exampleChallenge : Msg := exampleMsg 0xB0B (by decide) 5 1050

def exampleChallenged : Game :=
  { exampleGame with
    claimData := { exampleGame.claimData with
      counteredBy := 0xB0B
      status := .challenged
      deadline := 1250 }
    refundModeCredit := Function.update exampleGame.refundModeCredit 0xB0B
      (exampleGame.refundModeCredit 0xB0B + 5)
    balance := 9 }

theorem exampleGame_challenge_ok :
    challenge exampleImmutables (exampleWorld .inProgress) exampleChallenge exampleGame =
      .ok exampleChallenged := by
  rw [challenge_ok_iff]
  refine ⟨rfl, rfl, by decide, rfl, by decide, ?_, rfl⟩
  have hcreator : gameCreator exampleArgs = 0xA11CE := gameCreator_packArgs
  simp [exampleGame, exampleChallenge, exampleMsg, hcreator, Function.update]

theorem exampleGame_challenged : GameStep exampleImmutables exampleArgs exampleGame
    (.challenge (exampleWorld .inProgress) exampleChallenge) exampleChallenged :=
  gameStep_challenge.mpr exampleGame_challenge_ok

end OpSuccinct.FaultGame
