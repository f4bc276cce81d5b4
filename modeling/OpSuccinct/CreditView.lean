import OpSuccinct.BondSolvency
import OpSuccinct.FaultGameTerminal

/-! # The credit view

`credit` shows the normal-mode credit in every mode but refund, while `claimCredit` decides
the mode first and asks the registry for it.  So the view shows what a claim pays of every
closed game, and of every game the registry calls proper; of an improper game that is not
closed yet it shows the credit that the claim takes away (`credit_of_improper_game`).
`credit_view_agrees` says which of the two ledgers is shown and which one is paid, in every
state of every run, whatever the registry answers.
-/
namespace OpSuccinct.FaultGame

open Transition

variable {im : Immutables} {args : Bytes} {w : World} {m : Msg} {g g' : Game}
  {ledger : List Transfer} {recipient : Address}

/-- What a claim transfers: nothing when the recipient has no credit. -/
def transferred : Except GameError (Game × Nat) → Option Nat
  | .ok (_, amount) => some amount
  | .error .noCreditToClaim => some 0
  | .error _ => none

theorem credit_of_recipientCredit {amount : Nat} (h : recipientCredit g recipient = .ok amount) :
    credit g recipient = amount := by
  rcases recipientCredit_ok_iff.mp h with ⟨hmode, heq⟩ | ⟨hmode, heq⟩
  · rw [credit, if_pos hmode, heq]
  · rw [credit, if_neg (by rw [hmode]; decide), heq]

/-- A finalized game can be closed, and has a credit for everyone then. -/
theorem closed_of_finalized (hfinal : w.isGameFinalized g = true) (recipient : Address) :
    ∃ closed, closeGameBody w g = .ok closed ∧
      recipientCredit closed recipient = .ok (credit closed recipient) := by
  by_cases hmode : g.bondDistributionMode = .undecided
  · refine ⟨_, closeGameBody_ok_iff.mpr (.inr ⟨hmode, hfinal, rfl⟩), recipientCredit_ok_iff.mpr ?_⟩
    by_cases hproper : w.isGameProper g = true
    · exact .inr ⟨by simp [hproper], by simp [credit, hproper]⟩
    · exact .inl ⟨by simp [hproper], by simp [credit, hproper]⟩
  · refine ⟨g, closeGameBody_ok_iff.mpr (.inl ⟨hmode, rfl⟩), recipientCredit_ok_iff.mpr ?_⟩
    by_cases hrefund : g.bondDistributionMode = .refund
    · exact .inl ⟨hrefund, by simp [credit, hrefund]⟩
    · have hnormal : g.bondDistributionMode = .normal := by
        cases hg : g.bondDistributionMode with
        | undecided => exact absurd hg hmode
        | normal => rfl
        | refund => exact absurd hg hrefund
      exact .inr ⟨hnormal, by simp [credit, hnormal]⟩

/-- **A claim transfers the credit of the closed game**: it is covered. -/
theorem Bonded.transferred_eq (h : Bonded g ledger) (hw : w.RegistrySound)
    (hvalue : m.value = 0) {closed : Game} (hclose : closeGameBody w g = .ok closed)
    (hcredit : recipientCredit closed recipient = .ok (credit closed recipient)) :
    transferred (claimCredit w m g recipient) = some (credit closed recipient) := by
  by_cases hzero : credit closed recipient = 0
  · have hclaim : claimCredit w m g recipient = .error .noCreditToClaim := by
      simp [claimCredit, hvalue, hclose, hcredit, hzero, require, bind, Except.bind]
    rw [hclaim, hzero]
    rfl
  · have hle := (h.close hw hclose).covered hcredit
    rw [claimCredit_ok_iff.mpr ⟨hvalue, closed, hclose, hcredit, hzero, hle, rfl⟩]
    rfl

/-- **The view and the claim** of one finalized game. -/
structure CreditShown (w : World) (m : Msg) (g : Game) (recipient : Address) : Prop where
  /-- A closed game, and one the registry calls proper, shows what the claim transfers. -/
  agrees : g.bondDistributionMode ≠ .undecided ∨ w.isGameProper g = true →
    transferred (claimCredit w m g recipient) = some (credit g recipient)
  /-- Any other one shows the normal-mode credit, and the claim transfers the refund. -/
  improper : g.bondDistributionMode = .undecided → w.isGameProper g = false →
    credit g recipient = g.normalModeCredit recipient ∧
      transferred (claimCredit w m g recipient) = some (g.refundModeCredit recipient)

theorem Bonded.creditShown (h : Bonded g ledger) (hw : w.RegistrySound)
    (hfinal : w.isGameFinalized g = true) (hvalue : m.value = 0) :
    CreditShown w m g recipient := by
  obtain ⟨closed, hclose, hcredit⟩ := closed_of_finalized hfinal recipient
  have htransferred := h.transferred_eq hw hvalue hclose hcredit
  rcases closeGameBody_ok_iff.mp hclose with ⟨hdecided, rfl⟩ | ⟨hundecided, -, rfl⟩
  · exact ⟨fun _ => htransferred, fun hundecided => absurd hundecided hdecided⟩
  · refine ⟨fun hproper => ?_, fun _ himproper => ⟨?_, ?_⟩⟩
    · have hproper := hproper.resolve_left (not_not_intro hundecided)
      simpa [credit, hundecided, hproper] using htransferred
    · rw [credit, if_neg (by rw [hundecided]; decide)]
    · simpa [credit, himproper] using htransferred

/-- **The credit view** in every state of a run, inside every nesting of calls, in which the
registry reports the game finalized. -/
theorem credit_view_agrees {w₀ : World} {m₀ : Msg} {s₀ : Account} {s : Frames Account}
    {tr : List (FrameOp Op)} (hc : CreatedAccount im args w₀ m₀ s₀)
    (hrun : Run (FrameStep (AccountStep im args)) ⟨s₀, []⟩ tr s)
    (hops : ∀ op, .call op ∈ tr → op.RegistrySound) (hw : w.RegistrySound)
    (hfinal : w.isGameFinalized s.current.game = true) (hvalue : m.value = 0)
    (recipient : Address) : CreditShown w m s.current.game recipient := by
  have hbonded : s.All fun a => Bonded a.game a.ledger :=
    Frames.invariant (P := Op.RegistrySound) (fun _ _ _ ha hl hstep => ha.step hl hstep) hrun hops
      ⟨hc.bonded, by simp⟩
  exact hbonded.1.creditShown hw hfinal hvalue

/-! ### A lost game whose creator is refunded

The example game lost because its parent did, and nobody challenged it: the normal-mode credit
is burned. -/

/-- The example account, after its game was lost. -/
def exampleLostAccount : Account :=
  ⟨exampleLost, [.donation 0, .deposit (gameCreator exampleArgs) 4]⟩

def exampleLostOps : List (FrameOp Op) :=
  [.call (.resolve (exampleWorld .challengerWins) (exampleCall 1010))]

theorem exampleLostAccount_reached :
    Run (FrameStep (AccountStep exampleImmutables exampleArgs))
      ⟨⟨exampleGame, [.donation 0, .deposit (gameCreator exampleArgs) 4]⟩, []⟩ exampleLostOps
      ⟨exampleLostAccount, []⟩ := by
  have hresolve := gameStep_resolve.mp exampleGame_lost
  refine .single (.call _ _ [] _ ⟨[], ?_, rfl⟩)
  exact bind_ok_iff.mpr ⟨exampleLost, hresolve, rfl⟩

theorem exampleLost_creator :
    exampleLost.normalModeCredit (gameCreator exampleArgs) = 0 ∧
      exampleLost.refundModeCredit (gameCreator exampleArgs) = 4 := by
  have hcreator : gameCreator exampleArgs = 0xA11CE := gameCreator_packArgs
  refine ⟨?_, ?_⟩
  · rw [hcreator]
    rfl
  · simp [exampleLost, exampleGame]

/-- The registry that calls no game proper. -/
def exampleImproper : World :=
  { exampleWorld .challengerWins with isGameProper := fun _ => false }

theorem credit_view_agrees_example :
    transferred (claimCredit exampleImproper (exampleCall 2000) exampleLost
      (gameCreator exampleArgs)) = some 4 := by
  have hshown : CreditShown exampleImproper (exampleCall 2000) exampleLost
      (gameCreator exampleArgs) :=
    credit_view_agrees exampleAccount_created exampleLostAccount_reached
      (by simp [exampleLostOps, Op.RegistrySound, World.RegistrySound])
      (by simp [World.RegistrySound, exampleImproper, exampleWorld]) rfl rfl
      (gameCreator exampleArgs)
  rw [(hshown.improper rfl rfl).2, exampleLost_creator.2]

/-- The view shows the creator no credit, and a claim would transfer 4. -/
theorem credit_of_improper_game :
    CreatedAccount exampleImmutables exampleArgs (exampleWorld .inProgress) exampleCreation
      ⟨exampleGame, [.donation 0, .deposit (gameCreator exampleArgs) 4]⟩ ∧
    Run (FrameStep (AccountStep exampleImmutables exampleArgs))
      ⟨⟨exampleGame, [.donation 0, .deposit (gameCreator exampleArgs) 4]⟩, []⟩ exampleLostOps
      ⟨exampleLostAccount, []⟩ ∧
    exampleImproper.RegistrySound ∧ exampleImproper.isGameFinalized exampleLost = true ∧
    credit exampleLost (gameCreator exampleArgs) = 0 ∧
    transferred (claimCredit exampleImproper (exampleCall 2000) exampleLost
      (gameCreator exampleArgs)) ≠ some (credit exampleLost (gameCreator exampleArgs)) := by
  have hsound : exampleImproper.RegistrySound := by
    simp [World.RegistrySound, exampleImproper, exampleWorld]
  have hbonded : Bonded exampleGame [.donation 0, .deposit (gameCreator exampleArgs) 4] :=
    exampleAccount_created.bonded
  have hlost := (hbonded.resolve (gameStep_resolve.mp exampleGame_lost)).1
  have hshown : CreditShown exampleImproper (exampleCall 2000) exampleLost
      (gameCreator exampleArgs) := hlost.creditShown hsound rfl rfl
  have hcredit : credit exampleLost (gameCreator exampleArgs) = 0 :=
    (hshown.improper rfl rfl).1.trans exampleLost_creator.1
  refine ⟨exampleAccount_created, exampleLostAccount_reached, hsound, rfl, hcredit, ?_⟩
  rw [(hshown.improper rfl rfl).2, exampleLost_creator.2, hcredit]
  decide

end OpSuccinct.FaultGame
