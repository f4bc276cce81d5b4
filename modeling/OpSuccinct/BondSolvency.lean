import OpSuccinct.FaultGameBonds
import OpSuccinct.FaultGameRegistry
import OpSuccinct.ForeignCalls

/-! # Solvency

The transfer of `claimCredit` runs the recipient's code, which may call the game again, and may
fail.  So an `Account` runs as a contract with foreign code (`contract`): a claim gives control
to the recipient in the state that `claimCredit` leaves, and ends by `claimCreditEnd`, which
learns whether the transfer succeeded.

From the invariant `Bonded`, for every state inside every nesting of calls: the credits of the
decided mode are covered, nobody is paid twice, in refund mode everyone is paid what was
deposited for them, nothing is paid that did not come in, and a failed transfer leaves every
credit as it was (`bonds_solvent`).
-/
namespace OpSuccinct.FaultGame

open Transition

variable {im : Immutables} {args : Bytes} {w : World} {m : Msg} {g g' : Game}
  {ledger : List Transfer}

/-! ## One state -/

/-- No call changes a decided mode. -/
theorem GameStep.mode_eq {op : Op} (hstep : GameStep im args g op g')
    (hd : g.bondDistributionMode ≠ .undecided) :
    g'.bondDistributionMode = g.bondDistributionMode := by
  have hclosed : ∀ {w : World} {closed : Game}, closeGameBody w g = .ok closed → g = closed := by
    intro w closed hclose
    rcases closeGameBody_ok_iff.mp hclose with ⟨-, heq⟩ | ⟨hu, -⟩
    · exact heq
    · exact absurd hu hd
  cases op with
  | initializeGame w m =>
    obtain ⟨-, -, -, -, start, -, -, -, -, rfl⟩ :=
      initializeGame_ok_iff.mp (gameStep_initializeGame.mp hstep)
    rfl
  | challenge w m =>
    obtain ⟨-, -, -, -, -, -, rfl⟩ := challenge_ok_iff.mp (gameStep_challenge.mp hstep)
    rfl
  | prove w m proofBytes =>
    obtain ⟨-, -, -, rfl⟩ := prove_ok_iff.mp (gameStep_prove.mp hstep)
    rfl
  | resolve w m =>
    obtain ⟨-, -, _, -, -, _, _, -, rfl⟩ := resolve_ok_iff.mp (gameStep_resolve.mp hstep)
    rfl
  | closeGame w m => rw [← hclosed (gameStep_closeGame.mp hstep).2]
  | claimCredit w m recipient =>
    obtain ⟨amount, hclaim⟩ := gameStep_claimCredit.mp hstep
    obtain ⟨-, closed, hclose, -, -, -, rfl⟩ := claimCredit_ok_iff.mp hclaim
    rw [hclosed hclose]
  | donate amount =>
    obtain rfl := gameStep_donate.mp hstep
    rfl

/-- **What solvency says of one state** of a game and the ETH moved so far. -/
structure Solvent (im : Immutables) (args : Bytes) (g : Game) (ledger : List Transfer) :
    Prop where
  /-- Remaining credits of winners are covered by the balance. -/
  normal : g.bondDistributionMode = .normal → ∑ a, g.normalModeCredit a ≤ g.balance
  /-- Remaining refunds are covered by the balance. -/
  refund : g.bondDistributionMode = .refund → ∑ a, g.refundModeCredit a ≤ g.balance
  /-- No claim fails for lack of funds. -/
  funded : ∀ w m recipient, w.RegistrySound →
    claimCredit w m g recipient ≠ .error .bondTransferFailed
  /-- Each address is paid at most once. -/
  paidOnce : ∀ a, (paymentsTo a ledger).length ≤ 1
  /-- What was paid and what is left is what came in. -/
  conserved : g.balance + paid ledger = received ledger
  /-- Refunds are exact. -/
  refunded : g.bondDistributionMode = .refund →
    ∀ a, ∀ v ∈ paymentsTo a ledger, v = deposited a ledger
  /-- Resolving credits exactly the balance of that moment. -/
  credited : ∀ w m g', resolve im args w m g = .ok g' →
    g'.balance = g.balance ∧ ∑ a, g'.normalModeCredit a = g.balance
  /-- A decided mode stays. -/
  decided : g.bondDistributionMode ≠ .undecided → ∀ op g', GameStep im args g op g' →
    g'.bondDistributionMode = g.bondDistributionMode

theorem Bonded.funded (h : Bonded g ledger) (hw : w.RegistrySound) {recipient : Address} :
    claimCredit w m g recipient ≠ .error .bondTransferFailed := by
  intro herr
  simp only [claimCredit, bind_error_iff, require_error_iff, reduceCtorEq, and_false,
    require_ok_iff, checkedSub_error_iff, and_true, false_or] at herr
  obtain ⟨-, -, hclose |
    ⟨closed, hclose, hcredit | ⟨amount, hcredit, -, -, hlt | ⟨_, -, hpure⟩⟩⟩⟩ := herr
  · unfold closeGameBody at hclose
    split at hclose <;> simp at hclose
  · unfold recipientCredit at hcredit
    split at hcredit <;> simp at hcredit
  · have := (h.close hw hclose).covered hcredit
    omega
  · simp [pure, Except.pure] at hpure

theorem Bonded.solvent (h : Bonded g ledger) : Solvent im args g ledger where
  normal hm := h.normal (h.resolved (by rw [hm]; decide)) (by rw [hm]; decide)
  refund hm := h.refund (by rw [hm]; decide)
  funded _ _ _ hw := h.funded hw
  paidOnce a := by
    rcases h.paidOnce a with hnil | ⟨⟨v, hv⟩, -⟩
    · simp [hnil]
    · simp [hv]
  conserved := h.conserved
  refunded hm a v hv := by
    have howed := h.owed (by rw [hm]; decide) a
    rcases h.paidOnce a with hnil | ⟨⟨v', hv'⟩, -, hrefund⟩
    · simp [hnil] at hv
    · simp only [hv', List.mem_singleton] at hv
      simpa [hv', hrefund, hv] using howed
  credited w m g' hres := by
    have hsum := (h.resolve hres).2
    obtain ⟨-, -, _, -, -, _, _, -, rfl⟩ := resolve_ok_iff.mp hres
    exact ⟨rfl, hsum⟩
  decided hd op g' hstep := hstep.mode_eq hd

/-! ## Claims and their transfers -/

/-- **A game as a contract.**  All calls but a claim run to their end.  A claim sends the ETH;
should that fail the ETH is back, with the credits still taken, and the claim's own rest is to
see to it. -/
def contract (im : Immutables) (args : Bytes) : Contract Account Op where
  step s op s' := (∀ w m recipient, op ≠ .claimCredit w m recipient) ∧ AccountStep im args s op s'
  send s op sent unsent := ∃ w m recipient amount, op = .claimCredit w m recipient ∧
    claimCredit w m s.game recipient = .ok (sent.game, amount) ∧
    sent.ledger = s.ledger ++ [.payment recipient amount] ∧
    unsent = ⟨sent.game.unsent amount, s.ledger⟩
  resume _ success s := (claimCreditEnd s.game success).toOption.map fun game => ⟨game, s.ledger⟩

/-- A claim whose transfer failed reverts. -/
theorem contract_resume_false (op : Op) (s : Account) :
    (contract im args).resume op false s = none := by
  simp [contract, claimCreditEnd, require, bind, Except.bind, Except.toOption]

/-- A claim does nothing after a transfer that succeeded. -/
theorem contract_resume_true (op : Op) (s : Account) :
    (contract im args).resume op true s = some s := by
  simp [contract, claimCreditEnd, require, bind, Except.bind, pure, Except.pure, Except.toOption]

theorem contract_within : (contract im args).Within (AccountStep im args) where
  step h := h.2
  send := by
    rintro s op sent unsent ⟨w, m, recipient, amount, rfl, hclaim, hledger, -⟩
    exact ⟨_, bind_ok_iff.mpr ⟨_, hclaim, rfl⟩, hledger⟩
  resume := by
    intro op success s s' h
    cases success with
    | false =>
      rw [contract_resume_false] at h
      cases h
    | true =>
      rw [contract_resume_true] at h
      exact ⟨rfl, (Option.some.inj h).symm⟩

/-! ## Runs -/

/-- **Bonds are solvent in every run**, in every state inside every nesting of calls.  Once
decided, the mode stays for the rest of the run.  A claim whose transfer fails leaves the state
in which it was made, whatever the recipient did meanwhile. -/
theorem bonds_solvent {w₀ : World} {m₀ : Msg} {s₀ : Account} {s : Calls Account Op}
    {tr : List (CallOp Op)} (hc : CreatedAccount im args w₀ m₀ s₀)
    (hrun : Run (CallStep (contract im args)) ⟨s₀, []⟩ tr s)
    (hops : ∀ op ∈ tr, ∀ call, op.made = some call → call.RegistrySound) :
    Solvent im args s.current.game s.current.ledger ∧
    (s.frames = [] → s.current.game.bondDistributionMode ≠ .undecided →
      ∀ tr' s', Run (CallStep (contract im args)) s tr' s' →
        s'.current.game.bondDistributionMode = s.current.game.bondDistributionMode) ∧
    (∀ claim s₁ tr' s₂ s₃, CallStep (contract im args) s (.send claim) s₁ →
      Run (fun a op b => CallStep (contract im args) a op b ∧
        s.frames.length < b.frames.length) s₁ tr' s₂ →
      s₂.frames.length = s.frames.length + 1 →
      CallStep (contract im args) s₂ (.ended false) s₃ → s₃ = s) := by
  refine ⟨?_, fun htop hd tr' s' hrun' => ?_, fun claim s₁ tr' s₂ s₃ hsend hinner hdepth hended =>
    failed_restores contract_resume_false hsend hinner hdepth hended⟩
  · obtain ⟨calls, hframes, hcalls⟩ := run_toFrames contract_within hrun
    have hbonded : s.toFrames.All fun a => Bonded a.game a.ledger := by
      refine Frames.invariant (P := Op.RegistrySound)
        (fun _ _ _ ha hl hstep => ha.step hl hstep) hframes (fun call hcall => ?_)
        ⟨hc.bonded, by simp [Calls.toFrames]⟩
      obtain ⟨op, hop, hmade⟩ := hcalls call hcall
      exact hops op hop call hmade
    exact hbonded.1.solvent
  · obtain ⟨calls, hframes, -⟩ := run_toFrames contract_within hrun'
    refine Frames.keeps (f := fun a => a.game.bondDistributionMode)
      (P := fun mode => mode ≠ .undecided) (fun a op b hda hstep => ?_) hframes
      (by simp [Calls.toFrames, htop]) hd
    obtain ⟨transfers, hstep, -⟩ := hstep
    exact GameStep.mode_eq ⟨transfers, hstep⟩ hda

/-! ### A challenger who refuses its payment

The example game is challenged at 1050 and resolved at 1251 without a proof. -/

theorem exampleAccount_created : CreatedAccount exampleImmutables exampleArgs
    (exampleWorld .inProgress) exampleCreation
    ⟨exampleGame, [.donation 0, .deposit (gameCreator exampleArgs) 4]⟩ :=
  ⟨0, exampleGame_initialized, rfl⟩

def exampleUnanswered : Game :=
  { exampleChallenged with
    status := .challengerWins
    normalModeCredit := Function.update (fun _ => 0) 0xB0B 9
    claimData := { exampleChallenged.claimData with status := .resolved }
    resolvedAt := 1251 }

def exampleLedger : List Transfer := [.donation 0, .deposit (gameCreator exampleArgs) 4]

theorem exampleUnanswered_resolved :
    resolve exampleImmutables exampleArgs (exampleWorld .defenderWins) (exampleCall 1251)
      exampleChallenged = .ok exampleUnanswered := by
  have hover : gameOver (exampleCall 1251) exampleChallenged = true := by decide
  refine resolve_ok_iff.mpr ⟨rfl, rfl, _, exampleWorld_parent _, by decide, .challengerWins, _, ?_,
    rfl⟩
  rw [resolveOutcome, if_neg (by decide), require, if_pos hover]
  rfl

theorem exampleAccount_challenged : AccountStep exampleImmutables exampleArgs
    ⟨exampleGame, exampleLedger⟩ (.challenge (exampleWorld .inProgress) exampleChallenge)
    ⟨exampleChallenged, exampleLedger ++ [.deposit 0xB0B 5]⟩ :=
  ⟨_, bind_ok_iff.mpr ⟨_, exampleGame_challenge_ok, rfl⟩, rfl⟩

theorem exampleAccount_unanswered : AccountStep exampleImmutables exampleArgs
    ⟨exampleChallenged, exampleLedger ++ [.deposit 0xB0B 5]⟩
    (.resolve (exampleWorld .defenderWins) (exampleCall 1251))
    ⟨exampleUnanswered, exampleLedger ++ [.deposit 0xB0B 5]⟩ :=
  ⟨[], bind_ok_iff.mpr ⟨_, exampleUnanswered_resolved, rfl⟩, (List.append_nil _).symm⟩

def exampleRefusedOps : List (CallOp Op) :=
  [.call (.challenge (exampleWorld .inProgress) exampleChallenge),
    .call (.resolve (exampleWorld .defenderWins) (exampleCall 1251))]

def exampleRefused : Calls Account Op :=
  ⟨⟨exampleUnanswered, exampleLedger ++ [.deposit 0xB0B 5]⟩, []⟩

theorem exampleRefused_reached :
    Run (CallStep (contract exampleImmutables exampleArgs)) ⟨⟨exampleGame, exampleLedger⟩, []⟩
      exampleRefusedOps exampleRefused :=
  .cons (.call _ _ _ _ ⟨nofun, exampleAccount_challenged⟩)
    (.single (.call _ _ _ _ ⟨nofun, exampleAccount_unanswered⟩))

/-- The claim of the challenger at 2000. -/
def exampleClaim : Op := .claimCredit (exampleWorld .defenderWins) (exampleCall 2000) 0xB0B

theorem exampleRefused_sent : ∃ s, CallStep (contract exampleImmutables exampleArgs)
    exampleRefused (.send exampleClaim) s := by
  have hclaim : ∃ game, claimCredit (exampleWorld .defenderWins) (exampleCall 2000)
      exampleUnanswered 0xB0B = .ok (game, 9) :=
    ⟨_, claimCredit_ok_iff.mpr ⟨rfl, _, closeGameBody_ok_iff.mpr (.inr ⟨rfl, rfl, rfl⟩),
      recipientCredit_ok_iff.mpr (.inr ⟨rfl, rfl⟩), by decide, by decide, rfl⟩⟩
  obtain ⟨game, hclaim⟩ := hclaim
  exact ⟨_, .send _ ⟨game, _⟩ _ _ _ ⟨_, _, _, 9, rfl, hclaim, rfl, rfl⟩⟩

/-- The bonds of the example are solvent, and whatever the challenger's code does before it
refuses the payment, the game is as it was. -/
theorem bonds_solvent_example :
    Solvent exampleImmutables exampleArgs exampleUnanswered
      (exampleLedger ++ [.deposit 0xB0B 5]) ∧
    ∃ s₁, CallStep (contract exampleImmutables exampleArgs) exampleRefused (.send exampleClaim)
        s₁ ∧
      ∀ tr s₂ s₃, Run (fun a op b => CallStep (contract exampleImmutables exampleArgs) a op b ∧
          0 < b.frames.length) s₁ tr s₂ → s₂.frames.length = 1 →
        CallStep (contract exampleImmutables exampleArgs) s₂ (.ended false) s₃ →
        s₃ = exampleRefused := by
  obtain ⟨s₁, hsent⟩ := exampleRefused_sent
  obtain ⟨hsolvent, -, hfailed⟩ := bonds_solvent exampleAccount_created exampleRefused_reached
    (by simp [exampleRefusedOps, CallOp.made, Op.RegistrySound])
  exact ⟨hsolvent, s₁, hsent, fun tr s₂ s₃ => hfailed exampleClaim s₁ tr s₂ s₃ hsent⟩

end OpSuccinct.FaultGame
