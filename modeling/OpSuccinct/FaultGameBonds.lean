import Mathlib.Algebra.BigOperators.Group.Finset.Piecewise
import Mathlib.Algebra.Order.BigOperators.Group.Finset
import Mathlib.Data.FinEnum
import OpSuccinct.FaultGameSteps

/-! # Bonds of a fault dispute game

A game holds the bonds of its creator and its challenger, and pays them out
through `claimCredit` from one of two ledgers: `normalModeCredit`, assigned by
`resolve`, or `refundModeCredit`, assigned by the deposits.  An `Account` is a
game together with the ETH that has moved so far.

The invariant (`Bonded`) ties both ledgers to the balance and to the transfers.
Every call keeps it (`Bonded.step`).
-/
namespace OpSuccinct.FaultGame

/-! ## ETH movements -/

/-- A game and the ETH moved since it was created, oldest first. -/
structure Account where
  game : Game
  ledger : List Transfer

@[simp] def Transfer.depositFor (a : Address) : Transfer → Nat
  | .deposit depositor amount => if depositor = a then amount else 0
  | _ => 0

@[simp] def Transfer.paymentTo (a : Address) : Transfer → Option Nat
  | .payment recipient amount => if recipient = a then some amount else none
  | _ => none

@[simp] def Transfer.incoming : Transfer → Nat
  | .deposit _ amount => amount
  | .donation amount => amount
  | .payment _ _ => 0

@[simp] def Transfer.outgoing : Transfer → Nat
  | .payment _ amount => amount
  | _ => 0

/-- What was deposited for `a` through `initialize` and `challenge`. -/
def deposited (a : Address) (ledger : List Transfer) : Nat :=
  (ledger.map (Transfer.depositFor a)).sum

/-- The payments `a` received. -/
def paymentsTo (a : Address) (ledger : List Transfer) : List Nat :=
  ledger.filterMap (Transfer.paymentTo a)

/-- The ETH that came in, bonds and donations. -/
def received (ledger : List Transfer) : Nat := (ledger.map Transfer.incoming).sum

/-- The ETH paid out. -/
def paid (ledger : List Transfer) : Nat := (ledger.map Transfer.outgoing).sum

/-- A call that does not revert, with the ETH it moves. -/
def AccountStep (im : Immutables) (args : Bytes) (s : Account) (op : Op) (s' : Account) : Prop :=
  ∃ transfers, step im args s.game op = .ok (s'.game, transfers) ∧
    s'.ledger = s.ledger ++ transfers

/-- The account the factory creates: the ETH found at the clone's address, then the
creator's bond. -/
def CreatedAccount (im : Immutables) (args : Bytes) (w : World) (m : Msg) (s : Account) : Prop :=
  ∃ balance, initializeGame im args w m (Game.fresh balance) = .ok s.game ∧
    s.ledger = [.donation balance, .deposit (gameCreator args) m.value]

section Ledger
variable {a : Address} {t : Transfer} {ledger transfers : List Transfer}

@[simp] theorem deposited_append :
    deposited a (ledger ++ transfers) = deposited a ledger + deposited a transfers := by
  simp [deposited]

@[simp] theorem deposited_nil : deposited a [] = 0 := rfl

@[simp] theorem deposited_cons :
    deposited a (t :: ledger) = t.depositFor a + deposited a ledger := by
  simp [deposited]

@[simp] theorem paymentsTo_append :
    paymentsTo a (ledger ++ transfers) = paymentsTo a ledger ++ paymentsTo a transfers := by
  simp [paymentsTo]

@[simp] theorem paymentsTo_nil : paymentsTo a [] = [] := rfl

@[simp] theorem paymentsTo_cons :
    paymentsTo a (t :: ledger) = (t.paymentTo a).toList ++ paymentsTo a ledger := by
  rw [paymentsTo, List.filterMap_cons]
  cases t.paymentTo a <;> rfl

@[simp] theorem received_append :
    received (ledger ++ transfers) = received ledger + received transfers := by
  simp [received]

@[simp] theorem received_nil : received [] = 0 := rfl

@[simp] theorem received_cons : received (t :: ledger) = t.incoming + received ledger := by
  simp [received]

@[simp] theorem paid_append : paid (ledger ++ transfers) = paid ledger + paid transfers := by
  simp [paid]

@[simp] theorem paid_nil : paid [] = 0 := rfl

@[simp] theorem paid_cons : paid (t :: ledger) = t.outgoing + paid ledger := by
  simp [paid]

end Ledger

/-- The total of credits after one of them is set anew. -/
theorem sum_update_add {α : Type} [Fintype α] [DecidableEq α] (f : α → Nat) (a : α) (v : Nat) :
    (∑ x, Function.update f a v x) + f a = (∑ x, f x) + v := by
  rw [Finset.sum_update_of_mem (Finset.mem_univ a), ← Finset.erase_eq,
    ← Finset.add_sum_erase Finset.univ f (Finset.mem_univ a)]
  omega

/-! ## The invariant -/

/-- **The invariant of a game and its ETH movements.** -/
structure Bonded (g : Game) (ledger : List Transfer) : Prop where
  initialized : g.initialized = true
  /-- Bonds are undecided, and no winner is credited, while the game is in progress. -/
  inProgress : g.status = .inProgress →
    g.bondDistributionMode = .undecided ∧ ∀ a, g.normalModeCredit a = 0
  /-- A resolved game takes no further challenge. -/
  unchallengeable : g.status ≠ .inProgress → g.claimData.status ≠ .unchallenged
  /-- The balance is what came in and was not paid. -/
  conserved : g.balance + paid ledger = received ledger
  /-- The winners' credits are covered, unless bonds are refunded. -/
  normal : g.status ≠ .inProgress → g.bondDistributionMode ≠ .refund →
    ∑ a, g.normalModeCredit a ≤ g.balance
  /-- The deposits are covered, unless bonds go to the winners. -/
  refund : g.bondDistributionMode ≠ .normal → ∑ a, g.refundModeCredit a ≤ g.balance
  /-- Nothing is paid before the mode is decided. -/
  unpaid : g.bondDistributionMode = .undecided → ∀ a, paymentsTo a ledger = []
  /-- Refund credit is what was deposited and not paid back. -/
  owed : g.bondDistributionMode ≠ .normal → ∀ a,
    g.refundModeCredit a + (paymentsTo a ledger).sum = deposited a ledger
  /-- Whoever was paid was paid once and has no credit left. -/
  paidOnce : ∀ a, paymentsTo a ledger = [] ∨
    (∃ v, paymentsTo a ledger = [v]) ∧ g.normalModeCredit a = 0 ∧ g.refundModeCredit a = 0

variable {im : Immutables} {args : Bytes} {w : World} {m : Msg} {g g' : Game}
  {ledger : List Transfer}

/-- Once bonds are decided the game is resolved. -/
theorem Bonded.resolved (h : Bonded g ledger) (hd : g.bondDistributionMode ≠ .undecided) :
    g.status ≠ .inProgress :=
  fun hs => hd (h.inProgress hs).1

theorem CreatedAccount.bonded {s : Account} (hc : CreatedAccount im args w m s) :
    Bonded s.game s.ledger := by
  obtain ⟨balance, hi, hl⟩ := hc
  obtain ⟨-, -, -, -, start, -, -, -, -, hg⟩ := initializeGame_ok_iff.mp hi
  have hsum := sum_update_add (fun _ => 0) (gameCreator args) (0 + m.value)
  rw [← hg, hl]
  refine ⟨rfl, fun _ => ⟨rfl, fun _ => rfl⟩, fun hr => absurd rfl hr, ?_, fun hr => absurd rfl hr,
    fun _ => ?_, fun _ _ => by simp, fun _ a => ?_, fun _ => .inl (by simp)⟩
  · simp [Game.fresh]
  · simp only [Game.fresh, Finset.sum_const_zero] at hsum ⊢
    omega
  · by_cases ha : a = gameCreator args
    · simp [ha, Game.fresh]
    · simp [ha, Ne.symm ha, Game.fresh]

/-- A challenge adds its bond to the balance and to the challenger's refund. -/
theorem Bonded.challenge (h : Bonded g ledger) (hstep : challenge im w m g = .ok g') :
    Bonded g' (ledger ++ [.deposit m.sender m.value]) := by
  obtain ⟨hun, -, -, -, -, -, rfl⟩ := challenge_ok_iff.mp hstep
  have hs : g.status = .inProgress := by
    by_contra hr
    exact h.unchallengeable hr hun
  obtain ⟨hmode, hnormal⟩ := h.inProgress hs
  have hunpaid := h.unpaid hmode
  have hsum := sum_update_add g.refundModeCredit m.sender (g.refundModeCredit m.sender + m.value)
  have hrefund := h.refund (by rw [hmode]; decide)
  have hbal := h.conserved
  refine ⟨h.initialized, fun _ => ⟨hmode, hnormal⟩, fun hr => absurd hs hr, ?_,
    fun hr => absurd hs hr, fun _ => ?_, fun _ a => ?_, fun hm a => ?_, fun a => .inl ?_⟩
  · simp
    omega
  · simp only
    omega
  · simpa using hunpaid a
  · have howed := h.owed hm a
    by_cases ha : a = m.sender
    · subst ha
      simp
      omega
    · simpa [ha, Ne.symm ha] using howed
  · simpa using hunpaid a

/-- The credits `resolve` assigns to winners sum to the balance. -/
theorem resolveOutcome_sum {parent status : GameStatus} {credit : Address → Nat}
    (h : resolveOutcome im args m g parent = .ok (status, credit))
    (hzero : ∀ a, g.normalModeCredit a = 0) : ∑ a, credit a = g.balance := by
  have hall (winner : Address) :
      ∑ a, Function.update g.normalModeCredit winner g.balance a = g.balance := by
    have hsum := sum_update_add g.normalModeCredit winner g.balance
    simp only [hzero, Finset.sum_const_zero] at hsum
    omega
  rcases resolveOutcome_cases h with ⟨-, -, rfl⟩ | ⟨-, -, hclaim⟩
  · exact hall _
  · obtain ⟨-, -, ⟨winner, rfl⟩ | ⟨hne, hbond, rfl⟩⟩ := resolveByClaim_cases hclaim
    · exact hall winner
    · have hprover := sum_update_add g.normalModeCredit g.claimData.prover im.challengerBond
      have hcreator := sum_update_add
        (Function.update g.normalModeCredit g.claimData.prover im.challengerBond)
        (gameCreator args) (g.balance - im.challengerBond)
      rw [Function.update_of_ne (Ne.symm hne)] at hcreator
      simp only [hzero, Finset.sum_const_zero] at hprover hcreator
      omega

/-- Resolving credits the whole balance, when no one was credited before. -/
theorem Bonded.resolve (h : Bonded g ledger) (hstep : resolve im args w m g = .ok g') :
    Bonded g' ledger ∧ ∑ a, g'.normalModeCredit a = g'.balance := by
  obtain ⟨-, hs, parent, -, -, status, credit, hout, rfl⟩ := resolve_ok_iff.mp hstep
  obtain ⟨hmode, hzero⟩ := h.inProgress hs
  have hne := resolveOutcome_status hout
  have hsum := resolveOutcome_sum hout hzero
  refine ⟨⟨h.initialized, fun hs' => absurd hs' hne, fun _ => by simp, h.conserved,
    fun _ _ => Nat.le_of_eq hsum, h.refund, h.unpaid, h.owed, fun a => .inl ?_⟩, hsum⟩
  exact h.unpaid hmode a

/-- Closing decides the mode of a resolved game; both ledgers are covered then. -/
theorem Bonded.close (h : Bonded g ledger) (hw : w.RegistrySound)
    (hstep : closeGameBody w g = .ok g') : Bonded g' ledger := by
  rcases closeGameBody_ok_iff.mp hstep with ⟨-, rfl⟩ | ⟨hmode, hfinal, rfl⟩
  · exact h
  · have hr := hw g hfinal
    have hnormal := h.normal hr (by rw [hmode]; decide)
    have hrefund := h.refund (by rw [hmode]; decide)
    have howed := h.owed (by rw [hmode]; decide)
    refine ⟨h.initialized, fun hs => absurd hs hr, h.unchallengeable, h.conserved,
      fun _ _ => hnormal, fun _ => hrefund, fun hu => ?_, fun _ => howed, h.paidOnce⟩
    simp only at hu
    split at hu <;> cases hu

/-- What a claim leaves: the recipient's credits are gone and the balance is lower
by the payment. -/
def Game.afterPayment (g : Game) (recipient : Address) (amount : Nat) : Game :=
  { g with
    refundModeCredit := Function.update g.refundModeCredit recipient 0
    normalModeCredit := Function.update g.normalModeCredit recipient 0
    balance := g.balance - amount }

/-- A credit of the decided mode is covered by the balance. -/
theorem Bonded.covered {recipient : Address} {amount : Nat} (h : Bonded g ledger)
    (hcredit : recipientCredit g recipient = .ok amount) : amount ≤ g.balance := by
  rcases recipientCredit_ok_iff.mp hcredit with ⟨hmode, rfl⟩ | ⟨hmode, rfl⟩
  · exact Nat.le_trans (Finset.single_le_sum (fun _ _ => Nat.zero_le _) (Finset.mem_univ recipient))
      (h.refund (by rw [hmode]; decide))
  · exact Nat.le_trans (Finset.single_le_sum (fun _ _ => Nat.zero_le _) (Finset.mem_univ recipient))
      (h.normal (h.resolved (by rw [hmode]; decide)) (by rw [hmode]; decide))

/-- **A payment** takes one covered credit out of the balance, to an address that
was not paid before. -/
theorem Bonded.pay {recipient : Address} {amount : Nat} (h : Bonded g ledger)
    (hcredit : recipientCredit g recipient = .ok amount) (h0 : amount ≠ 0) :
    Bonded (g.afterPayment recipient amount) (ledger ++ [.payment recipient amount]) := by
  have hle := h.covered hcredit
  have hbal := h.conserved
  have hrefundSum := sum_update_add g.refundModeCredit recipient 0
  have hnormalSum := sum_update_add g.normalModeCredit recipient 0
  have hmode := recipientCredit_ok_iff.mp hcredit
  have hdecided : g.bondDistributionMode ≠ .undecided := by
    rcases hmode with ⟨hm, -⟩ | ⟨hm, -⟩ <;> rw [hm] <;> decide
  have hr := h.resolved hdecided
  have hfirst : paymentsTo recipient ledger = [] := by
    rcases h.paidOnce recipient with hnil | ⟨-, hn, hf⟩
    · exact hnil
    · rcases hmode with ⟨-, rfl⟩ | ⟨-, rfl⟩
      · exact absurd hf h0
      · exact absurd hn h0
  refine ⟨h.initialized, fun hs => absurd hs hr, h.unchallengeable, ?_, fun _ hm => ?_,
    fun hm => ?_, fun hu => absurd hu hdecided, fun hm a => ?_, fun a => ?_⟩
  · simp [Game.afterPayment]
    omega
  · rcases hmode with ⟨hmode, -⟩ | ⟨-, rfl⟩
    · exact absurd hmode hm
    · have hnormal := h.normal hr hm
      simp only [Game.afterPayment]
      omega
  · rcases hmode with ⟨-, rfl⟩ | ⟨hmode, -⟩
    · have hrefund := h.refund hm
      simp only [Game.afterPayment]
      omega
    · exact absurd hmode hm
  · rcases hmode with ⟨-, rfl⟩ | ⟨hmode, -⟩
    · have howed := h.owed hm a
      by_cases ha : a = recipient
      · subst ha
        simp [Game.afterPayment, hfirst] at howed ⊢
        exact howed
      · simpa [Game.afterPayment, ha, Ne.symm ha] using howed
    · exact absurd hmode hm
  · by_cases ha : a = recipient
    · subst ha
      exact .inr ⟨⟨amount, by simp [hfirst]⟩, by simp [Game.afterPayment], by
        simp [Game.afterPayment]⟩
    · simpa [Game.afterPayment, ha, Ne.symm ha] using h.paidOnce a

/-- **One call** keeps the invariant. -/
theorem Bonded.step {s s' : Account} {op : Op} (h : Bonded s.game s.ledger)
    (hsound : op.RegistrySound) (hstep : AccountStep im args s op s') :
    Bonded s'.game s'.ledger := by
  obtain ⟨transfers, hstep, hledger⟩ := hstep
  rw [hledger]
  cases op with
  | initializeGame w m =>
    obtain ⟨g', hi, heq⟩ := bind_ok_iff.mp hstep
    exact absurd h.initialized (by simp [(initializeGame_ok_iff.mp hi).1])
  | challenge w m =>
    obtain ⟨g', hc, heq⟩ := bind_ok_iff.mp hstep
    obtain ⟨rfl, rfl⟩ := Prod.mk.inj (Except.ok.inj heq)
    exact h.challenge hc
  | prove w m proofBytes =>
    obtain ⟨g', hp, heq⟩ := bind_ok_iff.mp hstep
    obtain ⟨hgame, rfl⟩ := Prod.mk.inj (Except.ok.inj heq)
    obtain ⟨-, -, -, rfl⟩ := prove_ok_iff.mp hp
    rw [List.append_nil, ← hgame]
    refine ⟨h.initialized, h.inProgress, fun _ => ?_, h.conserved, h.normal, h.refund, h.unpaid,
      h.owed, h.paidOnce⟩
    by_cases hc : s.game.claimData.counteredBy = zeroAddress <;> simp [hc]
  | resolve w m =>
    obtain ⟨g', hr, heq⟩ := bind_ok_iff.mp hstep
    obtain ⟨rfl, rfl⟩ := Prod.mk.inj (Except.ok.inj heq)
    rw [List.append_nil]
    exact (h.resolve hr).1
  | closeGame w m =>
    obtain ⟨g', hc, heq⟩ := bind_ok_iff.mp hstep
    obtain ⟨rfl, rfl⟩ := Prod.mk.inj (Except.ok.inj heq)
    obtain ⟨_, -, hc⟩ := bind_ok_iff.mp hc
    rw [List.append_nil]
    exact h.close hsound hc
  | claimCredit w m recipient =>
    obtain ⟨⟨g', amount⟩, hc, heq⟩ := bind_ok_iff.mp hstep
    obtain ⟨rfl, rfl⟩ := Prod.mk.inj (Except.ok.inj heq)
    obtain ⟨-, closed, hclosed, hcredit, h0, -, hg⟩ := claimCredit_ok_iff.mp hc
    rw [← hg]
    exact (h.close hsound hclosed).pay hcredit h0
  | donate amount =>
    obtain ⟨hgame, rfl⟩ := Prod.mk.inj (Except.ok.inj hstep)
    have hbal := h.conserved
    rw [← hgame]
    refine ⟨h.initialized, h.inProgress, h.unchallengeable, ?_,
      fun hr hm => Nat.le_trans (h.normal hr hm) (Nat.le_add_right _ _),
      fun hm => Nat.le_trans (h.refund hm) (Nat.le_add_right _ _), fun hu a => ?_,
      fun hm a => ?_, fun a => ?_⟩
    · simp
      omega
    · simpa using h.unpaid hu a
    · simpa using h.owed hm a
    · simpa using h.paidOnce a

end OpSuccinct.FaultGame
