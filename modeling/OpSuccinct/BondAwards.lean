import OpSuccinct.CreditView

/-! # Who is paid what

`Solvent` bounds what a game pays; this module says what each address gets.  When a game is
resolved its whole balance is awarded by the claim data of that moment (`award`), and from then
on the award of an address is what it was paid and what it still has as normal-mode credit.

So in every state of every run, whatever was called in between, the payments an address
received and what a claim transfers to it now add up to its award, or to its deposits when the
bonds are refunded (`payouts`): nobody is paid in part, and no call can take an award away.
-/
namespace OpSuccinct.FaultGame

open Transition

/-! ## Awards -/

/-- **What the rules award an address** of the balance of a game that is resolved for a winner:
everything to the challenger who wins; to the creator who wins everything but the bond of the
challenger, which a prover other than the creator takes. -/
def award (im : Immutables) (args : Bytes) (g : Game) (winner : GameStatus) (a : Address) : Nat :=
  if winner = .challengerWins then
    if a = g.claimData.counteredBy then g.balance else 0
  else if g.claimData.status = .challengedAndValidProofProvided ∧
      g.claimData.prover ≠ gameCreator args then
    if a = gameCreator args then g.balance - im.challengerBond
    else if a = g.claimData.prover then im.challengerBond else 0
  else if a = gameCreator args then g.balance else 0

variable {im : Immutables} {args : Bytes} {w : World} {m : Msg} {g g' : Game}
  {ledger : List Transfer} {a : Address}

/-- What `resolveByClaim` credits, when nobody was credited before. -/
theorem resolveByClaim_award {status : GameStatus} {credit : Address → Nat}
    (h : resolveByClaim im args g = .ok (status, credit)) (hzero : ∀ a, g.normalModeCredit a = 0)
    (a : Address) : credit a = award im args g status a := by
  unfold resolveByClaim at h
  cases hc : g.claimData.status with
  | unchallenged | unchallengedAndValidProofProvided | challenged =>
    simp only [hc, Except.ok.injEq, Prod.mk.injEq] at h
    obtain ⟨rfl, rfl⟩ := h
    simp [award, hc, Function.update_apply, hzero]
  | challengedAndValidProofProvided =>
    simp only [hc] at h
    by_cases hprover : g.claimData.prover = gameCreator args
    · rw [if_pos hprover] at h
      obtain ⟨rfl, rfl⟩ := Prod.mk.inj (Except.ok.inj h)
      simp [award, hprover, Function.update_apply, hzero]
    · rw [if_neg hprover] at h
      simp only [bind_ok_iff, checkedSub_ok_iff, pure_ok_iff, Prod.mk.injEq] at h
      obtain ⟨_, ⟨-, rfl⟩, rfl, rfl⟩ := h
      simp [award, hc, hprover, Function.update_apply, hzero]
  | resolved => simp [hc] at h

/-- **Resolving awards the balance.** -/
theorem resolve_award (h : resolve im args w m g = .ok g') (hzero : ∀ a, g.normalModeCredit a = 0)
    (a : Address) : g'.normalModeCredit a = award im args g g'.status a := by
  obtain ⟨-, -, parent, -, -, status, credit, hout, rfl⟩ := resolve_ok_iff.mp h
  rcases resolveOutcome_cases hout with ⟨-, rfl, rfl⟩ | ⟨-, -, hclaim⟩
  · simp [award, Function.update_apply, hzero]
  · exact resolveByClaim_award hclaim hzero a

/-! ## Awards over a run -/

/-- The winners' credits and payments of a resolved game are what was awarded, unless bonds are
refunded. -/
def Awarded (s : Account) (awards : Address → Nat) : Prop :=
  s.game.bondDistributionMode ≠ .refund →
    ∀ a, s.game.normalModeCredit a + (paymentsTo a s.ledger).sum = awards a

/-- Closing a game moves no ETH and no credit, and a refund stays one. -/
theorem Awarded.close {awards : Address → Nat} {closed : Game} (h : Awarded ⟨g, ledger⟩ awards)
    (hclose : closeGameBody w g = .ok closed) : Awarded ⟨closed, ledger⟩ awards := by
  rcases closeGameBody_ok_iff.mp hclose with ⟨-, rfl⟩ | ⟨hmode, -, rfl⟩
  · exact h
  · exact fun _ a => h (by rw [hmode]; decide) a

/-- **One call** on a resolved game keeps what was awarded. -/
theorem Awarded.step {s s' : Account} {op : Op} {awards : Address → Nat} (h : Awarded s awards)
    (hb : Bonded s.game s.ledger) (hr : s.game.status ≠ .inProgress)
    (hstep : AccountStep im args s op s') : Awarded s' awards := by
  obtain ⟨transfers, hstep, hledger⟩ := hstep
  obtain ⟨g', ledger'⟩ := s'
  obtain rfl : ledger' = s.ledger ++ transfers := hledger
  cases op with
  | initializeGame w m =>
    obtain ⟨_, hi, -⟩ := bind_ok_iff.mp hstep
    exact absurd hb.initialized (by simp [(initializeGame_ok_iff.mp hi).1])
  | challenge w m =>
    obtain ⟨_, hc, -⟩ := bind_ok_iff.mp hstep
    exact absurd (challenge_ok_iff.mp hc).1 (hb.unchallengeable hr)
  | prove w m proofBytes =>
    obtain ⟨_, hp, heq⟩ := bind_ok_iff.mp hstep
    obtain ⟨rfl, rfl⟩ := Prod.mk.inj (Except.ok.inj heq)
    obtain ⟨-, -, -, rfl⟩ := prove_ok_iff.mp hp
    rw [List.append_nil]
    exact h
  | resolve w m =>
    obtain ⟨_, hres, -⟩ := bind_ok_iff.mp hstep
    exact absurd (resolve_ok_iff.mp hres).2.1 hr
  | closeGame w m =>
    obtain ⟨_, hc, heq⟩ := bind_ok_iff.mp hstep
    obtain ⟨rfl, rfl⟩ := Prod.mk.inj (Except.ok.inj heq)
    obtain ⟨_, -, hclose⟩ := bind_ok_iff.mp hc
    rw [List.append_nil]
    exact h.close hclose
  | claimCredit w m recipient =>
    obtain ⟨⟨_, amount⟩, hc, heq⟩ := bind_ok_iff.mp hstep
    obtain ⟨rfl, rfl⟩ := Prod.mk.inj (Except.ok.inj heq)
    obtain ⟨-, closed, hclose, hcredit, -, -, rfl⟩ := claimCredit_ok_iff.mp hc
    intro hmode a
    have hclosed := h.close hclose hmode a
    rcases recipientCredit_ok_iff.mp hcredit with ⟨hrefund, -⟩ | ⟨-, rfl⟩
    · exact absurd hrefund hmode
    · by_cases ha : a = recipient
      · subst ha
        simp only [Function.update_self, paymentsTo_append, List.sum_append]
        simp at hclosed ⊢
        omega
      · simpa [ha, Ne.symm ha] using hclosed
  | donate amount =>
    obtain ⟨rfl, rfl⟩ := Prod.mk.inj (Except.ok.inj hstep)
    intro hmode a
    simpa using h hmode a

/-- The account is reached by calls on which the registry was sound. -/
def Reached (im : Immutables) (args : Bytes) (s₀ s : Account) : Prop :=
  ∃ tr saved, Run (FrameStep (AccountStep im args)) ⟨s₀, []⟩ tr ⟨s, saved⟩ ∧
    ∀ op, .call op ∈ tr → op.RegistrySound

theorem Reached.refl {s : Account} : Reached im args s s := ⟨[], [], .nil, by simp⟩

theorem Reached.snoc {s₀ s s' : Account} {op : Op} (h : Reached im args s₀ s)
    (hsound : op.RegistrySound) (hstep : AccountStep im args s op s') :
    Reached im args s₀ s' := by
  obtain ⟨tr, saved, hrun, hops⟩ := h
  refine ⟨tr ++ [.call op], saved, hrun.snoc (.call _ _ _ _ hstep), fun op' hop' => ?_⟩
  rcases List.mem_append.mp hop' with hop' | hop'
  · exact hops op' hop'
  · cases List.mem_singleton.mp hop'
    exact hsound

/-- **How a game was resolved**: from a state in progress, in which all ETH that had come in was
still held.  What happened since began in the state that `resolve` left. -/
structure ResolvedFrom (im : Immutables) (args : Bytes) (s₀ before s : Account) : Prop where
  reached : Reached im args s₀ before
  inProgress : before.game.status = .inProgress
  held : before.game.balance = received before.ledger
  resolved : ∃ w m g', resolve im args w m before.game = .ok g' ∧
    Reached im args ⟨g', before.ledger⟩ s ∧ s.game.status = g'.status
  awarded : Awarded s (award im args before.game s.game.status)

/-- What holds of every account of a run. -/
structure Paying (im : Immutables) (args : Bytes) (s₀ s : Account) : Prop where
  bonded : Bonded s.game s.ledger
  reached : Reached im args s₀ s
  resolved : s.game.status ≠ .inProgress → ∃ before, ResolvedFrom im args s₀ before s

/-- Nothing is paid out of a game in progress. -/
theorem Bonded.held (h : Bonded g ledger) (hs : g.status = .inProgress) :
    g.balance = received ledger := by
  have hunpaid := h.unpaid (h.inProgress hs).1
  have hpaid : paid ledger = 0 := by
    rw [paid, List.sum_eq_zero_iff]
    intro n hn
    obtain ⟨t, ht, rfl⟩ := List.mem_map.mp hn
    cases t with
    | payment recipient amount =>
      have hmem : amount ∈ paymentsTo recipient ledger :=
        List.mem_filterMap.mpr ⟨_, ht, by simp⟩
      rw [hunpaid recipient] at hmem
      cases hmem
    | deposit depositor amount => rfl
    | donation amount => rfl
  have hconserved := h.conserved
  omega

theorem Paying.step {s₀ s s' : Account} {op : Op} (h : Paying im args s₀ s)
    (hsound : op.RegistrySound) (hstep : AccountStep im args s op s') : Paying im args s₀ s' := by
  refine ⟨h.bonded.step hsound hstep, h.reached.snoc hsound hstep, fun hr => ?_⟩
  by_cases hs : s.game.status = .inProgress
  · -- the call is the one that resolves the game
    have hheld := h.bonded.held hs
    obtain ⟨transfers, hcall, hledger⟩ := hstep
    rcases GameStep.status_cases ⟨transfers, hcall⟩ with ⟨heq, -⟩ | ⟨w, m, rfl, hres⟩
    · exact absurd (heq.trans hs) hr
    · obtain ⟨_, -, heq⟩ := bind_ok_iff.mp hcall
      obtain ⟨-, rfl⟩ := Prod.mk.inj (Except.ok.inj heq)
      rw [List.append_nil] at hledger
      have hafter : Reached im args ⟨s'.game, s.ledger⟩ s' := by
        rw [← hledger]
        exact .refl
      refine ⟨s, h.reached, hs, hheld, ⟨w, m, _, hres, hafter, rfl⟩, fun _ a => ?_⟩
      obtain ⟨hmode, hzero⟩ := h.bonded.inProgress hs
      rw [hledger, h.bonded.unpaid hmode a, resolve_award hres hzero a]
      rfl
  · obtain ⟨before, hfrom⟩ := h.resolved hs
    have hstatus : s'.game.status = s.game.status := by
      obtain ⟨transfers, hcall, -⟩ := hstep
      exact (GameStep.status_eq ⟨transfers, hcall⟩ hs).1
    obtain ⟨w, m, g', hres, hafter, hwinner⟩ := hfrom.resolved
    exact ⟨before, hfrom.reached, hfrom.inProgress, hfrom.held,
      ⟨w, m, g', hres, hafter.snoc hsound hstep, hstatus.trans hwinner⟩,
      hstatus ▸ hfrom.awarded.step h.bonded hs hstep⟩

theorem CreatedAccount.paying {w₀ : World} {m₀ : Msg} {s₀ : Account}
    (hc : CreatedAccount im args w₀ m₀ s₀) : Paying im args s₀ s₀ := by
  refine ⟨hc.bonded, .refl, fun hr => ?_⟩
  obtain ⟨balance, hinit, -⟩ := hc
  obtain ⟨-, -, -, -, start, -, -, -, -, hg⟩ := initializeGame_ok_iff.mp hinit
  rw [← hg] at hr
  exact absurd rfl hr

/-! ## Payouts -/

/-- What an address was paid, with what a claim for it transfers now. -/
def payout (w : World) (m : Msg) (s : Account) (a : Address) : Nat :=
  (paymentsTo a s.ledger).sum + (transferred (claimCredit w m s.game a)).getD 0

/-- The registry has the bonds refunded: it did when the game was closed, or does when it is
closed now. -/
def Refunds (w : World) (g : Game) : Prop :=
  g.bondDistributionMode = .refund ∨
    g.bondDistributionMode = .undecided ∧ w.isGameProper g = false

/-- A closed game refunds exactly if the registry has its bonds refunded. -/
theorem closed_refund_iff {closed : Game} (hclose : closeGameBody w g = .ok closed) :
    closed.bondDistributionMode = .refund ↔ Refunds w g := by
  rcases closeGameBody_ok_iff.mp hclose with ⟨hmode, rfl⟩ | ⟨hmode, -, rfl⟩
  · simp [Refunds, hmode]
  · by_cases hproper : w.isGameProper g = true
    · simp [Refunds, hmode, hproper]
    · simp [Refunds, hmode, hproper]

/-- **Payouts.**  In every state of every run of a game that is resolved and finalized, inside
every nesting of calls, the payments an address received and what a claim for it transfers now
add up to its deposits, if the bonds are refunded, and else to its award: of the balance that
was held when the game was resolved, which is all the ETH that had come in, by the claim data
of that moment.  All that happened since began in the state that `resolve` left. -/
theorem payouts {w₀ : World} {m₀ : Msg} {s₀ : Account} {s : Frames Account}
    {tr : List (FrameOp Op)} (hc : CreatedAccount im args w₀ m₀ s₀)
    (hrun : Run (FrameStep (AccountStep im args)) ⟨s₀, []⟩ tr s)
    (hops : ∀ op, .call op ∈ tr → op.RegistrySound) (hw : w.RegistrySound)
    (hfinal : w.isGameFinalized s.current.game = true) (hvalue : m.value = 0) :
    ∃ before, ResolvedFrom im args s₀ before s.current ∧
      ∀ a, (Refunds w s.current.game → payout w m s.current a = deposited a s.current.ledger) ∧
        (¬ Refunds w s.current.game →
          payout w m s.current a = award im args before.game s.current.game.status a) := by
  have hpaying : s.All (Paying im args s₀) :=
    Frames.invariant (P := Op.RegistrySound) (fun _ _ _ ha hl hstep => ha.step hl hstep) hrun hops
      ⟨hc.paying, by simp⟩
  obtain ⟨hbonded, -, hresolved⟩ := hpaying.1
  obtain ⟨before, hfrom⟩ := hresolved (hw _ hfinal)
  refine ⟨before, hfrom, fun a => ?_⟩
  obtain ⟨closed, hclose, hcredit⟩ := closed_of_finalized hfinal a
  have hpayout : payout w m s.current a =
      (paymentsTo a s.current.ledger).sum + credit closed a := by
    rw [payout, hbonded.transferred_eq hw hvalue hclose hcredit]
    rfl
  have hrefund := closed_refund_iff hclose
  have hclosed := hbonded.close hw hclose
  refine ⟨fun h => ?_, fun h => ?_⟩
  · have hmode := hrefund.mpr h
    rw [hpayout, credit, if_pos hmode, Nat.add_comm]
    exact hclosed.owed (by rw [hmode]; decide) a
  · have hmode := mt hrefund.mp h
    rw [hpayout, credit, if_neg hmode, Nat.add_comm]
    exact hfrom.awarded.close hclose hmode a

/-! ### A challenge that is not answered -/

/-- The calls of the example. -/
def exampleUnansweredOps : List (FrameOp Op) :=
  [.call (.challenge (exampleWorld .inProgress) exampleChallenge),
    .call (.resolve (exampleWorld .defenderWins) (exampleCall 1251))]

theorem exampleUnanswered_reached :
    Run (FrameStep (AccountStep exampleImmutables exampleArgs)) ⟨⟨exampleGame, exampleLedger⟩, []⟩
      exampleUnansweredOps ⟨⟨exampleUnanswered, exampleLedger ++ [.deposit 0xB0B 5]⟩, []⟩ :=
  .cons (.call _ _ _ _ exampleAccount_challenged)
    (.single (.call _ _ _ _ exampleAccount_unanswered))

/-- The challenger is paid both bonds. -/
theorem payouts_example :
    payout (exampleWorld .defenderWins) (exampleCall 2000)
      ⟨exampleUnanswered, exampleLedger ++ [.deposit 0xB0B 5]⟩ 0xB0B = 9 := by
  obtain ⟨before, hfrom, hpayout⟩ := payouts exampleAccount_created exampleUnanswered_reached
    (by simp [exampleUnansweredOps, Op.RegistrySound])
    (by simp [World.RegistrySound, exampleWorld] : (exampleWorld .defenderWins).RegistrySound)
    rfl (rfl : (exampleCall 2000).value = 0)
  have haward := (hpayout 0xB0B).2 (by simp [Refunds, exampleUnanswered, exampleChallenged,
    exampleGame, exampleWorld])
  exact haward.trans (hfrom.awarded (by decide) 0xB0B).symm

end OpSuccinct.FaultGame
