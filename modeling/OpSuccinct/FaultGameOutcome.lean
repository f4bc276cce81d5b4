import OpSuccinct.FaultGameSteps

/-! # The outcome of a fault dispute game

What a game's `resolve` answers is a function of the history of accepted calls:
whether and when a challenge was accepted, and whether a proof was.  This module
reads these off the trace of a run (`challengedAt`, `proved`, `deadlineOf`),
shows that the storage of a game in progress agrees with them (`Unresolved`), and
derives the outcome of `resolve` at any moment of any run (`resolve_outcome`).

The calls of a run may come in any order and at any times; the time order of
blocks is not needed.
-/
namespace OpSuccinct.FaultGame

open Transition

/-! ## The history of accepted calls -/

/-- The time of the challenge a call makes. -/
def Op.challengedAt : Op → Option Nat
  | .challenge _ m => some m.timestamp
  | _ => none

def Op.isProof : Op → Bool
  | .prove _ _ _ => true
  | _ => false

/-- The time of the last accepted challenge. -/
def challengedAt (tr : List Op) : Option Nat := (tr.filterMap Op.challengedAt).getLast?

/-- A proof was accepted. -/
def proved (tr : List Op) : Bool := tr.any Op.isProof

/-- **The deadline by the rules of the game**: `MAX_CHALLENGE_DURATION` after the
creation if it was never challenged, else `MAX_PROVE_DURATION` after the
challenge.  The sums are unbounded. -/
def deadlineOf (im : Immutables) (createdAt : Nat) (tr : List Op) : Nat :=
  match challengedAt tr with
  | none => createdAt + im.maxChallengeDuration.toNat
  | some t => t + im.maxProveDuration.toNat

/-- The proposal status by the history, before resolution. -/
def proposalStatusOf : (challenged proved : Bool) → ProposalStatus
  | false, false => .unchallenged
  | true, false => .challenged
  | false, true => .unchallengedAndValidProofProvided
  | true, true => .challengedAndValidProofProvided

/-- No sum of the call's time and a duration leaves the `uint64` range. -/
def MsgInTime (im : Immutables) (m : Msg) : Prop :=
  m.timestamp + im.maxChallengeDuration.toNat < 2 ^ 64 ∧
    m.timestamp + im.maxProveDuration.toNat < 2 ^ 64

def Op.InTime (im : Immutables) : Op → Prop
  | .initializeGame _ m | .challenge _ m | .prove _ m _ | .resolve _ m | .closeGame _ m
  | .claimCredit _ m _ => MsgInTime im m
  | .donate _ => True

section History
variable {im : Immutables} {createdAt : Nat} {tr : List Op} {op : Op}

theorem challengedAt_append (h : op.challengedAt = none) :
    challengedAt (tr ++ [op]) = challengedAt tr := by
  simp [challengedAt, h]

theorem challengedAt_append_challenge {w : World} {m : Msg} :
    challengedAt (tr ++ [.challenge w m]) = some m.timestamp := by
  simp [challengedAt, Op.challengedAt]

theorem proved_append : proved (tr ++ [op]) = (proved tr || op.isProof) := by
  simp [proved]

theorem deadlineOf_append (h : op.challengedAt = none) :
    deadlineOf im createdAt (tr ++ [op]) = deadlineOf im createdAt tr := by
  simp [deadlineOf, challengedAt_append h]

end History

/-! ## The storage agrees with the history -/

variable {im : Immutables} {args : Bytes}

/-- **The invariant of a game in progress**: its claim data are what the history
says, no bond has been distributed, and an accepted challenge's bond is held. -/
structure Unresolved (im : Immutables) (tr : List Op) (g : Game) : Prop where
  mode : g.bondDistributionMode = .undecided
  status : g.claimData.status = proposalStatusOf (challengedAt tr).isSome (proved tr)
  counteredBy : g.claimData.counteredBy = zeroAddress ↔ challengedAt tr = none
  prover : g.claimData.prover = zeroAddress ↔ proved tr = false
  deadline : g.claimData.deadline = deadlineOf im g.createdAt tr
  bond : (challengedAt tr).isSome = true → im.challengerBond ≤ g.balance

/-- What holds of every game a run reaches. -/
structure Played (im : Immutables) (tr : List Op) (g : Game) : Prop where
  initialized : g.initialized = true
  unresolved : g.status = .inProgress → Unresolved im tr g

theorem Created.played {w : World} {m : Msg} {g : Game} (hc : Created im args w m g)
    (hm : MsgInTime im m) : Played im [] g := by
  obtain ⟨balance, hi⟩ := hc
  obtain ⟨-, -, -, -, start, -, -, -, -, rfl⟩ := initializeGame_ok_iff.mp hi
  obtain ⟨hchallenge, -⟩ := hm
  refine ⟨rfl, fun _ => ⟨rfl, rfl, by simp [challengedAt], by simp [proved], ?_, by simp
    [challengedAt]⟩⟩
  have htime : m.timestamp < 2 ^ 64 := by omega
  simp only [deadlineOf, challengedAt, List.filterMap_nil, List.getLast?_nil]
  rw [toUint64_of_lt hchallenge, toUint64_of_lt htime]

/-- A call that neither challenges nor proves, and touches neither the claim nor
the creation time nor the mode nor takes ETH out, keeps the agreement. -/
theorem Unresolved.frame {tr : List Op} {g g' : Game} {op : Op} (h : Unresolved im tr g)
    (hchallenge : op.challengedAt = none) (hproof : op.isProof = false)
    (hclaim : g'.claimData = g.claimData) (hcreated : g'.createdAt = g.createdAt)
    (hmode : g'.bondDistributionMode = g.bondDistributionMode) (hbal : g.balance ≤ g'.balance) :
    Unresolved im (tr ++ [op]) g' where
  mode := hmode.trans h.mode
  status := by rw [hclaim, challengedAt_append hchallenge, proved_append, hproof, Bool.or_false,
    h.status]
  counteredBy := by rw [hclaim, challengedAt_append hchallenge, h.counteredBy]
  prover := by rw [hclaim, proved_append, hproof, Bool.or_false, h.prover]
  deadline := by rw [hclaim, hcreated, deadlineOf_append hchallenge, h.deadline]
  bond hb := Nat.le_trans (h.bond (by rwa [challengedAt_append hchallenge] at hb)) hbal

theorem proposalStatusOf_eq_unchallenged {c p : Bool}
    (h : proposalStatusOf c p = .unchallenged) : c = false ∧ p = false := by
  cases c <;> cases p <;> simp_all [proposalStatusOf]

/-- **One accepted call** keeps the agreement of every game still in progress. -/
theorem Unresolved.step {tr : List Op} {g g' : Game} {op : Op} (h : Unresolved im tr g)
    (hi : g.initialized = true) (hs : g.status = .inProgress)
    (hs' : g'.status = .inProgress) (hstep : GameStep im args g op g') (htime : op.InTime im)
    (hsound : op.RegistrySound) : Unresolved im (tr ++ [op]) g' := by
  cases op with
  | initializeGame w m =>
    obtain ⟨hni, -⟩ := initializeGame_ok_iff.mp (gameStep_initializeGame.mp hstep)
    simp [hi] at hni
  | challenge w m =>
    obtain ⟨hun, -, -, hvalue, -, -, rfl⟩ := challenge_ok_iff.mp (gameStep_challenge.mp hstep)
    obtain ⟨-, hp⟩ := proposalStatusOf_eq_unchallenged (h.status.symm.trans hun)
    have hproof : proved (tr ++ [.challenge w m]) = false := by
      simp [proved_append, hp, Op.isProof]
    refine ⟨h.mode, ?_, ?_, ?_, ?_, ?_⟩
    · simp [challengedAt_append_challenge, hproof, proposalStatusOf]
    · simp [challengedAt_append_challenge, m.sender_ne_zero]
    · simpa [hproof] using h.prover.mpr hp
    · simp only [deadlineOf, challengedAt_append_challenge]
      exact toUint64_of_lt htime.2
    · intro _
      simp only [← hvalue]
      omega
  | prove w m proofBytes =>
    obtain ⟨-, hover, -, rfl⟩ := prove_ok_iff.mp (gameStep_prove.mp hstep)
    have hchallenge : challengedAt (tr ++ [.prove w m proofBytes]) = challengedAt tr :=
      challengedAt_append rfl
    have hproof : proved (tr ++ [.prove w m proofBytes]) = true := by
      simp [proved_append, Op.isProof]
    refine ⟨h.mode, ?_, ?_, ?_, ?_, ?_⟩
    · rw [hchallenge, hproof]
      by_cases hc : g.claimData.counteredBy = zeroAddress
      · simp [hc, h.counteredBy.mp hc, proposalStatusOf]
      · have hsome := Option.isSome_iff_ne_none.mpr (mt h.counteredBy.mpr hc)
        simp [hc, hsome, proposalStatusOf]
    · rw [hchallenge]
      exact h.counteredBy
    · simp [hproof, m.sender_ne_zero]
    · rw [deadlineOf_append rfl]
      exact h.deadline
    · rw [hchallenge]
      exact h.bond
  | resolve w m =>
    obtain ⟨-, -, _, -, -, status, credit, hout, rfl⟩ :=
      resolve_ok_iff.mp (gameStep_resolve.mp hstep)
    exact absurd hs' (resolveOutcome_status hout)
  | closeGame w m =>
    exact absurd (gameStep_closeGame.mp hstep).2 (closeGameBody_inProgress hsound hs h.mode)
  | claimCredit w m recipient =>
    obtain ⟨amount, hclaim⟩ := gameStep_claimCredit.mp hstep
    obtain ⟨-, closed, hclosed, -⟩ := claimCredit_ok_iff.mp hclaim
    exact absurd hclosed (closeGameBody_inProgress hsound hs h.mode)
  | donate amount =>
    obtain rfl := gameStep_donate.mp hstep
    exact h.frame rfl rfl rfl rfl rfl (Nat.le_add_right _ _)

theorem Played.step {tr : List Op} {g g' : Game} {op : Op} (h : Played im tr g)
    (hstep : GameStep im args g op g') (htime : op.InTime im) (hsound : op.RegistrySound) :
    Played im (tr ++ [op]) g' where
  initialized := (hstep.origin_eq h.initialized).1
  unresolved hs' := by
    have hs : g.status = .inProgress := by
      by_contra hr
      exact hr ((hstep.status_eq hr).1.symm.trans hs')
    exact (h.unresolved hs).step h.initialized hs hs' hstep htime hsound

/-- **Every game a run reaches** has been played by the rules. -/
theorem Played.run {w : World} {m : Msg} {g₀ g : Game} {tr : List Op}
    (hc : Created im args w m g₀) (hm : MsgInTime im m) (hrun : Run (GameStep im args) g₀ tr g)
    (hops : ∀ op ∈ tr, op.InTime im ∧ op.RegistrySound) : Played im tr g := by
  refine hrun.traceInvariant (I := fun tr g =>
    (∀ op ∈ tr, op.InTime im ∧ op.RegistrySound) → Played im tr g) ?_ (fun _ => hc.played hm) hops
  intro tr g op g' ih hstep hops
  obtain ⟨htime, hsound⟩ := hops op (by simp)
  exact (ih fun op' hop' => hops op' (by simp [hop'])).step hstep htime hsound

/-! ## What `resolve` answers -/

section Resolve
variable {tr : List Op} {g : Game} {w : World} {m : Msg}

/-- The game is over once it is proven or its deadline has strictly passed. -/
theorem Unresolved.gameOver_iff (h : Unresolved im tr g) (hm : MsgInTime im m) :
    gameOver m g = true ↔ proved tr = true ∨ deadlineOf im g.createdAt tr < m.timestamp := by
  have htime : m.timestamp < 2 ^ 64 := by
    have := hm.1
    omega
  rw [FaultGame.gameOver_iff, h.deadline, toUint64_of_lt htime, ne_eq, h.prover,
    Bool.not_eq_false, or_comm]

/-- The winner by the history, when the parent did not lose. -/
def winnerOf (tr : List Op) : GameStatus :=
  if (challengedAt tr).isSome = true ∧ proved tr = false then .challengerWins else .defenderWins

/-- The status of the claim always decides a winner, and the challenger's bond is
there to be paid out. -/
theorem Unresolved.resolveByClaim_ok (h : Unresolved im tr g) (args : Bytes) :
    ∃ credit, resolveByClaim im args g = .ok (winnerOf tr, credit) := by
  unfold resolveByClaim winnerOf
  rw [h.status]
  cases hc : (challengedAt tr).isSome <;> cases hp : proved tr <;>
    simp only [proposalStatusOf]
  case true.true =>
    have hbond := h.bond hc
    split
    · exact ⟨_, by simp; rfl⟩
    · exact ⟨_, by simp [checkedSub, hbond]; rfl⟩
  all_goals exact ⟨_, by simp; rfl⟩

theorem resolve_ok_of_outcome {parent status : GameStatus} {credit : Address → Nat}
    (hv : m.value = 0) (hs : g.status = .inProgress)
    (hparent : getParentGameStatus args w = .ok parent) (hp : parent ≠ .inProgress)
    (hout : resolveOutcome im args m g parent = .ok (status, credit)) :
    ∃ g', resolve im args w m g = .ok g' ∧ g'.status = status :=
  ⟨_, resolve_ok_iff.mpr ⟨hv, hs, parent, hparent, hp, status, credit, hout, rfl⟩, rfl⟩

theorem Unresolved.resolve_parent_lost (hs : g.status = .inProgress) (hv : m.value = 0)
    (hparent : getParentGameStatus args w = .ok .challengerWins) :
    ∃ g', resolve im args w m g = .ok g' ∧ g'.status = .challengerWins :=
  resolve_ok_of_outcome hv hs hparent (by decide) (by simp [resolveOutcome]; rfl)

theorem Unresolved.resolve_parent_defended (h : Unresolved im tr g) (hm : MsgInTime im m)
    (hs : g.status = .inProgress) (hv : m.value = 0)
    (hparent : getParentGameStatus args w = .ok .defenderWins) :
    ((∃ g', resolve im args w m g = .ok g') ↔
      proved tr = true ∨ deadlineOf im g.createdAt tr < m.timestamp) ∧
    ∀ g', resolve im args w m g = .ok g' → g'.status = winnerOf tr := by
  obtain ⟨credit, hclaim⟩ := h.resolveByClaim_ok args
  have hout : gameOver m g = true →
      resolveOutcome im args m g .defenderWins = .ok (winnerOf tr, credit) := by
    intro hover
    simp [resolveOutcome, bind_ok_iff, hover, hclaim]
  have hinv : ∀ g', resolve im args w m g = .ok g' →
      gameOver m g = true ∧ g'.status = winnerOf tr := by
    intro g' hres
    obtain ⟨-, -, parent, hparent', -, status, credit', hout', rfl⟩ := resolve_ok_iff.mp hres
    obtain rfl : GameStatus.defenderWins = parent := Except.ok.inj (hparent.symm.trans hparent')
    rcases resolveOutcome_cases hout' with ⟨hlost, -⟩ | ⟨-, hover, -⟩
    · exact absurd hlost (by decide)
    · rw [hout hover] at hout'
      exact ⟨hover, (Prod.mk.inj (Except.ok.inj hout')).1.symm⟩
  refine ⟨⟨?_, ?_⟩, fun g' hres => (hinv g' hres).2⟩
  · rintro ⟨g', hres⟩
    exact (h.gameOver_iff hm).mp (hinv g' hres).1
  · intro hdone
    obtain ⟨g', hres, -⟩ :=
      resolve_ok_of_outcome hv hs hparent (by decide) (hout ((h.gameOver_iff hm).mpr hdone))
    exact ⟨g', hres⟩

/-- The reverts of `resolve`: all but the first five are for the claim's status. -/
theorem resolve_error_cases {e : GameError} (h : resolve im args w m g = .error e) :
    e = .nonPayable ∨ e = .claimAlreadyResolved ∨ e = .callReverted ∨
      e = .parentGameNotResolved ∨ e = .gameNotOver ∨
      g.status = .inProgress ∧ resolveByClaim im args g = .error e := by
  rcases bind_error_iff.mp h with h | ⟨_, -, h⟩
  · exact .inl (require_error_iff.mp h).2.symm
  rcases bind_error_iff.mp h with h | ⟨_, hs, h⟩
  · exact .inr (.inl (require_error_iff.mp h).2.symm)
  rcases bind_error_iff.mp h with h | ⟨parent, -, h⟩
  · unfold getParentGameStatus at h
    split at h
    · split at h <;> simp_all
    · simp at h
  rcases bind_error_iff.mp h with h | ⟨_, -, h⟩
  · simp_all
  rcases bind_error_iff.mp h with h | ⟨_, -, h⟩
  · unfold resolveOutcome at h
    split at h
    · simp at h
    · rcases bind_error_iff.mp h with h | ⟨_, -, h⟩
      · simp_all
      · exact .inr (.inr (.inr (.inr (.inr ⟨require_ok_iff.mp hs, h⟩))))
  · simp [pure, Except.pure] at h

/-- No state a run reaches makes `resolve` revert for the claim's status or for a
balance below the challenger's bond. -/
theorem Played.resolve_error (h : Played im tr g) :
    resolve im args w m g ≠ .error .invalidProposalStatus ∧
      resolve im args w m g ≠ .error .arithmetic := by
  have key : ∀ e, resolve im args w m g = .error e →
      e ≠ .invalidProposalStatus ∧ e ≠ .arithmetic := by
    intro e he
    rcases resolve_error_cases he with rfl | rfl | rfl | rfl | rfl | ⟨hs, hclaim⟩
    any_goals decide
    obtain ⟨credit, hok⟩ := (h.unresolved hs).resolveByClaim_ok args
    rw [hok] at hclaim
    cases hclaim
  exact ⟨fun he => (key _ he).1 rfl, fun he => (key _ he).2 rfl⟩

end Resolve

/-- A resolved game ends with the winner it was resolved with. -/
theorem status_permanent {g g' : Game} {tr : List Op} (hr : g.status ≠ .inProgress)
    (hrun : Run (GameStep im args) g tr g') :
    g'.status = g.status ∧ g'.resolvedAt = g.resolvedAt := by
  refine hrun.invariant (I := fun t => t.status = g.status ∧ t.resolvedAt = g.resolvedAt)
    ?_ ⟨rfl, rfl⟩
  rintro a op b ⟨hs, ht⟩ hstep
  obtain ⟨hs', ht'⟩ := hstep.status_eq (hs ▸ hr)
  exact ⟨hs'.trans hs, ht'.trans ht⟩

/-- **The outcome of a game.**  After any run of accepted calls, `resolve`

* never reverts for the claim's status or for lack of the challenger's bond;
* while the game is in progress and its parent lost, answers that the challenger
  wins;
* while the game is in progress and its parent is defended (or it has none),
  succeeds exactly when a proof was accepted or the deadline has strictly passed,
  and then the challenger wins if and only if a challenge and no proof was
  accepted;

and the winner it answers is the winner the game ends with, whatever is called
later. -/
theorem resolve_outcome {w₀ : World} {m₀ : Msg} {g₀ g : Game} {tr : List Op}
    (hc : Created im args w₀ m₀ g₀) (hm₀ : MsgInTime im m₀)
    (hrun : Run (GameStep im args) g₀ tr g)
    (hops : ∀ op ∈ tr, op.InTime im ∧ op.RegistrySound)
    (w : World) (m : Msg) (hm : MsgInTime im m) :
    (resolve im args w m g ≠ .error .invalidProposalStatus ∧
      resolve im args w m g ≠ .error .arithmetic) ∧
    (g.status = .inProgress → m.value = 0 →
      (getParentGameStatus args w = .ok .challengerWins →
        ∃ g', resolve im args w m g = .ok g' ∧ g'.status = .challengerWins) ∧
      (parentIndex args = noParent ∨ getParentGameStatus args w = .ok .defenderWins →
        ((∃ g', resolve im args w m g = .ok g') ↔
          proved tr = true ∨ deadlineOf im g.createdAt tr < m.timestamp) ∧
        ∀ g', resolve im args w m g = .ok g' →
          (g'.status = .challengerWins ↔
            (challengedAt tr).isSome = true ∧ proved tr = false) ∧
          (g'.status = .challengerWins ∨ g'.status = .defenderWins))) ∧
    ∀ g', resolve im args w m g = .ok g' →
      ∀ tr' g'', Run (GameStep im args) g' tr' g'' → g''.status = g'.status := by
  have hplayed : Played im tr g := Played.run hc hm₀ hrun hops
  refine ⟨hplayed.resolve_error, fun hs hv => ⟨Unresolved.resolve_parent_lost hs hv, ?_⟩, ?_⟩
  · intro hparent
    have hdefended : getParentGameStatus args w = .ok .defenderWins := by
      rcases hparent with hroot | hparent
      · simp [getParentGameStatus, hroot]
      · exact hparent
    obtain ⟨hiff, hwinner⟩ :=
      (hplayed.unresolved hs).resolve_parent_defended hm hs hv hdefended
    refine ⟨hiff, fun g' hres => ?_⟩
    rw [hwinner g' hres]
    unfold winnerOf
    split <;> simp_all
  · intro g' hres tr' g'' hrun'
    obtain ⟨-, -, _, -, -, status, credit, hout, rfl⟩ := resolve_ok_iff.mp hres
    exact (status_permanent (resolveOutcome_status hout) hrun').1

/-- A game challenged at 1050 with a proof window of 200 is lost at 1251. -/
theorem resolve_outcome_example :
    ∃ g', resolve exampleImmutables exampleArgs (exampleWorld .defenderWins)
        (exampleMsg 0xB0B (by decide) 0 1251) exampleChallenged = .ok g' ∧
      g'.status = .challengerWins := by
  obtain ⟨-, hresolve, -⟩ := resolve_outcome exampleGame_created ⟨by decide, by decide⟩
    (Run.single exampleGame_challenged)
    (by simp [Op.InTime, Op.RegistrySound, MsgInTime, exampleChallenge, exampleMsg,
      exampleImmutables])
    (exampleWorld .defenderWins) (exampleMsg 0xB0B (by decide) 0 1251) ⟨by decide, by decide⟩
  obtain ⟨hiff, hwinner⟩ := (hresolve rfl rfl).2 (.inr (exampleWorld_parent _))
  obtain ⟨g', hres⟩ := hiff.mpr (.inr (by decide))
  exact ⟨g', hres, (hwinner g' hres).1.mpr ⟨rfl, rfl⟩⟩

end OpSuccinct.FaultGame
