import OpSuccinct.FaultGameSteps

/-! # Resolution and late proofs

`resolve` marks the claim `Resolved`, the final proposal status.  `challenge` and
`resolve` look at the proposal status or the game status before they write;
`prove` only asks `gameOver()`, which a game resolved early because its parent
lost does not satisfy.  A proof that arrives then (`LateProof`) rewrites the
claim data of a resolved game.  It is the only call that does: in every run
without late proofs the claim is `Resolved` exactly when the game is resolved,
and nothing changes afterwards (`resolution_terminal`).
-/
namespace OpSuccinct.FaultGame

open Transition

/-- **A late proof**: a `prove` call with a proof the verifier accepts, on a game
that is resolved but whose `gameOver()` is still false. -/
def LateProof (im : Immutables) (args : Bytes) (g : Game) : Op → Prop
  | .prove w m proofBytes =>
    g.status ≠ .inProgress ∧ gameOver m g = false ∧ proofAccepted im args w m g proofBytes = true
  | _ => False

/-- A step that is no late proof. -/
def TimelyStep (im : Immutables) (args : Bytes) (g : Game) (op : Op) (g' : Game) : Prop :=
  GameStep im args g op g' ∧ ¬ LateProof im args g op

/-- The proposal status and the game status agree on whether the game is resolved. -/
def Settled (g : Game) : Prop := g.claimData.status = .resolved ↔ g.status ≠ .inProgress

/-- **Resolution is terminal at `g`**: the two statuses agree, and no single call
on a resolved game changes the outcome, its time or the claim. -/
def TerminalAt (im : Immutables) (args : Bytes) (g : Game) : Prop :=
  Settled g ∧ (g.status ≠ .inProgress → ∀ op g', GameStep im args g op g' →
    g'.status = g.status ∧ g'.resolvedAt = g.resolvedAt ∧ g'.claimData = g.claimData)

variable {im : Immutables} {args : Bytes} {g g' : Game} {op : Op}

theorem Created.settled {w : World} {m : Msg} (hc : Created im args w m g) :
    g.initialized = true ∧ Settled g := by
  obtain ⟨balance, hi⟩ := hc
  obtain ⟨-, -, -, -, start, -, -, -, -, rfl⟩ := initializeGame_ok_iff.mp hi
  exact ⟨rfl, by simp [Settled, Game.fresh]⟩

/-- An accepted proof is late, or comes while the game is in progress. -/
theorem prove_status {w : World} {m : Msg} {proofBytes : Bytes}
    (hstep : TimelyStep im args g (.prove w m proofBytes) g') : g.status = .inProgress := by
  obtain ⟨hprove, hlate⟩ := hstep
  obtain ⟨-, hover, hproof, -⟩ := prove_ok_iff.mp (gameStep_prove.mp hprove)
  by_contra hs
  exact hlate ⟨hs, hover, hproof⟩

/-- A proof never leaves the claim `Resolved`. -/
theorem prove_unsettles {w : World} {m : Msg} {proofBytes : Bytes}
    (h : prove im args w m g proofBytes = .ok g') :
    g'.claimData.status ≠ .resolved ∧ g'.status = g.status := by
  obtain ⟨-, -, -, rfl⟩ := prove_ok_iff.mp h
  refine ⟨?_, rfl⟩
  by_cases hc : g.claimData.counteredBy = zeroAddress
  · simp [hc]
  · simp [hc]

/-- **One step other than a late proof** keeps the statuses in agreement. -/
theorem TimelyStep.settled (hstep : TimelyStep im args g op g') (hi : g.initialized = true)
    (hset : Settled g) : Settled g' := by
  cases hstep.1.change hi with
  | challenge hchallenge =>
    obtain ⟨hun, -, -, -, -, -, rfl⟩ := challenge_ok_iff.mp hchallenge
    have hs : g.status = .inProgress := by
      by_contra hs
      simp [hset.mpr hs] at hun
    simp [Settled, hs]
  | prove hprove =>
    have hs := prove_status hstep
    obtain ⟨hne, heq⟩ := prove_unsettles hprove
    exact iff_of_false hne (not_not_intro (heq.trans hs))
  | resolve hresolve =>
    obtain ⟨-, -, _, -, -, status, credit, hout, rfl⟩ := resolve_ok_iff.mp hresolve
    exact iff_of_true rfl (resolveOutcome_status hout)
  | bonds => exact hset

/-- **One step on a resolved game**: only a late proof rewrites the claim. -/
theorem GameStep.claimData_eq (hcall : GameStep im args g op g') (hi : g.initialized = true)
    (hset : Settled g) (hr : g.status ≠ .inProgress) :
    g'.claimData = g.claimData ↔ ¬ LateProof im args g op := by
  cases hcall.change hi with
  | challenge hchallenge =>
    obtain ⟨hun, -⟩ := challenge_ok_iff.mp hchallenge
    simp [hset.mpr hr] at hun
  | prove hprove =>
    obtain ⟨-, hover, hproof, -⟩ := prove_ok_iff.mp hprove
    refine iff_of_false (fun heq => ?_) (not_not_intro ⟨hr, hover, hproof⟩)
    exact (prove_unsettles hprove).1 (heq ▸ hset.mpr hr)
  | resolve hresolve => exact absurd (resolve_ok_iff.mp hresolve).2.1 hr
  | bonds mode normal refund balance hother =>
    refine iff_of_true rfl fun hlate => ?_
    cases op with
    | prove w m proofBytes => exact hother w m proofBytes rfl
    | _ => exact hlate

/-- Every state of a run without late proofs is initialized and settled. -/
theorem settled_run {g₀ : Game} {tr : List Op} (hrun : Run (TimelyStep im args) g₀ tr g)
    (h₀ : g₀.initialized = true ∧ Settled g₀) : g.initialized = true ∧ Settled g :=
  hrun.invariant (I := fun a => a.initialized = true ∧ Settled a)
    (fun _ _ _ ⟨hi, hset⟩ hstep => ⟨(hstep.1.origin_eq hi).1, hstep.settled hi hset⟩) h₀

/-- **Resolution is terminal in every run without late proofs**: in every state
it reaches the claim is `Resolved` exactly when the game is; once it is, nothing
later changes the winner, the resolution time or the claim data.  The condition
is exact: in such a state, the next call breaks the agreement of the two statuses
if and only if it is a late proof. -/
theorem resolution_terminal {w : World} {m : Msg} {g₀ : Game} {tr : List Op}
    (hc : Created im args w m g₀) (hrun : Run (TimelyStep im args) g₀ tr g) :
    Settled g ∧
    (g.status ≠ .inProgress → ∀ tr' g', Run (TimelyStep im args) g tr' g' →
      g'.status = g.status ∧ g'.resolvedAt = g.resolvedAt ∧ g'.claimData = g.claimData) ∧
    (∀ op g', GameStep im args g op g' → (LateProof im args g op ↔ ¬ Settled g')) := by
  obtain ⟨hi, hset⟩ := settled_run hrun hc.settled
  refine ⟨hset, fun hr tr' g' hrun' => ?_, fun op g' hcall => ⟨fun hlate => ?_, fun hns => ?_⟩⟩
  · refine hrun'.relates (I := fun a => a.initialized = true ∧ Settled a)
      (R := fun a b => a.status ≠ .inProgress →
        b.status = a.status ∧ b.resolvedAt = a.resolvedAt ∧ b.claimData = a.claimData)
      (fun _ _ => ⟨rfl, rfl, rfl⟩) ?_ ?_ ?_ ⟨hi, hset⟩ hr
    · intro a b c hab hbc ha
      obtain ⟨hs, ht, hd⟩ := hab ha
      obtain ⟨hs', ht', hd'⟩ := hbc (hs ▸ ha)
      exact ⟨hs'.trans hs, ht'.trans ht, hd'.trans hd⟩
    · exact fun a op b ha hstep => settled_run (.single hstep) ha
    · intro a op b ⟨ha, hsa⟩ ⟨hcall, hlate⟩ hra
      obtain ⟨hs, ht⟩ := hcall.status_eq hra
      exact ⟨hs, ht, (hcall.claimData_eq ha hsa hra).mpr hlate⟩
  · cases op with
    | prove w m proofBytes =>
      obtain ⟨hne, heq⟩ := prove_unsettles (gameStep_prove.mp hcall)
      exact fun hset' => hne (hset'.mpr (heq ▸ hlate.1))
    | _ => exact hlate.elim
  · by_contra hlate
    exact hns (TimelyStep.settled ⟨hcall, hlate⟩ hi hset)

/-- The example game, resolved at 1010 because its parent lost. -/
def exampleLost : Game :=
  { exampleGame with
    status := .challengerWins
    normalModeCredit := Function.update (fun _ => 0) zeroAddress 4
    claimData := { exampleGame.claimData with status := .resolved }
    resolvedAt := 1010 }

theorem exampleGame_lost : GameStep exampleImmutables exampleArgs exampleGame
    (.resolve (exampleWorld .challengerWins) (exampleMsg 0xB0B (by decide) 0 1010))
      exampleLost := by
  rw [gameStep_resolve, resolve_ok_iff]
  exact ⟨rfl, rfl, _, exampleWorld_parent _, by decide, _, _, rfl, rfl⟩

theorem resolution_terminal_example : Settled exampleLost :=
  (resolution_terminal exampleGame_created (.single ⟨exampleGame_lost, fun h => h.elim⟩)).1

/-- **A late proof reopens the claim**: the example game is resolved at 1010,
before its deadline 1100, and a proof accepted at 1020 changes its claim data. -/
theorem late_proof_reopens :
    Run (GameStep exampleImmutables exampleArgs) exampleGame
      [.resolve (exampleWorld .challengerWins) (exampleMsg 0xB0B (by decide) 0 1010)] exampleLost ∧
    exampleLost.status = .challengerWins ∧ exampleLost.claimData.status = .resolved ∧
    (∃ g', GameStep exampleImmutables exampleArgs exampleLost
        (.prove (exampleWorld .challengerWins) (exampleMsg 0xB0B (by decide) 0 1020) []) g' ∧
      g'.status = .challengerWins ∧
      g'.claimData.status = .unchallengedAndValidProofProvided) ∧
    ¬ TerminalAt exampleImmutables exampleArgs exampleLost := by
  obtain ⟨g', hprove, hs, hd⟩ : ∃ g', GameStep exampleImmutables exampleArgs exampleLost
        (.prove (exampleWorld .challengerWins) (exampleMsg 0xB0B (by decide) 0 1020) []) g' ∧
      g'.status = .challengerWins ∧
      g'.claimData.status = .unchallengedAndValidProofProvided :=
    ⟨_, gameStep_prove.mpr (prove_ok_iff.mpr ⟨rfl, by decide, rfl, rfl⟩), rfl, rfl⟩
  refine ⟨.single exampleGame_lost, rfl, rfl, ⟨g', hprove, hs, hd⟩, fun hterm => ?_⟩
  obtain ⟨-, -, hkept⟩ := hterm.2 (by decide) _ g' hprove
  rw [hkept] at hd
  exact absurd hd (by decide)

end OpSuccinct.FaultGame
