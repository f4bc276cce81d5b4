import OpSuccinct.CallFrames
import OpSuccinct.FaultGameOutcome

/-! # The windows of a game

A game may be challenged for `MAX_CHALLENGE_DURATION` after its creation, and proven for
`MAX_PROVE_DURATION` after a challenge.  The end of each window is a checked sum of 256
bits, but the deadline that is stored keeps its low 64 bits only.  A window that ends past
them is over as soon as it begins; every other one is as long as configured
(`window_full_iff`).  So the windows are full in every state of a run exactly if every end
that is stored in it fits (`full_windows_iff`).
-/
namespace OpSuccinct.FaultGame

open Transition

/-! ## The clock of a game -/

/-- A game with the time of its accepted challenge, which the storage does not keep. -/
structure Clocked where
  game : Game
  challengedAt : Option Nat

/-- One accepted call, which leaves its time if it is a challenge. -/
def ClockedStep (im : Immutables) (args : Bytes) (s : Clocked) (op : Op) (s' : Clocked) : Prop :=
  GameStep im args s.game op s'.game ∧ s'.challengedAt = op.challengedAt.or s.challengedAt

/-- **The windows are full**: while the game is not proven it is not over, up to and
including the end of the challenge window, which starts at the creation, and after a
challenge up to and including the end of the prove window. -/
structure FullWindows (im : Immutables) (createdAt : Nat) (s : Clocked) : Prop where
  challenge : s.challengedAt = none → s.game.claimData.prover = zeroAddress → ∀ m : Msg,
    createdAt ≤ m.timestamp → m.timestamp ≤ createdAt + im.maxChallengeDuration.toNat →
    m.timestamp < 2 ^ 64 → gameOver m s.game = false
  prove : ∀ t, s.challengedAt = some t → s.game.claimData.prover = zeroAddress → ∀ m : Msg,
    t ≤ m.timestamp → m.timestamp ≤ t + im.maxProveDuration.toNat →
    m.timestamp < 2 ^ 64 → gameOver m s.game = false

variable {im : Immutables} {args : Bytes} {w : World} {m : Msg} {g g' : Game} {op : Op}
  {createdAt start : Nat} {duration : UInt64} {s s' : Clocked}

/-! ## One window -/

theorem not_gameOver_iff (hprover : g.claimData.prover = zeroAddress) :
    gameOver m g = false ↔ toUint64 m.timestamp ≤ g.claimData.deadline := by
  rw [← Bool.not_eq_true, gameOver_iff, hprover]
  simp

/-- **A window that fits is full.** -/
theorem gameOver_of_fits (hdeadline : g.claimData.deadline = toUint64 (start + duration.toNat))
    (hfits : start + duration.toNat < 2 ^ 64) (hprover : g.claimData.prover = zeroAddress)
    (hwithin : m.timestamp ≤ start + duration.toNat) : gameOver m g = false := by
  rw [not_gameOver_iff hprover, hdeadline, toUint64_of_lt hfits,
    toUint64_of_lt (Nat.lt_of_le_of_lt hwithin hfits)]
  exact hwithin

/-- **Any other window is over at its start.** -/
theorem gameOver_of_not_fits (hdeadline : g.claimData.deadline = toUint64 (start + duration.toNat))
    (hover : 2 ^ 64 ≤ start + duration.toNat) (htime : m.timestamp = start)
    (hstart : start < 2 ^ 64) : gameOver m g = true := by
  have hduration : duration.toNat < 2 ^ 64 := duration.toNat_lt
  have htruncated : toUint64 (start + duration.toNat) = start + duration.toNat - 2 ^ 64 := by
    unfold toUint64
    omega
  rw [gameOver_iff, hdeadline, htruncated, htime, toUint64_of_lt hstart]
  exact .inl (by omega)

/-- The stored deadline keeps the whole window exactly if the sum fits. -/
theorem window_full_iff (hdeadline : g.claimData.deadline = toUint64 (start + duration.toNat))
    (hprover : g.claimData.prover = zeroAddress) (htime : m.timestamp = start)
    (hstart : start < 2 ^ 64) :
    (∀ m : Msg, start ≤ m.timestamp → m.timestamp ≤ start + duration.toNat →
      m.timestamp < 2 ^ 64 → gameOver m g = false) ↔ start + duration.toNat < 2 ^ 64 := by
  constructor
  · intro hfull
    by_contra hover
    have hnot := hfull m (Nat.le_of_eq htime.symm) (by omega) (htime.symm ▸ hstart)
    rw [gameOver_of_not_fits hdeadline (Nat.not_lt.mp hover) htime hstart] at hnot
    cases hnot
  · intro hfits m _ hwithin _
    exact gameOver_of_fits hdeadline hfits hprover hwithin

/-! ## What a call stores -/

/-- **Only a challenge moves the deadline** of an initialized game. -/
theorem GameStep.deadline_eq (h : GameStep im args g op g') (hi : g.initialized = true)
    (hop : op.challengedAt = none) : g'.claimData.deadline = g.claimData.deadline := by
  cases h.change hi with
  | challenge => cases hop
  | prove hprove =>
    obtain ⟨-, -, -, rfl⟩ := prove_ok_iff.mp hprove
    rfl
  | resolve hresolve =>
    obtain ⟨-, -, _, -, -, _, _, -, rfl⟩ := resolve_ok_iff.mp hresolve
    rfl
  | bonds => rfl

/-- A challenge stores the end of the prove window, on a game nobody has proven. -/
theorem challenge_deadline (h : challenge im w m g = .ok g') :
    g'.claimData.deadline = toUint64 (m.timestamp + im.maxProveDuration.toNat) ∧
      g'.claimData.prover = zeroAddress := by
  obtain ⟨-, -, hover, -, -, -, rfl⟩ := challenge_ok_iff.mp h
  have hprover : g.claimData.prover = zeroAddress := by
    by_contra hproven
    rw [gameOver_iff.mpr (.inr hproven)] at hover
    cases hover
  exact ⟨rfl, hprover⟩

theorem challengedAt_eq_some {t : Nat} (h : op.challengedAt = some t) :
    ∃ w m, op = .challenge w m ∧ m.timestamp = t := by
  cases op with
  | challenge w m => exact ⟨w, m, rfl, Option.some.inj h⟩
  | _ => cases h

/-- **The stored deadline** is the end of the current window, as far as it is kept. -/
structure Deadlines (im : Immutables) (createdAt : Nat) (s : Clocked) : Prop where
  initialized : s.game.initialized = true
  unchallenged : s.challengedAt = none →
    s.game.claimData.deadline = toUint64 (createdAt + im.maxChallengeDuration.toNat)
  challenged : ∀ t, s.challengedAt = some t →
    s.game.claimData.deadline = toUint64 (t + im.maxProveDuration.toNat)

theorem Created.deadlines (hc : Created im args w m g) : Deadlines im m.timestamp ⟨g, none⟩ := by
  obtain ⟨balance, hi⟩ := hc
  obtain ⟨-, -, -, -, start, -, -, -, -, rfl⟩ := initializeGame_ok_iff.mp hi
  exact ⟨rfl, fun _ => rfl, nofun⟩

theorem Created.prover (hc : Created im args w m g) : g.claimData.prover = zeroAddress := by
  obtain ⟨balance, hi⟩ := hc
  obtain ⟨-, -, -, -, start, -, -, -, -, rfl⟩ := initializeGame_ok_iff.mp hi
  rfl

theorem Deadlines.step (h : Deadlines im createdAt s) (hstep : ClockedStep im args s op s') :
    Deadlines im createdAt s' := by
  obtain ⟨hgame, hclock⟩ := hstep
  have hi := (hgame.origin_eq h.initialized).1
  cases hop : op.challengedAt with
  | none =>
    rw [hop, Option.none_or] at hclock
    have hsame := hgame.deadline_eq h.initialized hop
    exact ⟨hi, fun hnone => hsame.trans (h.unchallenged (hclock ▸ hnone)),
      fun t ht => hsame.trans (h.challenged t (hclock ▸ ht))⟩
  | some t =>
    rw [hop, Option.some_or] at hclock
    obtain ⟨w, m, rfl, rfl⟩ := challengedAt_eq_some hop
    have hdeadline := (challenge_deadline (gameStep_challenge.mp hgame)).1
    refine ⟨hi, fun hnone => ?_, fun t ht => ?_⟩
    · rw [hclock] at hnone
      cases hnone
    · rw [hclock] at ht
      obtain rfl := Option.some.inj ht
      exact hdeadline

/-! ## Full windows -/

/-- A challenge whose window fits. -/
def Op.Fits (im : Immutables) (op : Op) : Prop :=
  ∀ t, op.challengedAt = some t → t + im.maxProveDuration.toNat < 2 ^ 64

/-- **The windows are full** in a state whose windows fit. -/
theorem Deadlines.fullWindows (h : Deadlines im createdAt s)
    (hcreated : createdAt + im.maxChallengeDuration.toNat < 2 ^ 64)
    (hchallenged : ∀ t, s.challengedAt = some t → t + im.maxProveDuration.toNat < 2 ^ 64) :
    FullWindows im createdAt s where
  challenge hnone hprover _ _ hwithin _ :=
    gameOver_of_fits (h.unchallenged hnone) hcreated hprover hwithin
  prove t ht hprover _ _ hwithin _ :=
    gameOver_of_fits (h.challenged t ht) (hchallenged t ht) hprover hwithin

/-- What holds of every state, inside every nesting of calls, if the challenges fit. -/
theorem deadlines_run {s₀ s : Frames Clocked} {tr : List (FrameOp Op)}
    (hrun : Run (FrameStep (ClockedStep im args)) s₀ tr s)
    (hops : ∀ op, .call op ∈ tr → op.Fits im) (h₀ : s₀.saved = [])
    (hcurrent : Deadlines im createdAt s₀.current) (hnone : s₀.current.challengedAt = none) :
    Deadlines im createdAt s.current ∧
      ∀ t, s.current.challengedAt = some t → t + im.maxProveDuration.toNat < 2 ^ 64 := by
  refine (Frames.invariant (I := fun a => Deadlines im createdAt a ∧
      ∀ t, a.challengedAt = some t → t + im.maxProveDuration.toNat < 2 ^ 64)
    (P := Op.Fits im) ?_ hrun hops ⟨⟨hcurrent, fun t ht => ?_⟩, by simp [h₀]⟩).1
  · rintro a op b ⟨hdeadlines, hfits⟩ hop hstep
    refine ⟨hdeadlines.step hstep, fun t ht => ?_⟩
    rw [hstep.2] at ht
    rcases Option.or_eq_some_iff.mp ht with ht | ⟨-, ht⟩
    · exact hop t ht
    · exact hfits t ht
  · rw [hnone] at ht
    cases ht

/-- **Full windows.**  For all durations, the windows are full in every state of a run, also
inside calls and where these revert, exactly if the end of the challenge window and the end
of the prove window of every accepted challenge fit the `uint64`s. -/
theorem full_windows_iff {w₀ : World} {m₀ : Msg} {g₀ : Game} {s : Frames Clocked}
    {tr : List (FrameOp Op)} (hc : Created im args w₀ m₀ g₀) (htime : m₀.timestamp < 2 ^ 64)
    (hrun : Run (FrameStep (ClockedStep im args)) ⟨⟨g₀, none⟩, []⟩ tr s)
    (htimes : ∀ op, .call op ∈ tr → ∀ t, op.challengedAt = some t → t < 2 ^ 64) :
    (∀ before after state, tr = before ++ after →
        Run (FrameStep (ClockedStep im args)) ⟨⟨g₀, none⟩, []⟩ before state →
        Run (FrameStep (ClockedStep im args)) state after s →
        FullWindows im m₀.timestamp state.current) ↔
      m₀.timestamp + im.maxChallengeDuration.toNat < 2 ^ 64 ∧
        ∀ op, .call op ∈ tr → op.Fits im := by
  constructor
  · intro hfull
    refine ⟨?_, fun op hop t ht => ?_⟩
    · -- The window of the created game is full before the first call.
      exact (window_full_iff (hc.deadlines.unchallenged rfl) hc.prover rfl htime).mp
        ((hfull [] tr _ rfl .nil hrun).challenge rfl hc.prover)
    · -- The prove window is full after the challenge.
      obtain ⟨w, m, rfl, rfl⟩ := challengedAt_eq_some ht
      obtain ⟨before, after, rfl⟩ := List.append_of_mem hop
      obtain ⟨a, b, ha, hstep, hb⟩ := hrun.of_append_cons
      have hsplit := hfull (before ++ [.call (.challenge w m)]) after b (by simp)
        (ha.snoc hstep) hb
      cases hstep with
      | call a b saved op hab =>
        obtain ⟨hgame, hclock⟩ := hab
        obtain ⟨hdeadline, hprover⟩ := challenge_deadline (gameStep_challenge.mp hgame)
        exact (window_full_iff hdeadline hprover rfl (htimes _ hop _ rfl)).mp
          (hsplit.prove _ hclock hprover)
  · rintro ⟨hcreated, hops⟩ before after state rfl hbefore -
    obtain ⟨hdeadlines, hchallenged⟩ := deadlines_run hbefore
      (fun op hop => hops op (List.mem_append_left _ hop)) rfl hc.deadlines rfl
    exact hdeadlines.fullWindows hcreated hchallenged

theorem full_windows_example :
    FullWindows exampleImmutables 1000 ⟨exampleChallenged, some 1050⟩ := by
  have hrun : Run (FrameStep (ClockedStep exampleImmutables exampleArgs))
      ⟨⟨exampleGame, none⟩, []⟩ [.call (.challenge (exampleWorld .inProgress) exampleChallenge)]
      ⟨⟨exampleChallenged, some 1050⟩, []⟩ :=
    .single (.call _ _ _ _ ⟨exampleGame_challenged, rfl⟩)
  have hops : ∀ op : Op, .call op ∈ [FrameOp.call (Op.challenge (exampleWorld .inProgress)
      exampleChallenge)] → ∀ t, op.challengedAt = some t → t = 1050 := by
    intro op hop t ht
    obtain rfl := FrameOp.call.inj (List.mem_singleton.mp hop)
    exact (Option.some.inj ht).symm
  refine (full_windows_iff exampleGame_created (by decide) hrun fun op hop t ht => ?_).mpr
    ⟨by decide, fun op hop t ht => ?_⟩ _ [] _ (List.append_nil _).symm hrun .nil
  · rw [hops op hop t ht]
    decide
  · rw [hops op hop t ht]
    decide

/-! ### A window that ends past the last timestamp -/

def exampleLongWindow : Immutables :=
  { exampleImmutables with maxChallengeDuration := 18446744073709551615 }

/-- The example game, with the deadline that is stored. -/
def exampleShort : Game :=
  { exampleGame with claimData := { exampleGame.claimData with deadline := 999 } }

theorem exampleShort_created :
    Created exampleLongWindow exampleArgs (exampleWorld .inProgress) exampleCreation
      exampleShort := by
  have hstart : startingRoot exampleLongWindow exampleArgs (exampleWorld .inProgress) =
      .ok ⟨0x9007, 10⟩ := by
    simp [startingRoot, exampleArgs_parentIndex, noParent, exampleWorld, require]
    rfl
  have hblock : l2BlockNumber exampleArgs = 20 := l2BlockNumber_packArgs (by decide)
  have hdeadline : toUint64 (exampleCreation.timestamp +
      exampleLongWindow.maxChallengeDuration.toNat) = 999 := by decide
  have hsum : 1000 + exampleLongWindow.maxChallengeDuration.toNat < 2 ^ 256 :=
    Nat.lt_trans (Nat.add_lt_add_left (UInt64.toNat_lt _) 1000) (by decide)
  refine ⟨0, initializeGame_ok_iff.mpr ⟨rfl, rfl, rfl, calldatasize_packArgs, _, hstart, ?_,
    hsum, by decide, ?_⟩⟩
  · rw [hblock]
    decide
  · rw [hdeadline]
    set_option maxRecDepth 1000 in
    rfl

/-- **The failing input.**  With a challenge window of `2 ^ 64 - 1` seconds the game created
at 1000 is over then, and resolves for its creator without a chance to challenge it. -/
theorem window_over_at_creation :
    Created exampleLongWindow exampleArgs (exampleWorld .inProgress) exampleCreation
        exampleShort ∧
      ¬ FullWindows exampleLongWindow 1000 ⟨exampleShort, none⟩ ∧
      ∃ g', resolve exampleLongWindow exampleArgs (exampleWorld .defenderWins)
          (exampleMsg 0xB0B (by decide) 0 1000) exampleShort = .ok g' ∧
        g'.status = .defenderWins := by
  have hover : gameOver (exampleMsg 0xB0B (by decide) 0 1000) exampleShort = true := by decide
  refine ⟨exampleShort_created, fun hfull => ?_, ?_⟩
  · have hnot := hfull.challenge rfl rfl (exampleMsg 0xB0B (by decide) 0 1000) (Nat.le_refl _)
      (Nat.le_add_right _ _) (by decide)
    rw [hover] at hnot
    cases hnot
  · have hclaim : resolveByClaim exampleLongWindow exampleArgs exampleShort =
        .ok (.defenderWins, Function.update exampleShort.normalModeCredit
          (gameCreator exampleArgs) exampleShort.balance) := rfl
    have hout : resolveOutcome exampleLongWindow exampleArgs (exampleMsg 0xB0B (by decide) 0 1000)
        exampleShort .defenderWins = .ok (.defenderWins, Function.update
          exampleShort.normalModeCredit (gameCreator exampleArgs) exampleShort.balance) := by
      simpa [resolveOutcome, bind_ok_iff, hclaim] using hover
    exact resolve_ok_of_outcome rfl rfl (exampleWorld_parent .defenderWins) (by decide) hout

end OpSuccinct.FaultGame
