import OpSuccinct.FaultGameSteps

/-! # The access manager

`AccessManager.sol` lets everyone propose once no fault game was created for the fallback
timeout.  It keeps no time of its own: `getLastProposalTimestamp` goes down the factory's
list, which holds games of every type, to the last fault game.  The manager is asked by the
game that is being created, which is not listed yet.

The loop ends at that game, and answers the time of deployment when there is none
(`getLastProposalTimestamp_ok`).  The list is never shortened, so a creator who is not
whitelisted gets a game only after the timeout since every fault game before it and since
the deployment (`fallback_games_gated`).
-/
namespace OpSuccinct.Access

open FaultGame Transition

/-! ## The contract -/

/-- `OP_SUCCINCT_FAULT_DISPUTE_GAME_TYPE`. -/
def opSuccinctFaultDisputeGameType : Nat := 42

/-- A game as `gameAtIndex` answers it, but for its address, which nothing here reads. -/
structure ListedGame where
  gameType : Nat
  timestamp : Nat
  deriving DecidableEq

/-- The storage of the contract, without the challengers, and its immutable values. -/
structure AccessManager where
  owner : Address
  proposers : Address → Bool
  fallbackTimeout : Nat
  deploymentTimestamp : Nat

inductive AccessError
  | callReverted
  | panic
  deriving DecidableEq

/-- `unchecked { --i; }`. -/
def uncheckedDec (i : Nat) : Nat := if i = 0 then 2 ^ 256 - 1 else i - 1

variable (manager : AccessManager) (games : List ListedGame)

/-- `DISPUTE_GAME_FACTORY.gameAtIndex(i)`, which reverts beyond the list. -/
def gameAtIndex (i : Nat) : Except AccessError ListedGame :=
  match games[i]? with
  | some game => .ok game
  | none => .error .callReverted

/-- The loop of `getLastProposalTimestamp`, from index `i` down. -/
def lastProposalFrom (i : Nat) : Except AccessError Nat := do
  let game ← gameAtIndex games i
  if game.gameType = opSuccinctFaultDisputeGameType then
    return game.timestamp
  if i = 0 then
    return manager.deploymentTimestamp
  lastProposalFrom (uncheckedDec i)
termination_by i
decreasing_by
  rw [uncheckedDec, if_neg ‹_›]
  omega

/-- `getLastProposalTimestamp()`. -/
def getLastProposalTimestamp : Except AccessError Nat :=
  if games.length = 0 then pure manager.deploymentTimestamp
  else lastProposalFrom manager games (games.length - 1)

/-- `isAllowedProposer(_proposer)`, in a block of the given time. -/
def isAllowedProposer (timestamp : Nat) (proposer : Address) : Except AccessError Bool := do
  let lastProposalTimestamp ← getLastProposalTimestamp manager games
  if manager.proposers zeroAddress = true ∨ manager.proposers proposer = true then
    return true
  let elapsed ← checkedSub .panic timestamp lastProposalTimestamp
  return decide (manager.fallbackTimeout < elapsed)

/-! ## The last fault game -/

variable {manager : AccessManager} {games : List ListedGame}

/-- **The time of the last proposal** among the games: that of the fault game with the
greatest index, or the time of deployment when there is no fault game. -/
def LastProposal (manager : AccessManager) (games : List ListedGame) (t : Nat) : Prop :=
  (∃ (i : Nat) (game : ListedGame), games[i]? = some game ∧
    game.gameType = opSuccinctFaultDisputeGameType ∧ t = game.timestamp ∧
    ∀ (j : Nat) (later : ListedGame), i < j → games[j]? = some later →
      later.gameType ≠ opSuccinctFaultDisputeGameType) ∨
  (∀ game ∈ games, game.gameType ≠ opSuccinctFaultDisputeGameType) ∧
    t = manager.deploymentTimestamp

theorem gameAtIndex_of_some {i : Nat} {game : ListedGame} (h : games[i]? = some game) :
    gameAtIndex games i = .ok game := by
  rw [gameAtIndex, h]

/-- One round of the loop. -/
theorem lastProposalFrom_of_some {i : Nat} {game : ListedGame} (h : games[i]? = some game) :
    lastProposalFrom manager games i =
      if game.gameType = opSuccinctFaultDisputeGameType then .ok game.timestamp
      else if i = 0 then .ok manager.deploymentTimestamp
      else lastProposalFrom manager games (i - 1) := by
  rw [lastProposalFrom, gameAtIndex_of_some h]
  show (if game.gameType = opSuccinctFaultDisputeGameType then _ else _) = _
  by_cases htype : game.gameType = opSuccinctFaultDisputeGameType
  · rw [if_pos htype, if_pos htype]
    rfl
  · rw [if_neg htype, if_neg htype]
    by_cases hzero : i = 0
    · rw [if_pos hzero, if_pos hzero]
      rfl
    · rw [if_neg hzero, if_neg hzero, uncheckedDec, if_neg hzero]

/-- **The loop ends at the last fault game** up to its index: every index it reads is in the
list, and zero is not decremented. -/
theorem lastProposalFrom_ok {i : Nat} (hi : i < games.length)
    (habove : ∀ (j : Nat) (later : ListedGame), i < j → games[j]? = some later →
      later.gameType ≠ opSuccinctFaultDisputeGameType) :
    ∃ t, lastProposalFrom manager games i = .ok t ∧ LastProposal manager games t := by
  induction i with
  | zero =>
    have hget : games[0]? = some games[0] := List.getElem?_eq_getElem hi
    rw [lastProposalFrom_of_some hget]
    by_cases htype : games[0].gameType = opSuccinctFaultDisputeGameType
    · rw [if_pos htype]
      exact ⟨_, rfl, .inl ⟨0, _, hget, htype, rfl, habove⟩⟩
    · rw [if_neg htype, if_pos rfl]
      refine ⟨_, rfl, .inr ⟨fun game hgame => ?_, rfl⟩⟩
      obtain ⟨j, hj⟩ := List.mem_iff_getElem?.mp hgame
      rcases Nat.eq_zero_or_pos j with rfl | hpos
      · obtain rfl := Option.some.inj (hget.symm.trans hj)
        exact htype
      · exact habove j game hpos hj
  | succ i ih =>
    have hget : games[i + 1]? = some games[i + 1] := List.getElem?_eq_getElem hi
    rw [lastProposalFrom_of_some hget]
    by_cases htype : games[i + 1].gameType = opSuccinctFaultDisputeGameType
    · rw [if_pos htype]
      exact ⟨_, rfl, .inl ⟨i + 1, _, hget, htype, rfl, habove⟩⟩
    · rw [if_neg htype, if_neg (Nat.succ_ne_zero i)]
      refine ih (by omega) fun j later hij hlater => ?_
      rcases Nat.eq_or_lt_of_le (Nat.succ_le_of_lt hij) with rfl | hlt
      · obtain rfl := Option.some.inj (hget.symm.trans hlater)
        exact htype
      · exact habove j later hlt hlater

/-- **What `getLastProposalTimestamp` answers**, for every list of games. -/
theorem getLastProposalTimestamp_ok (manager : AccessManager) (games : List ListedGame) :
    ∃ t, getLastProposalTimestamp manager games = .ok t ∧ LastProposal manager games t := by
  unfold getLastProposalTimestamp
  by_cases hempty : games.length = 0
  · rw [if_pos hempty]
    obtain rfl := List.eq_nil_of_length_eq_zero hempty
    exact ⟨_, rfl, .inr ⟨by simp, rfl⟩⟩
  · rw [if_neg hempty]
    refine lastProposalFrom_ok (by omega) fun j later hj hlater => ?_
    have hlt : j < games.length := (List.getElem?_eq_some_iff.mp hlater).1
    omega

/-! ## The factory -/

/-- The manager and the factory's list, with the time of the latest block. -/
structure System where
  manager : AccessManager
  games : List ListedGame
  clock : Nat

/-- The world of a call to `initialize`, where the manager answers whether the creator may
propose.  A revert of the manager reverts the call, as a refusal does. -/
def System.world (s : System) (w : World) (timestamp : Nat) : World :=
  { w with
    isAllowedProposer := fun proposer =>
      (isAllowedProposer s.manager s.games timestamp proposer).toOption.getD false }

/-- What can happen: someone creates an `OPSuccinctFaultDisputeGame`, or a game of another
implementation, or the owner sets a proposer, or there is another owner. -/
inductive Action
  | createGame (gameType : Nat) (im : Immutables) (args : Bytes) (w : World) (m : Msg)
      (balance : Nat)
  | createOther (gameType timestamp : Nat)
  | setProposer (m : Msg) (proposer : Address) (allowed : Bool)
  | changeOwner (owner : Address) (timestamp : Nat)

def Action.timestamp : Action → Nat
  | .createGame _ _ _ _ m _ => m.timestamp
  | .createOther _ timestamp => timestamp
  | .setProposer m _ _ => m.timestamp
  | .changeOwner _ timestamp => timestamp

/-- The type of the game the action creates. -/
def Action.created : Action → Option Nat
  | .createGame gameType _ _ _ _ _ => some gameType
  | .createOther gameType _ => some gameType
  | _ => none

/-- The factory lists a game after its `initialize` returned. -/
def System.list (s : System) (gameType timestamp : Nat) : System :=
  { s with games := s.games ++ [⟨gameType, toUint64 timestamp⟩] }

/-- `setProposer(_proposer, _allowed)`, which only the owner may call. -/
def setProposer (s : System) (m : Msg) (proposer : Address) (allowed : Bool) : Option System :=
  if m.sender = s.manager.owner then
    some { s with manager := { s.manager with
      proposers := Function.update s.manager.proposers proposer allowed } }
  else none

/-- One accepted action. -/
def act (s : System) : Action → Option System
  | .createGame gameType im args w m balance =>
    (initializeGame im args (s.world w m.timestamp) m (Game.fresh balance)).toOption.map fun _ =>
      s.list gameType m.timestamp
  | .createOther gameType timestamp => some (s.list gameType timestamp)
  | .setProposer m proposer allowed => setProposer s m proposer allowed
  | .changeOwner owner _ => some { s with manager := { s.manager with owner := owner } }

/-- **One step**, in a block that is not before the last one and has a 64-bit time. -/
def next (s : System) (a : Action) : Option System :=
  if s.clock ≤ a.timestamp ∧ a.timestamp < 2 ^ 64 then
    (act s a).map fun s' => { s' with clock := a.timestamp }
  else none

abbrev Step : System → Taken System Action → System → Prop := takenOf next

/-! ## The invariant -/

/-- **A list the factory can have**: in the order of its timestamps, none of them in the
future, and no fault game from before the deployment of the manager. -/
structure Listed (s : System) : Prop where
  sorted : s.games.Pairwise fun a b => a.timestamp ≤ b.timestamp
  past : ∀ game ∈ s.games, game.timestamp ≤ s.clock
  deployed : ∀ game ∈ s.games, game.gameType = opSuccinctFaultDisputeGameType →
    s.manager.deploymentTimestamp ≤ game.timestamp
  started : s.manager.deploymentTimestamp ≤ s.clock

variable {s s' t : System} {tr : List (Taken System Action)} {e : Taken System Action}

/-- What an accepted action leaves. -/
theorem act_cases {a : Action} (h : act s a = some s') :
    (∃ gameType, a.created = some gameType ∧ s' = s.list gameType a.timestamp) ∨
    (a.created = none ∧ s'.games = s.games ∧
      s'.manager.deploymentTimestamp = s.manager.deploymentTimestamp) := by
  cases a with
  | createGame gameType im args w m balance =>
    obtain ⟨_, -, rfl⟩ := Option.map_eq_some_iff.mp h
    exact .inl ⟨gameType, rfl, rfl⟩
  | createOther gameType timestamp =>
    obtain rfl := Option.some.inj h
    exact .inl ⟨gameType, rfl, rfl⟩
  | setProposer m proposer allowed =>
    rw [act, setProposer] at h
    split at h
    · obtain rfl := Option.some.inj h
      exact .inr ⟨rfl, rfl, rfl⟩
    · cases h
  | changeOwner owner timestamp =>
    obtain rfl := Option.some.inj h
    exact .inr ⟨rfl, rfl, rfl⟩

theorem next_some {a : Action} (h : next s a = some t) :
    s.clock ≤ a.timestamp ∧ a.timestamp < 2 ^ 64 ∧
      ∃ s', act s a = some s' ∧ t = { s' with clock := a.timestamp } := by
  unfold next at h
  split at h
  · rename_i htime
    obtain ⟨s', hact, rfl⟩ := Option.map_eq_some_iff.mp h
    exact ⟨htime.1, htime.2, s', hact, rfl⟩
  · cases h

theorem Listed.step {a : Action} (h : Listed s) (hnext : next s a = some t) : Listed t := by
  obtain ⟨hclock, hsmall, s', hact, rfl⟩ := next_some hnext
  rcases act_cases hact with ⟨gameType, -, rfl⟩ | ⟨-, hgames, hdeployment⟩
  · have hcast : toUint64 a.timestamp = a.timestamp := toUint64_of_lt hsmall
    have hstarted := h.started
    refine ⟨?_, ?_, ?_, Nat.le_trans hstarted hclock⟩
    · refine List.pairwise_append.mpr ⟨h.sorted, List.pairwise_singleton _ _,
        fun game hgame g hg => ?_⟩
      obtain rfl := List.mem_singleton.mp hg
      have hpast := h.past game hgame
      show game.timestamp ≤ toUint64 a.timestamp
      omega
    · refine List.forall_mem_append.mpr ⟨fun game hgame => ?_, ?_⟩
      · exact Nat.le_trans (h.past game hgame) hclock
      · exact List.forall_mem_singleton.mpr (Nat.le_of_eq hcast)
    · refine List.forall_mem_append.mpr ⟨h.deployed, List.forall_mem_singleton.mpr fun _ => ?_⟩
      show s.manager.deploymentTimestamp ≤ toUint64 a.timestamp
      omega
  · refine ⟨hgames ▸ h.sorted, ?_, ?_, ?_⟩
    · rw [hgames]
      exact fun game hgame => Nat.le_trans (h.past game hgame) hclock
    · rw [hgames, hdeployment]
      exact h.deployed
    · rw [hdeployment]
      exact Nat.le_trans h.started hclock

/-! ## The gate -/

/-- The last proposal is not before any fault game of the list, nor before the deployment. -/
theorem Listed.le_lastProposal (h : Listed s) {last : Nat}
    (hlast : LastProposal s.manager s.games last) :
    s.manager.deploymentTimestamp ≤ last ∧
      ∀ game ∈ s.games, game.gameType = opSuccinctFaultDisputeGameType → game.timestamp ≤ last := by
  rcases hlast with ⟨i, lastGame, hi, htype, rfl, hlater⟩ | ⟨hnone, rfl⟩
  · refine ⟨h.deployed lastGame (List.mem_of_getElem? hi) htype, fun game hgame hfault => ?_⟩
    obtain ⟨j, hj⟩ := List.mem_iff_getElem?.mp hgame
    obtain ⟨hjlen, rfl⟩ := List.getElem?_eq_some_iff.mp hj
    obtain ⟨hilen, rfl⟩ := List.getElem?_eq_some_iff.mp hi
    rcases Nat.lt_trichotomy j i with hlt | rfl | hgt
    · exact List.pairwise_iff_getElem.mp h.sorted j i hjlen hilen hlt
    · exact Nat.le_refl _
    · exact absurd hfault (hlater j _ hgt hj)
  · exact ⟨Nat.le_refl _, fun game hgame hfault => absurd hfault (hnone game hgame)⟩

theorem Listed.lastProposal_le (h : Listed s) {last : Nat}
    (hlast : LastProposal s.manager s.games last) : last ≤ s.clock := by
  rcases hlast with ⟨i, game, hi, -, rfl, -⟩ | ⟨-, rfl⟩
  · exact h.past game (List.mem_of_getElem? hi)
  · exact h.started

theorem isAllowedProposer_of_last {manager : AccessManager} {games : List ListedGame}
    {timestamp last : Nat} {proposer : Address}
    (h : getLastProposalTimestamp manager games = .ok last) :
    isAllowedProposer manager games timestamp proposer =
      if manager.proposers zeroAddress = true ∨ manager.proposers proposer = true then .ok true
      else (checkedSub .panic timestamp last).map fun elapsed =>
        decide (manager.fallbackTimeout < elapsed) := by
  rw [isAllowedProposer, h]
  rfl

/-- **The manager answers**: no time is in the future, so nothing underflows. -/
theorem Listed.answers (h : Listed s) {timestamp : Nat} (hclock : s.clock ≤ timestamp)
    (proposer : Address) :
    ∃ allowed, isAllowedProposer s.manager s.games timestamp proposer = .ok allowed := by
  obtain ⟨last, hget, hlast⟩ := getLastProposalTimestamp_ok s.manager s.games
  have hpast := h.lastProposal_le hlast
  rw [isAllowedProposer_of_last hget]
  split
  · exact ⟨true, rfl⟩
  · rw [checkedSub, if_pos (by omega)]
    exact ⟨_, rfl⟩

/-- Who is not whitelisted is allowed only after the timeout since the last proposal. -/
theorem timeout_of_allowed {manager : AccessManager} {games : List ListedGame} {timestamp : Nat}
    {proposer : Address} (hproposer : manager.proposers proposer = false)
    (hzero : manager.proposers zeroAddress = false)
    (h : isAllowedProposer manager games timestamp proposer = .ok true) :
    ∃ last, LastProposal manager games last ∧ last + manager.fallbackTimeout < timestamp := by
  obtain ⟨last, hget, hlast⟩ := getLastProposalTimestamp_ok manager games
  refine ⟨last, hlast, ?_⟩
  rw [isAllowedProposer_of_last hget, if_neg (by simp [hproposer, hzero])] at h
  obtain ⟨elapsed, helapsed, hlt⟩ := map_ok_iff.mp h
  obtain ⟨hle, rfl⟩ := checkedSub_ok_iff.mp helapsed
  have hlt := of_decide_eq_true hlt
  omega

/-- **A game by fallback**: neither its creator nor the zero address is whitelisted. -/
def ByFallback (e : Taken System Action) : Prop :=
  ∃ gameType im args w m balance, e.label = .createGame gameType im args w m balance ∧
    e.pre.manager.proposers (gameCreator args) = false ∧
    e.pre.manager.proposers zeroAddress = false

/-- The step lists a fault game. -/
def CreatesFaultGame (e : Taken System Action) : Prop :=
  e.label.created = some opSuccinctFaultDisputeGameType

/-- **The timeout has passed** since every fault game of the list and since the deployment. -/
structure TimeoutPassed (e : Taken System Action) : Prop where
  games : ∀ game ∈ e.pre.games, game.gameType = opSuccinctFaultDisputeGameType →
    game.timestamp + e.pre.manager.fallbackTimeout < e.label.timestamp
  deployment : e.pre.manager.deploymentTimestamp + e.pre.manager.fallbackTimeout <
    e.label.timestamp

theorem Listed.timeoutPassed (h : Listed e.pre) (hnext : next e.pre e.label = some t)
    (hfallback : ByFallback e) : TimeoutPassed e := by
  obtain ⟨gameType, im, args, w, m, balance, hlabel, hcreator, hzero⟩ := hfallback
  obtain ⟨-, -, s', hact, -⟩ := next_some hnext
  rw [hlabel] at hact
  obtain ⟨game, hgame, -⟩ := Option.map_eq_some_iff.mp hact
  have hinitialized : initializeGame im args (e.pre.world w m.timestamp) m (Game.fresh balance) =
      .ok game := by
    cases hinit : initializeGame im args (e.pre.world w m.timestamp) m (Game.fresh balance) with
    | error error =>
      rw [hinit] at hgame
      cases hgame
    | ok created =>
      rw [hinit] at hgame
      exact congrArg Except.ok (Option.some.inj hgame)
  obtain ⟨-, -, hallowed, -⟩ := initializeGame_ok_iff.mp hinitialized
  have hanswer : isAllowedProposer e.pre.manager e.pre.games m.timestamp (gameCreator args) =
      .ok true := by
    cases hasked : isAllowedProposer e.pre.manager e.pre.games m.timestamp (gameCreator args) with
    | error error => simp [System.world, hasked, Except.toOption] at hallowed
    | ok allowed => simpa [System.world, hasked, Except.toOption] using hallowed
  obtain ⟨last, hlast, hlt⟩ := timeout_of_allowed hcreator hzero hanswer
  obtain ⟨hdeployment, hgames⟩ := h.le_lastProposal hlast
  have htime : e.label.timestamp = m.timestamp := by
    rw [hlabel]
    rfl
  refine ⟨fun game hgame hfault => ?_, ?_⟩
  · have hle := hgames game hgame hfault
    omega
  · omega

/-! ## Runs -/

theorem listed_of_run (hlisted : Listed s) (hrun : Run Step s tr t) : Listed t :=
  hrun.invariant (fun _ _ _ h hstep => by
    obtain ⟨rfl, rfl, hnext⟩ := hstep
    exact h.step hnext) hlisted

/-- A step only adds to the list. -/
theorem next_games {a : Action} (h : next s a = some t) :
    (∀ game ∈ s.games, game ∈ t.games) ∧
      ∀ gameType, a.created = some gameType → ⟨gameType, a.timestamp⟩ ∈ t.games := by
  obtain ⟨-, hsmall, s', hact, rfl⟩ := next_some h
  rcases act_cases hact with ⟨gameType, hcreated, rfl⟩ | ⟨hcreated, hgames, -⟩
  · refine ⟨fun game hgame => List.mem_append_left _ hgame, fun gameType' htype => ?_⟩
    obtain rfl : gameType = gameType' := Option.some.inj (hcreated.symm.trans htype)
    refine List.mem_append_right _ (List.mem_singleton.mpr ?_)
    rw [toUint64_of_lt hsmall]
  · refine ⟨fun game hgame => ?_, fun gameType' htype => ?_⟩
    · rw [hgames]
      exact hgame
    · rw [hcreated] at htype
      cases htype

/-- **The fault games created in a run are listed**, with the times of their steps. -/
theorem created_listed (hrun : Run Step s tr t) :
    ∀ e ∈ tr, CreatesFaultGame e →
      ⟨opSuccinctFaultDisputeGameType, e.label.timestamp⟩ ∈ t.games := by
  refine hrun.traceInvariant (I := fun tr t => ∀ e ∈ tr, CreatesFaultGame e →
    ⟨opSuccinctFaultDisputeGameType, e.label.timestamp⟩ ∈ t.games) ?_ (by simp)
  rintro tr a e b ih ⟨rfl, rfl, hnext⟩
  obtain ⟨hkept, hcreated⟩ := next_games hnext
  refine List.forall_mem_append.mpr ⟨fun e' he' hfault => hkept _ (ih e' he' hfault), ?_⟩
  exact List.forall_mem_singleton.mpr fun hfault => hcreated _ hfault

/-- **The gate of the dispute games.**  For every list the loop answers with the time of the
last fault game.  Over every run of the factory from a list it can have, the manager answers
everyone, and a creator who is not whitelisted gets a game only after the timeout since every
fault game, also those of the run, and since the deployment. -/
theorem fallback_games_gated (hlisted : Listed s) (hrun : Run Step s tr t) :
    (∀ manager games, ∃ last, getLastProposalTimestamp manager games = .ok last ∧
      LastProposal manager games last) ∧
    (∀ e ∈ tr, (∀ proposer, ∃ allowed, isAllowedProposer e.pre.manager e.pre.games
        e.label.timestamp proposer = .ok allowed) ∧
      (ByFallback e → TimeoutPassed e)) ∧
    tr.Pairwise fun a b => CreatesFaultGame a → ByFallback b →
      a.label.timestamp + b.pre.manager.fallbackTimeout < b.label.timestamp := by
  refine ⟨getLastProposalTimestamp_ok, ?_⟩
  induction hrun with
  | nil => exact ⟨by simp, .nil⟩
  | @snoc _ _ tr e hrun hstep ih =>
    obtain ⟨rfl, -, hnext⟩ := hstep
    obtain ⟨hbefore, hpairs⟩ := ih
    have hpre : Listed e.pre := listed_of_run hlisted hrun
    refine ⟨List.forall_mem_append.mpr ⟨hbefore, List.forall_mem_singleton.mpr ⟨?_, ?_⟩⟩, ?_⟩
    · exact hpre.answers (next_some hnext).1
    · exact hpre.timeoutPassed hnext
    · refine List.pairwise_append.mpr ⟨hpairs, List.pairwise_singleton _ _, fun a ha b hb => ?_⟩
      obtain rfl := List.mem_singleton.mp hb
      intro hfault hfallback
      exact (hpre.timeoutPassed hnext hfallback).games _ (created_listed hrun a ha hfault) rfl

/-! ### A game by fallback

Nobody is whitelisted; the last fault game is from 1000, and a game of another type came
after it. -/

def exampleManager : AccessManager where
  owner := 0x0A1
  proposers _ := false
  fallbackTimeout := 600
  deploymentTimestamp := 900

def exampleGames : List ListedGame := [⟨1, 800⟩, ⟨42, 1000⟩, ⟨0, 1100⟩]

def exampleSystem : System := ⟨exampleManager, exampleGames, 1100⟩

theorem exampleFactory_ne_zero : (0xFAC : Address) ≠ zeroAddress := by decide

/-- The factory's call that creates the game. -/
def exampleCall : Msg := ⟨0xFAC, 4, 2000, exampleFactory_ne_zero⟩

def exampleCreate : Action :=
  .createGame 42 exampleImmutables exampleArgs (exampleWorld .inProgress) exampleCall 0

def exampleListed : System := ⟨exampleManager, exampleGames ++ [⟨42, 2000⟩], 2000⟩

theorem exampleSystem_listed : Listed exampleSystem where
  sorted := by decide
  past := by decide
  deployed := by decide
  started := by decide

theorem exampleSystem_allows (proposer : Address) :
    isAllowedProposer exampleManager exampleGames 2000 proposer = .ok true := by
  have hlast : getLastProposalTimestamp exampleManager exampleGames = .ok 1000 := by
    rw [getLastProposalTimestamp, if_neg (by decide)]
    show lastProposalFrom exampleManager exampleGames 2 = _
    rw [lastProposalFrom_of_some (show exampleGames[2]? = some ⟨0, 1100⟩ from rfl),
      if_neg (by decide), if_neg (by decide)]
    show lastProposalFrom exampleManager exampleGames 1 = _
    rw [lastProposalFrom_of_some (show exampleGames[1]? = some ⟨42, 1000⟩ from rfl),
      if_pos (by decide)]
  rw [isAllowedProposer_of_last hlast]
  rfl

theorem exampleSystem_world :
    exampleSystem.world (exampleWorld .inProgress) 2000 = exampleWorld .inProgress := by
  have hallows : (fun proposer => (isAllowedProposer exampleManager exampleGames 2000
      proposer).toOption.getD false) = fun _ => true := by
    funext proposer
    rw [exampleSystem_allows]
    rfl
  unfold System.world
  dsimp only [exampleSystem]
  rw [hallows]
  rfl

theorem exampleCreate_next : next exampleSystem exampleCreate = some exampleListed := by
  have hcreated : ∃ game, initializeGame exampleImmutables exampleArgs
      (exampleSystem.world (exampleWorld .inProgress) 2000) exampleCall (Game.fresh 0) =
        .ok game := by
    obtain ⟨-, -, hallowed, hsize, start, hstart, hblock, -, -, -⟩ :=
      initializeGame_ok_iff.mp exampleGame_initialized
    rw [exampleSystem_world]
    exact ⟨_, initializeGame_ok_iff.mpr ⟨rfl, rfl, hallowed, hsize, start, hstart, hblock,
      by decide, by decide, rfl⟩⟩
  obtain ⟨game, hgame⟩ := hcreated
  have hact : act exampleSystem exampleCreate = some (exampleSystem.list 42 2000) := by
    unfold act exampleCreate
    dsimp only
    show Option.map _ (initializeGame exampleImmutables exampleArgs
      (exampleSystem.world (exampleWorld .inProgress) 2000) _ (Game.fresh 0)).toOption = _
    rw [hgame]
    rfl
  rw [next, if_pos (by decide), hact]
  rfl

theorem fallback_games_gated_example :
    TimeoutPassed ⟨exampleSystem, exampleCreate, exampleListed⟩ := by
  have hrun : Run Step exampleSystem [⟨exampleSystem, exampleCreate, exampleListed⟩]
      exampleListed := .single ⟨rfl, rfl, exampleCreate_next⟩
  have hgated := (fallback_games_gated exampleSystem_listed hrun).2.1 _ (List.mem_singleton_self _)
  exact hgated.2 ⟨_, _, _, _, _, _, rfl, rfl, rfl⟩

end OpSuccinct.Access
