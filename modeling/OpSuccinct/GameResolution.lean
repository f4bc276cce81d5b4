import OpSuccinct.FaultGameTree
import OpSuccinct.GameScan

/-! # The resolution of games

`resolve_games` of the fault proof service (`fault-proof/src/lib.rs`).  The proposer and the
challenger go through a window of the factory's games and send `resolve()` to those whose
claim is unchallenged, or challenged, and whose deadline has passed.  A pass is given up when
the parent of the window's oldest game is in progress.

The contract resolves more games than that: a proven game, and a game whose parent lost
before the deadline.  What a pass does send is the contract's own condition for an expired
game up to the parent: the call reverts only if the game's parent is still in progress
(`expired_games_resolved`).
-/
namespace OpSuccinct.FaultProof

open FaultGame (Entry GameStatus ProposalStatus GameError World Sees FactoryOp FactoryStep ParentOf
  TreeValid parentIndex noParent)
open Transition

/-! ## The passes -/

inductive Mode
  | proposer
  | challenger
  deriving DecidableEq

/-- The claim status of the games that are resolved in a mode. -/
def Mode.claimStatus : Mode → ProposalStatus
  | .proposer => .unchallenged
  | .challenger => .challenged

/-- **What a pass runs with**: the L2 node, the message of its calls and the contracts the
calls read, which see the factory as it is.  The latest L2 block has the time of the calls. -/
structure Resolver where
  l2 : L2Chain
  msg : Msg
  world : FaultGame.Factory → World
  sees : ∀ factory, Sees (world factory) factory
  value_eq_zero : msg.value = 0
  timestamp_lt : msg.timestamp < 2 ^ 64
  now_eq : l2.now = msg.timestamp

variable (r : Resolver) (mode : Mode) (factory : FaultGame.Factory)

/-- The transaction that resolves a game. -/
def sendResolve (index : Nat) (e : Entry) : Except GameError FaultGame.Factory := do
  let g ← FaultGame.resolve e.im e.args (r.world factory) r.msg e.game
  return factory.set index { e with game := g }

/-- Nothing, or the result of the transaction that was sent. -/
def tryResolveGames (index : Nat) :
    Except ScanError (Option (Except GameError FaultGame.Factory)) := do
  let e ← called factory[index]?
  if e.game.status ≠ .inProgress then
    return none
  if e.game.claimData.status ≠ mode.claimStatus then
    return none
  let current ← getL2BlockByNumber r.l2 .latest
  if current.timestamp ≤ e.game.claimData.deadline then
    return none
  return some (sendResolve r factory index e)

/-- The visit of a game, with the factory at that moment. -/
structure Visit where
  index : Nat
  before : FaultGame.Factory
  outcome : Except ScanError (Option (Except GameError FaultGame.Factory))

/-- A visit that sends nothing, or whose transaction reverts, leaves the factory as it was. -/
def Visit.after (v : Visit) : FaultGame.Factory :=
  match v.outcome with
  | .ok (some (.ok factory)) => factory
  | _ => v.before

/-- The loop over the indices; errors of a visit are dropped. -/
def visitsFrom (factory : FaultGame.Factory) : List Nat → List Visit
  | [] => []
  | index :: indices =>
    let v : Visit := ⟨index, factory, tryResolveGames r mode factory index⟩
    v :: visitsFrom v.after indices

def shouldAttemptResolution (oldestGameIndex : Nat) : Except ScanError Bool := do
  let oldestGame ← called factory[oldestGameIndex]?
  let parentGameIndex := oldestGame.game.claimData.parentIndex
  if parentGameIndex = noParent then
    return true
  else
    let parentGame ← called factory[parentGameIndex]?
    return decide (parentGame.game.status ≠ .inProgress)

/-- The visits of one pass. -/
def resolveGames (maxGamesToCheckForResolution : Nat) : Except ScanError (List Visit) :=
  if factory.length = 0 then
    return []
  else do
    let latestGameIndex := factory.length - 1
    let oldestGameIndex := latestGameIndex - maxGamesToCheckForResolution
    let gamesToCheck := min latestGameIndex maxGamesToCheckForResolution
    let shouldAttempt ← shouldAttemptResolution factory oldestGameIndex
    if shouldAttempt then
      return visitsFrom r mode factory (List.range' oldestGameIndex gamesToCheck)
    else
      return []

/-- The visits of a pass that may fail before its first one. -/
def pass (maxGames : Nat) : List Visit :=
  match resolveGames r mode factory maxGames with
  | .ok visits => visits
  | .error _ => []

/-- The factory after some visits. -/
def afterVisits (factory : FaultGame.Factory) : List Visit → FaultGame.Factory
  | [] => factory
  | v :: visits => afterVisits v.after visits

/-! ## Coverage -/

def Visit.Sends (v : Visit) : Prop := ∃ result, v.outcome = .ok (some result)

def Visit.Reverts (v : Visit) : Prop := ∃ e, v.outcome = .ok (some (.error e))

/-- `resolve()` on the game at an index would succeed. -/
def WouldResolve (index : Nat) : Prop :=
  ∃ e g, factory[index]? = some e ∧
    FaultGame.resolve e.im e.args (r.world factory) r.msg e.game = .ok g

/-- The game at an index has a parent that is in progress. -/
def ParentInProgress (index : Nat) : Prop :=
  ∃ j p, ParentOf factory j index ∧ factory[j]? = some p ∧ p.game.status = .inProgress

/-- The game at an index is one the mode resolves: in progress, of the mode's claim status,
and past its deadline. -/
def Expired (index : Nat) : Prop :=
  ∃ e, factory[index]? = some e ∧ e.game.status = .inProgress ∧
    e.game.claimData.status = mode.claimStatus ∧ e.game.claimData.deadline < r.msg.timestamp

/-- **All resolvable games are sent, and no others**: every game of the window on which
`resolve()` would succeed is sent by the proposer's pass or by the challenger's after it, and
`resolve()` succeeds on every game that a pass sends. -/
def SendsExactlyResolvable (maxGames : Nat) : Prop :=
  let first := pass r .proposer factory maxGames
  let visits := first ++ pass r .challenger (afterVisits factory first) maxGames
  (∀ i, factory.length - 1 - maxGames ≤ i → i ≤ factory.length - 1 →
    (∃ v ∈ visits, v.index = i ∧ WouldResolve r v.before i) → ∃ v ∈ visits, v.index = i ∧ v.Sends) ∧
  ∀ v ∈ visits, v.Sends → ¬ v.Reverts

/-- **What one pass does.**  If the oldest game of the window has a parent in progress, it
sends nothing.  Otherwise it visits every game below the latest, in the state the game had
when the pass started, and sends `resolve()` to the expired ones on which it would succeed.
It sends to expired games only, and such a call reverts only for a parent in progress. -/
structure ResolvesExpired (maxGames : Nat) : Prop where
  closed : ParentInProgress factory (factory.length - 1 - maxGames) →
    pass r mode factory maxGames = []
  covers : ¬ ParentInProgress factory (factory.length - 1 - maxGames) →
    ∀ i, factory.length - 1 - maxGames ≤ i → i < factory.length - 1 →
      ∃ v ∈ pass r mode factory maxGames, v.index = i ∧ v.before[i]? = factory[i]? ∧
        (WouldResolve r v.before i → Expired r mode v.before i → v.Sends)
  only : ∀ v ∈ pass r mode factory maxGames, v.Sends → Expired r mode v.before v.index
  reverts : ∀ v ∈ pass r mode factory maxGames, v.Sends →
    (v.Reverts ↔ ParentInProgress v.before v.index)

variable {r mode factory} {factory' : FaultGame.Factory} {index maxGames : Nat} {v : Visit}
  {indices : List Nat} {tr : List FactoryOp}

/-! ## One visit -/

theorem sendResolve_ok_iff {e : Entry} :
    sendResolve r factory index e = .ok factory' ↔
      ∃ g, FaultGame.resolve e.im e.args (r.world factory) r.msg e.game = .ok g ∧
        factory.set index { e with game := g } = factory' := by
  simp only [sendResolve, bind_ok_iff, pure_ok_iff]

/-- **What is sent**: the transaction for an expired game. -/
theorem tryResolveGames_some_iff {result : Except GameError FaultGame.Factory} :
    tryResolveGames r mode factory index = .ok (some result) ↔
      ∃ e, factory[index]? = some e ∧ e.game.status = .inProgress ∧
        e.game.claimData.status = mode.claimStatus ∧
        e.game.claimData.deadline < r.msg.timestamp ∧ sendResolve r factory index e = result := by
  simp only [tryResolveGames, bind_ok_iff, called_ok_iff]
  refine exists_congr fun e => and_congr_right fun _ => ?_
  have hnow : (r.l2.header r.l2.head).timestamp = r.msg.timestamp := r.now_eq
  by_cases hstatus : e.game.status = .inProgress
  · by_cases hclaim : e.game.claimData.status = mode.claimStatus
    · by_cases hdeadline : r.msg.timestamp ≤ e.game.claimData.deadline
      · have hopen := Nat.not_lt.mpr hdeadline
        simp [hstatus, hclaim, getL2BlockByNumber_latest, bind_ok_iff, hnow, hdeadline, hopen]
      · have hpassed := Nat.not_le.mp hdeadline
        simp [hstatus, hclaim, getL2BlockByNumber_latest, bind_ok_iff, hnow, hdeadline, hpassed]
    · simp [hstatus, hclaim]
  · simp [hstatus]

/-- A transaction that succeeds is a step of the factory. -/
theorem resolved_step {e : Entry} (he : factory[index]? = some e)
    (h : sendResolve r factory index e = .ok factory') :
    FactoryStep factory (.call index (.resolve (r.world factory) r.msg)) factory' := by
  obtain ⟨g, hresolve, rfl⟩ := sendResolve_ok_iff.mp h
  refine .call index e _ g he (fun w hw => ?_) (FaultGame.gameStep_resolve.mpr hresolve)
  obtain rfl := Option.some.inj hw
  exact r.sees factory

/-- Without a parent in progress, the contract reads a resolved parent. -/
theorem getParentGameStatus_resolved {e : Entry} (hvalid : TreeValid factory)
    (he : factory[index]? = some e) (hparent : ¬ ParentInProgress factory index) :
    ∃ status, FaultGame.getParentGameStatus e.args (r.world factory) = .ok status ∧
      status ≠ .inProgress := by
  by_cases hroot : parentIndex e.args = noParent
  · refine ⟨.defenderWins, ?_, by decide⟩
    rw [FaultGame.getParentGameStatus, if_neg (not_not.mpr hroot)]
  · obtain ⟨-, p, hp, -⟩ := (hvalid index e he).parent hroot
    have hview := r.sees factory (parentIndex e.args)
    rw [hp] at hview
    obtain ⟨proxy, hproxy, -⟩ := Option.map_eq_some_iff.mp hview
    obtain ⟨p', hp', hstatus, -⟩ := (r.sees factory).proxy hproxy
    obtain rfl := Option.some.inj (hp.symm.trans hp')
    refine ⟨p.game.status, ?_, fun hinProgress =>
      hparent ⟨_, p, ⟨e, p, he, hp, hroot, rfl⟩, hp, hinProgress⟩⟩
    rw [FaultGame.getParentGameStatus, if_pos hroot, hproxy]
    exact congrArg Except.ok hstatus

/-- The contract decides an expired game of either claim status, however the parent ended. -/
theorem resolveOutcome_ok {e : Entry} (status : GameStatus)
    (hclaim : e.game.claimData.status = mode.claimStatus)
    (hdeadline : e.game.claimData.deadline < r.msg.timestamp) :
    ∃ outcome, FaultGame.resolveOutcome e.im e.args r.msg e.game status = .ok outcome := by
  have hover : FaultGame.gameOver r.msg e.game = true := by
    rw [FaultGame.gameOver_iff, toUint64_of_lt r.timestamp_lt]
    exact .inl hdeadline
  unfold FaultGame.resolveOutcome
  split
  · exact ⟨_, rfl⟩
  · rw [FaultGame.resolveByClaim, hclaim]
    cases mode with
    | proposer => exact ⟨_, bind_ok_iff.mpr ⟨(), require_ok_iff.mpr hover, rfl⟩⟩
    | challenger => exact ⟨_, bind_ok_iff.mpr ⟨(), require_ok_iff.mpr hover, rfl⟩⟩

/-- **A sent transaction reverts only for a parent in progress.** -/
theorem sendResolve_error_iff {e : Entry} (hvalid : TreeValid factory)
    (he : factory[index]? = some e) (hstatus : e.game.status = .inProgress)
    (hclaim : e.game.claimData.status = mode.claimStatus)
    (hdeadline : e.game.claimData.deadline < r.msg.timestamp) :
    (∃ error, sendResolve r factory index e = .error error) ↔ ParentInProgress factory index := by
  constructor
  · rintro ⟨error, herror⟩
    by_contra hparent
    obtain ⟨status, hread, hresolved⟩ := getParentGameStatus_resolved hvalid he hparent
    obtain ⟨outcome, houtcome⟩ := resolveOutcome_ok status hclaim hdeadline
    obtain ⟨g, hresolve⟩ : ∃ g,
        FaultGame.resolve e.im e.args (r.world factory) r.msg e.game = .ok g :=
      ⟨_, FaultGame.resolve_ok_iff.mpr ⟨r.value_eq_zero, hstatus, status, hread, hresolved,
        outcome.1, outcome.2, houtcome, rfl⟩⟩
    rw [sendResolve, hresolve] at herror
    cases herror
  · rintro ⟨j, p, ⟨e', p', he', hp', hroot, hj⟩, hp, hinProgress⟩
    obtain rfl := Option.some.inj (he.symm.trans he')
    subst hj
    cases hsend : sendResolve r factory index e with
    | error error => exact ⟨error, rfl⟩
    | ok factory' =>
      obtain ⟨g, hresolve, -⟩ := sendResolve_ok_iff.mp hsend
      obtain ⟨-, -, status, hread, hne, -⟩ := FaultGame.resolve_ok_iff.mp hresolve
      obtain ⟨p'', hp'', hstatus'⟩ := FaultGame.getParentGameStatus_parent (r.sees factory)
        hread hroot
      obtain rfl := Option.some.inj (hp.symm.trans hp'')
      exact absurd (hstatus'.symm.trans hinProgress) hne

/-! ## The visits of a pass -/

/-- A visit leads from its factory to the next by a step, or changes nothing, and touches
its own game only. -/
theorem Visit.after_cases (hv : v.outcome = tryResolveGames r mode v.before v.index) :
    v.after = v.before ∨
      FactoryStep v.before (.call v.index (.resolve (r.world v.before) r.msg)) v.after ∧
        ∃ e, v.after = v.before.set v.index e := by
  unfold Visit.after
  split
  · rename_i factory' houtcome
    obtain ⟨e, he, -, -, -, hsend⟩ := tryResolveGames_some_iff.mp (hv.symm.trans houtcome)
    refine .inr ⟨resolved_step he hsend, ?_⟩
    obtain ⟨g, -, rfl⟩ := sendResolve_ok_iff.mp hsend
    exact ⟨_, rfl⟩
  · exact .inl rfl

/-- The moment of a visit: a reachable factory, in which the games at the indices not yet
visited are as they were. -/
structure Moment (r : Resolver) (mode : Mode) (factory : FaultGame.Factory) (indices : List Nat)
    (v : Visit) : Prop where
  mem : v.index ∈ indices
  outcome : v.outcome = tryResolveGames r mode v.before v.index
  own : v.before[v.index]? = factory[v.index]?
  reached : ∃ tr, Run FactoryStep factory tr v.before

/-- **Every visit of a pass** is at such a moment. -/
theorem moment_of_visit (hnodup : indices.Nodup) (h : v ∈ visitsFrom r mode factory indices) :
    Moment r mode factory indices v := by
  induction indices generalizing factory with
  | nil => cases h
  | cons index indices ih =>
    obtain ⟨hnew, hnodup⟩ := List.nodup_cons.mp hnodup
    rcases List.mem_cons.mp h with rfl | h
    · exact ⟨List.mem_cons_self, rfl, rfl, [], .nil⟩
    · obtain ⟨hmem, houtcome, hown, tr, hrun⟩ := ih hnodup h
      have hne : index ≠ v.index := by
        rintro rfl
        exact hnew hmem
      have hfirst : (⟨index, factory, tryResolveGames r mode factory index⟩ : Visit).outcome =
          tryResolveGames r mode factory index := rfl
      rcases Visit.after_cases hfirst with heq | ⟨hstep, e, heq⟩
      · rw [heq] at hown hrun
        exact ⟨List.mem_cons_of_mem _ hmem, houtcome, hown, tr, hrun⟩
      · refine ⟨List.mem_cons_of_mem _ hmem, houtcome, ?_, _, .cons hstep hrun⟩
        rw [hown, heq]
        exact List.getElem?_set_ne hne

/-- Every index is visited. -/
theorem visit_of_mem (r : Resolver) (mode : Mode) (factory : FaultGame.Factory)
    (h : index ∈ indices) : ∃ v ∈ visitsFrom r mode factory indices, v.index = index := by
  induction indices generalizing factory with
  | nil => cases h
  | cons first indices ih =>
    rcases List.mem_cons.mp h with rfl | h
    · exact ⟨_, List.mem_cons_self, rfl⟩
    · obtain ⟨v, hv, hindex⟩ := ih _ h
      exact ⟨v, List.mem_cons_of_mem _ hv, hindex⟩

/-! ## The whole pass -/

/-- Every listed game stores the parent index of its arguments. -/
def ParentsRecorded (factory : FaultGame.Factory) : Prop :=
  ∀ (i : Nat) e, factory[i]? = some e → e.game.claimData.parentIndex = parentIndex e.args

theorem parentsRecorded_step {fop : FactoryOp} (hvalid : TreeValid factory)
    (h : ParentsRecorded factory) (hstep : FactoryStep factory fop factory') :
    ParentsRecorded factory' := by
  intro i e he
  cases hstep with
  | create im args w m g hw hc =>
    by_cases hlt : i < factory.length
    · rw [List.getElem?_append_left hlt] at he
      exact h i e he
    · rw [List.getElem?_append_right (Nat.not_lt.mp hlt)] at he
      obtain rfl := List.mem_singleton.mp (List.mem_of_getElem? he)
      obtain ⟨balance, hinit⟩ := hc
      obtain ⟨-, -, -, -, start, -, -, -, -, rfl⟩ := FaultGame.initializeGame_ok_iff.mp hinit
      rfl
  | call k ek op gk hk hw hgame =>
    by_cases hik : k = i
    · subst hik
      rw [List.getElem?_set_self (List.getElem?_eq_some_iff.mp hk).1] at he
      obtain rfl := Option.some.inj he
      exact (hgame.parentIndex_eq (hvalid k ek hk).initialized).trans (h k ek hk)
    · rw [List.getElem?_set_ne hik] at he
      exact h i e he

theorem parentsRecorded_run (hrun : Run FactoryStep [] tr factory) : ParentsRecorded factory := by
  refine (hrun.invariant (I := fun factory => TreeValid factory ∧ ParentsRecorded factory) ?_
    ⟨FaultGame.treeValid_run .nil, fun _ _ he => by cases he⟩).2
  intro factory fop factory' h hstep
  exact ⟨hstep.valid h.1, parentsRecorded_step h.1 h.2 hstep⟩

/-- **The check of the oldest game** asks for its parent. -/
theorem shouldAttemptResolution_ok {e : Entry} (hvalid : TreeValid factory)
    (hrecorded : ParentsRecorded factory) (he : factory[index]? = some e) :
    ∃ attempt, shouldAttemptResolution factory index = .ok attempt ∧
      (attempt = true ↔ ¬ ParentInProgress factory index) := by
  have hparent := hrecorded index e he
  by_cases hroot : parentIndex e.args = noParent
  · refine ⟨true, ?_, iff_of_true rfl ?_⟩
    · rw [shouldAttemptResolution, bind_ok_iff]
      refine ⟨e, called_ok_iff.mpr he, ?_⟩
      rw [if_pos (hparent.trans hroot)]
      rfl
    · rintro ⟨j, p, ⟨e', p', he', -, hne, -⟩, -⟩
      obtain rfl := Option.some.inj (he.symm.trans he')
      exact absurd hroot hne
  · obtain ⟨-, p, hp, -⟩ := (hvalid index e he).parent hroot
    refine ⟨decide (p.game.status ≠ .inProgress), ?_, ?_⟩
    · rw [shouldAttemptResolution, bind_ok_iff]
      refine ⟨e, called_ok_iff.mpr he, ?_⟩
      rw [if_neg (hparent ▸ hroot), bind_ok_iff, hparent]
      exact ⟨p, called_ok_iff.mpr hp, rfl⟩
    · rw [decide_eq_true_iff]
      refine not_congr ⟨fun hinProgress => ⟨_, p, ⟨e, p, he, hp, hroot, rfl⟩, hp, hinProgress⟩, ?_⟩
      rintro ⟨j, p', ⟨e', -, he', -, -, rfl⟩, hp', hinProgress⟩
      obtain rfl := Option.some.inj (he.symm.trans he')
      obtain rfl := Option.some.inj (hp.symm.trans hp')
      exact hinProgress

/-- The visits of a pass: none, or those of the window's games below the latest. -/
theorem pass_eq (r : Resolver) (mode : Mode) (maxGames : Nat) (hvalid : TreeValid factory)
    (hrecorded : ParentsRecorded factory) :
    (ParentInProgress factory (factory.length - 1 - maxGames) → pass r mode factory maxGames = []) ∧
      (¬ ParentInProgress factory (factory.length - 1 - maxGames) →
        pass r mode factory maxGames = visitsFrom r mode factory
          (List.range' (factory.length - 1 - maxGames) (min (factory.length - 1) maxGames))) := by
  by_cases hempty : factory.length = 0
  · rw [List.length_eq_zero_iff] at hempty
    subst hempty
    have hnone : min (0 - 1) maxGames = 0 := by omega
    refine ⟨fun _ => rfl, fun _ => ?_⟩
    rw [List.length_nil, hnone]
    rfl
  · obtain ⟨attempt, hattempt, hiff⟩ := shouldAttemptResolution_ok hvalid hrecorded
      (List.getElem?_eq_getElem (show factory.length - 1 - maxGames < factory.length by omega))
    have hvisits (visits : List Visit) (h : (if attempt then pure (visitsFrom r mode factory
        (List.range' (factory.length - 1 - maxGames) (min (factory.length - 1) maxGames)))
          else pure [] : Except ScanError (List Visit)) = .ok visits) :
        pass r mode factory maxGames = visits := by
      rw [pass, resolveGames, if_neg hempty, bind_ok_iff.mpr ⟨attempt, hattempt, h⟩]
    cases attempt with
    | true => exact ⟨fun hparent => absurd hparent (hiff.mp rfl), fun _ => hvisits _ rfl⟩
    | false =>
      exact ⟨fun _ => hvisits _ rfl, fun hparent => absurd (hiff.mpr hparent) Bool.false_ne_true⟩

/-- Every visit of a pass is a moment of it. -/
theorem moment_of_pass (hvalid : TreeValid factory) (hrecorded : ParentsRecorded factory)
    (hv : v ∈ pass r mode factory maxGames) : ∃ indices, Moment r mode factory indices v := by
  obtain ⟨hclosed, hopen⟩ := pass_eq r mode maxGames hvalid hrecorded
  by_cases hparent : ParentInProgress factory (factory.length - 1 - maxGames)
  · rw [hclosed hparent] at hv
    cases hv
  · rw [hopen hparent] at hv
    exact ⟨_, moment_of_visit List.nodup_range' hv⟩

/-- **One pass**, from any reachable factory. -/
theorem pass_resolvesExpired (hrun : Run FactoryStep [] tr factory) :
    ResolvesExpired r mode factory maxGames := by
  have hvalid := FaultGame.treeValid_run hrun
  have hrecorded := parentsRecorded_run hrun
  obtain ⟨hclosed, hopen⟩ := pass_eq r mode maxGames hvalid hrecorded
  refine ⟨hclosed, fun hparent i hlow hhigh => ?_, fun v hv hsends => ?_, fun v hv hsends => ?_⟩
  · have hmem : i ∈ List.range' (factory.length - 1 - maxGames)
        (min (factory.length - 1) maxGames) :=
      List.mem_range'_1.mpr ⟨hlow, by omega⟩
    obtain ⟨v, hv, rfl⟩ := visit_of_mem r mode factory hmem
    have hmoment := moment_of_visit List.nodup_range' hv
    refine ⟨v, hopen hparent ▸ hv, rfl, hmoment.own, fun _ hexpired => ?_⟩
    obtain ⟨e, he, hstatus, hclaim, hdeadline⟩ := hexpired
    exact ⟨_, hmoment.outcome.trans
      (tryResolveGames_some_iff.mpr ⟨e, he, hstatus, hclaim, hdeadline, rfl⟩)⟩
  · obtain ⟨indices, hmoment⟩ := moment_of_pass hvalid hrecorded hv
    obtain ⟨result, hresult⟩ := hsends
    obtain ⟨e, he, hstatus, hclaim, hdeadline, -⟩ :=
      tryResolveGames_some_iff.mp (hmoment.outcome.symm.trans hresult)
    exact ⟨e, he, hstatus, hclaim, hdeadline⟩
  · obtain ⟨indices, hmoment⟩ := moment_of_pass hvalid hrecorded hv
    obtain ⟨result, hresult⟩ := hsends
    obtain ⟨e, he, hstatus, hclaim, hdeadline, rfl⟩ :=
      tryResolveGames_some_iff.mp (hmoment.outcome.symm.trans hresult)
    obtain ⟨tr', hreached⟩ := hmoment.reached
    rw [← sendResolve_error_iff (FaultGame.treeValid_run (hrun.trans hreached)) he hstatus hclaim
      hdeadline, Visit.Reverts, hresult]
    refine exists_congr fun error => ⟨fun h => ?_, fun h => ?_⟩
    · exact Option.some.inj (Except.ok.inj h)
    · rw [h]

/-- The factory after a pass is reachable. -/
theorem afterVisits_reached : ∃ tr, Run FactoryStep factory tr
    (afterVisits factory (visitsFrom r mode factory indices)) := by
  induction indices generalizing factory with
  | nil => exact ⟨[], .nil⟩
  | cons index indices ih =>
    let v : Visit := ⟨index, factory, tryResolveGames r mode factory index⟩
    obtain ⟨tr, hrun⟩ : ∃ tr, Run FactoryStep v.after tr
        (afterVisits v.after (visitsFrom r mode v.after indices)) := ih
    have hv : v.outcome = tryResolveGames r mode v.before v.index := rfl
    show ∃ tr, Run FactoryStep v.before tr
      (afterVisits v.after (visitsFrom r mode v.after indices))
    rcases Visit.after_cases hv with heq | ⟨hstep, -⟩
    · rw [heq] at hrun ⊢
      exact ⟨tr, hrun⟩
    · exact ⟨_, .cons hstep hrun⟩

theorem afterPass_reached (hrun : Run FactoryStep [] tr factory) :
    ∃ tr, Run FactoryStep [] tr (afterVisits factory (pass r mode factory maxGames)) := by
  obtain ⟨hclosed, hopen⟩ := pass_eq r mode maxGames
    (FaultGame.treeValid_run hrun) (parentsRecorded_run hrun)
  by_cases hparent : ParentInProgress factory (factory.length - 1 - maxGames)
  · rw [hclosed hparent]
    exact ⟨tr, hrun⟩
  · rw [hopen hparent]
    obtain ⟨tr', hlater⟩ := afterVisits_reached
    exact ⟨_, hrun.trans hlater⟩

/-- **Expired games are resolved.**  For every reachable factory and every window, of the
proposer's pass and of the challenger's pass after it. -/
theorem expired_games_resolved (r : Resolver) (maxGames : Nat)
    (hrun : Run FactoryStep [] tr factory) :
    ResolvesExpired r .proposer factory maxGames ∧
      ResolvesExpired r .challenger
        (afterVisits factory (pass r .proposer factory maxGames)) maxGames := by
  refine ⟨pass_resolvesExpired hrun, ?_⟩
  obtain ⟨tr', hrun'⟩ := afterPass_reached hrun
  exact pass_resolvesExpired hrun'

/-! ### A proven game

The first game is at block 15 over the anchor, and the second is its child.  At time 1200 the
first one's deadline has passed; the proof was accepted at 1050. -/

def exampleRootArgs : Bytes := FaultGame.packArgs 0xA11CE 0xC1A1 0xB10C 15 noParent

def exampleRootGame : FaultGame.Game :=
  { FaultGame.exampleGame with
    claimData := ⟨noParent, zeroAddress, zeroAddress, FaultGame.rootClaim exampleRootArgs,
      .unchallenged, 1100⟩
    refundModeCredit := Function.update (fun _ => 0) (FaultGame.gameCreator exampleRootArgs) 4 }

def exampleRoot : Entry := ⟨FaultGame.exampleImmutables, exampleRootArgs, exampleRootGame⟩

def exampleProven : Entry :=
  { exampleRoot with
    game := { exampleRootGame with
      claimData := { exampleRootGame.claimData with
        prover := 0xB0B
        status := .unchallengedAndValidProofProvided } } }

theorem exampleRootArgs_parentIndex : parentIndex exampleRootArgs = noParent :=
  FaultGame.parentIndex_packArgs (by decide)

theorem exampleRoot_created : FaultGame.Created FaultGame.exampleImmutables exampleRootArgs
    (FaultGame.exampleFactoryWorld []) FaultGame.exampleCreation exampleRootGame := by
  have hstart : FaultGame.startingRoot FaultGame.exampleImmutables exampleRootArgs
      (FaultGame.exampleFactoryWorld []) = .ok ⟨0x9007, 10⟩ := by
    rw [FaultGame.startingRoot, if_neg (not_not.mpr exampleRootArgs_parentIndex)]
    rfl
  have hblock : FaultGame.l2BlockNumber exampleRootArgs = 15 :=
    FaultGame.l2BlockNumber_packArgs (by decide)
  refine ⟨0, FaultGame.initializeGame_ok_iff.mpr ⟨rfl, rfl, rfl, FaultGame.calldatasize_packArgs, _,
    hstart, ?_, by decide, by decide, ?_⟩⟩
  · rw [hblock]
    decide
  · rw [exampleRootArgs_parentIndex]
    rfl

theorem exampleRoot_reached : Run FactoryStep []
    [.create FaultGame.exampleImmutables exampleRootArgs (FaultGame.exampleFactoryWorld [])
      FaultGame.exampleCreation] [exampleRoot] :=
  .single (.create _ _ _ _ _ (FaultGame.exampleFactoryWorld_sees []) exampleRoot_created)

theorem exampleProof_sender_ne_zero : (0xB0B : Address) ≠ zeroAddress := by decide

theorem exampleProven_step : FactoryStep [exampleRoot] (.call 0 (.prove
    (FaultGame.exampleFactoryWorld [exampleRoot]) ⟨0xB0B, 0, 1050, exampleProof_sender_ne_zero⟩ []))
    [exampleProven] := by
  have hprove : FaultGame.prove FaultGame.exampleImmutables exampleRootArgs
      (FaultGame.exampleFactoryWorld [exampleRoot]) ⟨0xB0B, 0, 1050, exampleProof_sender_ne_zero⟩
      exampleRootGame [] = .ok exampleProven.game :=
    FaultGame.prove_ok_iff.mpr ⟨rfl, by decide, rfl, rfl⟩
  refine .call 0 exampleRoot _ exampleProven.game rfl (fun w hw => ?_)
    (FaultGame.gameStep_prove.mpr hprove)
  obtain rfl := Option.some.inj hw
  exact FaultGame.exampleFactoryWorld_sees _

/-- A child of the first game can be created, whether or not the first game is proven. -/
theorem exampleChild_created (e : Entry) (hargs : e.args = exampleRootArgs)
    (hstatus : e.game.status = .inProgress) :
    ∃ child fop, FactoryStep [e] fop [e, child] := by
  have hblock : FaultGame.l2BlockNumber e.args = 15 := by
    rw [hargs]
    exact FaultGame.l2BlockNumber_packArgs (by decide)
  obtain ⟨g, hg, -⟩ := FaultGame.example_created [e] 20 0
    ⟨FaultGame.rootClaim e.args, FaultGame.l2BlockNumber e.args⟩
    (by
      simp [FaultGame.startingRoot, FaultGame.parentIndex_packArgs, noParent,
        FaultGame.exampleFactoryWorld, FaultGame.exampleWorld, require, hstatus]
      rfl)
    (by simp [hblock]) (by decide)
  exact ⟨_, _, .create _ _ _ _ g (FaultGame.exampleFactoryWorld_sees [e]) hg⟩

theorem exampleResolutionChain_head_lt : 10 < 2 ^ 64 := by decide

theorem exampleResolver_timestamp_lt : 1200 < 2 ^ 64 := by decide

/-- A resolver at time 1200. -/
def exampleResolver : Resolver where
  l2 := ⟨10, exampleResolutionChain_head_lt, fun _ => ⟨0, 0, 1200⟩, fun _ _ => 0⟩
  msg := ⟨0xB0B, 0, 1200, exampleProof_sender_ne_zero⟩
  world := FaultGame.exampleFactoryWorld
  sees := FaultGame.exampleFactoryWorld_sees
  value_eq_zero := rfl
  timestamp_lt := exampleResolver_timestamp_lt
  now_eq := rfl

/-- A game without a parent that is expired, or proven, can be resolved. -/
theorem exampleResolver_wouldResolve {e : Entry} (hfactory : factory[0]? = some e)
    (he : e = exampleRoot ∨ e = exampleProven) : WouldResolve exampleResolver factory 0 := by
  have hparent (w : World) : FaultGame.getParentGameStatus exampleRootArgs w =
      .ok .defenderWins := by
    rw [FaultGame.getParentGameStatus, if_neg (not_not.mpr exampleRootArgs_parentIndex)]
  rcases he with rfl | rfl
  · exact ⟨_, _, hfactory, FaultGame.resolve_ok_iff.mpr
      ⟨rfl, rfl, _, hparent _, by decide, _, _, rfl, rfl⟩⟩
  · exact ⟨_, _, hfactory, FaultGame.resolve_ok_iff.mpr
      ⟨rfl, rfl, _, hparent _, by decide, _, _, rfl, rfl⟩⟩

theorem exampleRoot_noParent (e : Entry) (child : Entry) (hargs : e.args = exampleRootArgs) :
    ¬ ParentInProgress [e, child] 0 := by
  rintro ⟨j, p, ⟨e', p', he', -, hne, -⟩, -⟩
  obtain rfl := Option.some.inj he'
  rw [hargs] at hne
  exact hne exampleRootArgs_parentIndex

theorem expired_games_resolved_example :
    ∃ child, ∃ v ∈ pass exampleResolver .proposer [exampleRoot, child] 1,
      v.index = 0 ∧ v.Sends := by
  obtain ⟨child, fop, hchild⟩ := exampleChild_created exampleRoot rfl rfl
  obtain ⟨hfirst, -⟩ := expired_games_resolved exampleResolver 1 (exampleRoot_reached.snoc hchild)
  obtain ⟨v, hv, hindex, hown, hsends⟩ :=
    hfirst.covers (exampleRoot_noParent _ _ rfl) 0 (Nat.zero_le _) Nat.zero_lt_one
  exact ⟨child, v, hv, hindex, hsends (exampleResolver_wouldResolve hown (.inl rfl))
    ⟨exampleRoot, hown, rfl, rfl, by decide⟩⟩

/-- **The failing input.**  The first game is proven, and `resolve()` would succeed on it at
its visit in either pass; no pass sends it. -/
theorem proven_game_not_resolved :
    ∃ child tr, Run FactoryStep [] tr [exampleProven, child] ∧
      WouldResolve exampleResolver [exampleProven, child] 0 ∧
      ¬ SendsExactlyResolvable exampleResolver [exampleProven, child] 1 := by
  obtain ⟨child, fop, hchild⟩ := exampleChild_created exampleProven rfl rfl
  have hwould : WouldResolve exampleResolver [exampleProven, child] 0 :=
    exampleResolver_wouldResolve rfl (.inr rfl)
  have hpass (mode : Mode) : pass exampleResolver mode [exampleProven, child] 1 =
      [⟨0, [exampleProven, child], .ok none⟩] := by
    cases mode <;> rfl
  refine ⟨child, _, (exampleRoot_reached.snoc exampleProven_step).snoc hchild, hwould, ?_⟩
  have hafter : afterVisits [exampleProven, child] [⟨0, [exampleProven, child], .ok none⟩] =
      [exampleProven, child] := rfl
  rintro ⟨hcovers, -⟩
  simp only [hpass, hafter] at hcovers
  obtain ⟨v, hv, -, result, hresult⟩ := hcovers 0 (Nat.zero_le _) (Nat.zero_le _)
    ⟨_, List.mem_cons_self, rfl, hwould⟩
  rcases List.mem_append.mp hv with hv | hv
  · obtain rfl := List.mem_singleton.mp hv
    cases hresult
  · obtain rfl := List.mem_singleton.mp hv
    cases hresult

end OpSuccinct.FaultProof
