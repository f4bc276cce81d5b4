import OpSuccinct.FaultGameTree

/-! # Disqualified parents

The anchor state registry may blacklist or retire a game at any time.  A game
asks the registry about its parent when it is created, and never again: `resolve`
reads the parent's status only.  So a parent that is disqualified after its child
was created, and resolved `DEFENDER_WINS` before, does not stop the child.

The documented rule (`ObeysRule`) holds in exactly the runs in which every
`resolve` that comes while the parent is disqualified finds a parent that lost or
a claim that was challenged and not proven (`disqualified_parent_stops_iff`).
-/
namespace OpSuccinct.FaultGame

open Transition

/-! ## The registry over time -/

/-- **The registry's verdicts** on a game, by time. -/
structure Registry where
  isGameRespected : Nat → Address → Bool
  isGameBlacklisted : Nat → Address → Bool
  isGameRetired : Nat → Address → Bool

/-- The game is blacklisted or retired at the time, or was not of the respected type
when it was created. -/
def Registry.Disqualifies (reg : Registry) (time : Nat) (game : Address) : Prop :=
  reg.isGameBlacklisted time game = true ∨ reg.isGameRetired time game = true ∨
    reg.isGameRespected time game = false

/-- A call made at the time gets the registry's verdicts of that time. -/
def Registry.AnswersIn (reg : Registry) (w : World) (time : Nat) : Prop :=
  w.isGameRespected = reg.isGameRespected time ∧
    w.isGameBlacklisted = reg.isGameBlacklisted time ∧ w.isGameRetired = reg.isGameRetired time

/-- The world a call is made in, and its message. -/
def Op.context : Op → Option (World × Msg)
  | .initializeGame w m | .challenge w m | .prove w m _ | .resolve w m | .closeGame w m
  | .claimCredit w m _ => some (w, m)
  | .donate _ => none

def FactoryOp.context : FactoryOp → Option (World × Msg)
  | .create _ _ w m => some (w, m)
  | .call _ op => op.context

/-- **One step of a factory under a registry.** -/
def RegistryStep (reg : Registry) (factory : Factory) (fop : FactoryOp)
    (factory' : Factory) : Prop :=
  FactoryStep factory fop factory' ∧ ∀ w m, fop.context = some (w, m) → reg.AnswersIn w m.timestamp

/-! ## The rule -/

/-- The call reads a parent of the game that the registry disqualifies at that moment. -/
def ReadsDisqualified (reg : Registry) (fop : FactoryOp) (e : Entry) (parent : Proxy) : Prop :=
  parentIndex e.args ≠ noParent ∧ ∃ w m, fop.context = some (w, m) ∧
    w.gameAtIndex (parentIndex e.args) = some parent ∧ reg.Disqualifies m.timestamp parent.address

/-- **The documented rule**, for one step: no game with a parent becomes `DEFENDER_WINS`
at a moment when its parent is disqualified. -/
def ObeysRule (reg : Registry) (factory : Factory) (fop : FactoryOp) (factory' : Factory) : Prop :=
  ∀ (i : Nat) (e e' : Entry) (parent : Proxy), factory[i]? = some e → factory'[i]? = some e' →
    e.game.status ≠ .defenderWins → e'.game.status = .defenderWins →
    ¬ ReadsDisqualified reg fop e parent

/-- **The condition on one step**: a game that is resolved while its parent is
disqualified has a parent that lost, or was challenged and not proven. -/
def LosesAnyway (reg : Registry) (factory : Factory) (fop : FactoryOp) : Prop :=
  ∀ (i : Nat) (e : Entry) (w : World) (m : Msg) (parent : Proxy),
    fop = .call i (.resolve w m) → factory[i]? = some e →
    ReadsDisqualified reg fop e parent →
    parent.status = .challengerWins ∨ e.game.claimData.status = .challenged

variable {reg : Registry} {factory factory' : Factory} {fop : FactoryOp} {im : Immutables}
  {args : Bytes} {w : World} {m : Msg} {g g' : Game}

/-- **The winner of a game with a parent**: the defender, unless the parent lost or the
claim stands challenged. -/
theorem resolve_defenderWins_iff {parent : Proxy} (h : resolve im args w m g = .ok g')
    (hp : parentIndex args ≠ noParent) (hparent : w.gameAtIndex (parentIndex args) = some parent) :
    g'.status = .defenderWins ↔
      ¬ (parent.status = .challengerWins ∨ g.claimData.status = .challenged) := by
  obtain ⟨-, -, status, hstatus, -, outcome, credit, hout, rfl⟩ := resolve_ok_iff.mp h
  have hread : status = parent.status := by
    rw [getParentGameStatus, if_pos hp, hparent] at hstatus
    exact (Except.ok.inj hstatus).symm
  subst hread
  show outcome = .defenderWins ↔ _
  rcases resolveOutcome_cases hout with ⟨hlost, rfl, -⟩ | ⟨hne, -, hclaim⟩
  · simp [hlost]
  · obtain ⟨-, rfl, -⟩ := resolveByClaim_cases hclaim
    by_cases hchallenged : g.claimData.status = .challenged
    · simp [hchallenged]
    · simp [hchallenged, hne]

/-- Only `resolve`, called on a listed game in progress, makes it defended. -/
theorem FactoryStep.defended {i : Nat} {e e' : Entry} (h : FactoryStep factory fop factory')
    (he : factory[i]? = some e) (he' : factory'[i]? = some e')
    (hne : e.game.status ≠ .defenderWins) (hd : e'.game.status = .defenderWins) :
    ∃ w m, fop = .call i (.resolve w m) ∧ resolve e.im e.args w m e.game = .ok e'.game := by
  have hlt : i < factory.length := (List.getElem?_eq_some_iff.mp he).1
  cases h with
  | create im args w m g hw hc =>
    rw [List.getElem?_append_left hlt, he] at he'
    obtain rfl := Option.some.inj he'
    exact absurd hd hne
  | call k ek op gk hk hw hstep =>
    by_cases hik : i = k
    · subst hik
      obtain rfl : ek = e := Option.some.inj (hk.symm.trans he)
      rw [List.getElem?_set_self hlt] at he'
      obtain rfl := Option.some.inj he'
      rcases hstep.status_cases with ⟨hs, -⟩ | ⟨w, m, rfl, hres⟩
      · exact absurd (hs.symm.trans hd) hne
      · exact ⟨w, m, rfl, hres⟩
    · rw [List.getElem?_set_ne (Ne.symm hik), he] at he'
      obtain rfl := Option.some.inj he'
      exact absurd hd hne

/-- What a listed game resolves to is what its `resolve` leaves. -/
theorem FactoryStep.resolved {i : Nat} {e : Entry} {w : World} {m : Msg}
    (h : FactoryStep factory (.call i (.resolve w m)) factory') (he : factory[i]? = some e) :
    ∃ g', factory'[i]? = some { e with game := g' } ∧ resolve e.im e.args w m e.game = .ok g' := by
  have hlt : i < factory.length := (List.getElem?_eq_some_iff.mp he).1
  cases h with
  | call k ek op gk hk hw hstep =>
    obtain rfl : ek = e := Option.some.inj (hk.symm.trans he)
    exact ⟨gk, List.getElem?_set_self hlt, gameStep_resolve.mp hstep⟩

/-- **One step obeys the rule exactly when it meets the condition.** -/
theorem obeysRule_iff (h : FactoryStep factory fop factory') :
    ObeysRule reg factory fop factory' ↔ LosesAnyway reg factory fop := by
  constructor
  · rintro hobeys i e w m parent rfl he hreads
    obtain ⟨g', he', hres⟩ := h.resolved he
    obtain ⟨hp, w', m', hcontext, hparent, -⟩ := id hreads
    obtain ⟨rfl, rfl⟩ := Prod.mk.inj (Option.some.inj hcontext)
    by_contra hwins
    have hd := (resolve_defenderWins_iff hres hp hparent).mpr hwins
    have hprogress := (resolve_ok_iff.mp hres).2.1
    exact hobeys i e _ parent he he' (by rw [hprogress]; decide) hd hreads
  · intro hloses i e e' parent he he' hne hd hreads
    obtain ⟨w, m, rfl, hres⟩ := h.defended he he' hne hd
    obtain ⟨hp, w', m', hcontext, hparent, -⟩ := id hreads
    obtain ⟨rfl, rfl⟩ := Prod.mk.inj (Option.some.inj hcontext)
    exact (resolve_defenderWins_iff hres hp hparent).mp hd (hloses i e w m parent rfl he hreads)

/-- **Disqualified parents stop their children** in exactly the runs in which every game
resolved while its parent is disqualified loses anyway. -/
theorem disqualified_parent_stops_iff (reg : Registry) (tr : List FactoryOp) (factory : Factory) :
    Run (fun a fop b => RegistryStep reg a fop b ∧ LosesAnyway reg a fop) [] tr factory ↔
      Run (fun a fop b => RegistryStep reg a fop b ∧ ObeysRule reg a fop b) [] tr factory := by
  constructor
  · exact Run.mono fun a fop b ⟨hstep, h⟩ => ⟨hstep, (obeysRule_iff hstep.1).mpr h⟩
  · exact Run.mono fun a fop b ⟨hstep, h⟩ => ⟨hstep, (obeysRule_iff hstep.1).mp h⟩

/-! ### A blacklisted parent

A root and its child are created at 1000.  The root is resolved at 1200, the registry
blacklists it at 1300, and the child is resolved then. -/

def exampleRegistry : Registry where
  isGameRespected _ _ := true
  isGameBlacklisted time _ := decide (1300 ≤ time)
  isGameRetired _ _ := false

/-- The example world over the games of a factory, with the registry's verdicts of a time. -/
def exampleRegistryWorld (factory : Factory) (time : Nat) : World :=
  { exampleFactoryWorld factory with
    isGameBlacklisted := exampleRegistry.isGameBlacklisted time }

theorem exampleRegistryWorld_sees (factory : Factory) (time : Nat) :
    Sees (exampleRegistryWorld factory time) factory := exampleFactoryWorld_sees factory

theorem exampleRegistryWorld_answers (factory : Factory) (time : Nat) :
    exampleRegistry.AnswersIn (exampleRegistryWorld factory time) time := ⟨rfl, rfl, rfl⟩

/-- The example game with the given arguments, as it is created. -/
def exampleCreated (args : Bytes) (start : OutputRoot) : Game :=
  { exampleGame with
    claimData := ⟨parentIndex args, zeroAddress, zeroAddress, rootClaim args, .unchallenged, 1100⟩
    refundModeCredit := Function.update (fun _ => 0) (gameCreator args) 4
    startingOutputRoot := start }

/-- The game once it is resolved at a time without a challenge. -/
def exampleDefended (args : Bytes) (start : OutputRoot) (time : Nat) : Game :=
  { exampleCreated args start with
    status := .defenderWins
    normalModeCredit := Function.update (fun _ => 0) (gameCreator args) 4
    claimData := { (exampleCreated args start).claimData with status := .resolved }
    resolvedAt := toUint64 time }

theorem exampleCreated_created {factory : Factory} {args : Bytes} {start : OutputRoot}
    (hsize : calldatasize args = 0x7E)
    (hstart : startingRoot exampleImmutables args (exampleRegistryWorld factory 1000) = .ok start)
    (hlt : start.l2BlockNumber < l2BlockNumber args) :
    Created exampleImmutables args (exampleRegistryWorld factory 1000) exampleCreation
      (exampleCreated args start) :=
  ⟨0, initializeGame_ok_iff.mpr
    ⟨rfl, rfl, rfl, hsize, start, hstart, hlt, by decide, (by decide : 0 + 4 < 2 ^ 256), rfl⟩⟩

theorem exampleCaller_ne_zero : (0xB0B : Address) ≠ zeroAddress := by decide

/-- Anyone's call at a time. -/
def exampleCall (time : Nat) : Msg := exampleMsg 0xB0B exampleCaller_ne_zero 0 time

theorem exampleCreated_resolved {w : World} {args : Bytes} (start : OutputRoot) (time : Nat)
    (hparent : getParentGameStatus args w = .ok .defenderWins) (hover : 1100 < toUint64 time) :
    resolve exampleImmutables args w (exampleCall time) (exampleCreated args start) =
      .ok (exampleDefended args start time) := by
  refine resolve_ok_iff.mpr ⟨rfl, rfl, _, hparent, by decide, .defenderWins, _, ?_, rfl⟩
  have hgameOver : gameOver (exampleCall time) (exampleCreated args start) = true :=
    gameOver_iff.mpr (.inl hover)
  rw [resolveOutcome, if_neg (by decide), require, if_pos hgameOver]
  rfl

/-- A creation at 1000 gets the registry's verdicts of that time. -/
theorem exampleCreate_step {factory : Factory} {args : Bytes} {start : OutputRoot}
    (hcreated : Created exampleImmutables args (exampleRegistryWorld factory 1000) exampleCreation
      (exampleCreated args start)) :
    RegistryStep exampleRegistry factory
      (.create exampleImmutables args (exampleRegistryWorld factory 1000) exampleCreation)
      (factory ++ [⟨exampleImmutables, args, exampleCreated args start⟩]) := by
  refine ⟨.create _ _ _ _ _ (exampleRegistryWorld_sees _ _) hcreated, fun w m hcontext => ?_⟩
  obtain ⟨rfl, rfl⟩ := Prod.mk.inj (Option.some.inj hcontext)
  exact exampleRegistryWorld_answers _ _

/-- The resolution of a created game after its challenge window, too. -/
theorem exampleResolve_step {factory : Factory} {i time : Nat} {args : Bytes} {start : OutputRoot}
    (hi : factory[i]? = some ⟨exampleImmutables, args, exampleCreated args start⟩)
    (hparent : getParentGameStatus args (exampleRegistryWorld factory time) = .ok .defenderWins)
    (hover : 1100 < toUint64 time) :
    RegistryStep exampleRegistry factory
      (.call i (.resolve (exampleRegistryWorld factory time) (exampleCall time)))
      (factory.set i ⟨exampleImmutables, args, exampleDefended args start time⟩) := by
  have hres := exampleCreated_resolved start time hparent hover
  refine ⟨.call i ⟨exampleImmutables, args, exampleCreated args start⟩ _ _ hi (fun w hw => ?_)
    (gameStep_resolve.mpr hres), fun w m hcontext => ?_⟩
  · obtain rfl : exampleRegistryWorld factory time = w := Option.some.inj hw
    exact exampleRegistryWorld_sees _ _
  · obtain ⟨rfl, rfl⟩ := Prod.mk.inj (Option.some.inj hcontext)
    exact exampleRegistryWorld_answers _ _

def exampleRootArgs : Bytes := packArgs 0xA11CE 0xC1A1 0xB10C 15 noParent

def exampleChildArgs : Bytes := packArgs 0xA11CE 0xC1A1 0xB10C 20 0

/-- The child starts from the claim of the root. -/
def exampleChildStart : OutputRoot := ⟨rootClaim exampleRootArgs, l2BlockNumber exampleRootArgs⟩

theorem exampleRootArgs_parentIndex : parentIndex exampleRootArgs = noParent :=
  parentIndex_packArgs (by decide)

theorem exampleChildArgs_parentIndex : parentIndex exampleChildArgs = 0 :=
  parentIndex_packArgs (by decide)

theorem exampleRootArgs_block : l2BlockNumber exampleRootArgs = 15 :=
  l2BlockNumber_packArgs (by decide)

theorem exampleChildArgs_block : l2BlockNumber exampleChildArgs = 20 :=
  l2BlockNumber_packArgs (by decide)

def exampleRootEntry (game : Game) : Entry := ⟨exampleImmutables, exampleRootArgs, game⟩

def exampleChildEntry (game : Game) : Entry := ⟨exampleImmutables, exampleChildArgs, game⟩

/-- The factory once the root is resolved. -/
def exampleFactory (child : Game) : Factory :=
  [exampleRootEntry (exampleDefended exampleRootArgs ⟨0x9007, 10⟩ 1200), exampleChildEntry child]

def exampleUnresolved : Factory :=
  [exampleRootEntry (exampleCreated exampleRootArgs ⟨0x9007, 10⟩),
    exampleChildEntry (exampleCreated exampleChildArgs exampleChildStart)]

theorem exampleRoot_create : RegistryStep exampleRegistry []
    (.create exampleImmutables exampleRootArgs (exampleRegistryWorld [] 1000) exampleCreation)
    [exampleRootEntry (exampleCreated exampleRootArgs ⟨0x9007, 10⟩)] := by
  have hstart : startingRoot exampleImmutables exampleRootArgs (exampleRegistryWorld [] 1000) =
      .ok ⟨0x9007, 10⟩ := by
    simp [startingRoot, exampleRootArgs_parentIndex]
    rfl
  refine exampleCreate_step (exampleCreated_created calldatasize_packArgs hstart ?_)
  rw [exampleRootArgs_block]
  decide

theorem exampleChild_create : RegistryStep exampleRegistry
    [exampleRootEntry (exampleCreated exampleRootArgs ⟨0x9007, 10⟩)]
    (.create exampleImmutables exampleChildArgs (exampleRegistryWorld
      [exampleRootEntry (exampleCreated exampleRootArgs ⟨0x9007, 10⟩)] 1000) exampleCreation)
    exampleUnresolved := by
  have hstart : startingRoot exampleImmutables exampleChildArgs (exampleRegistryWorld
      [exampleRootEntry (exampleCreated exampleRootArgs ⟨0x9007, 10⟩)] 1000) =
      .ok exampleChildStart := by
    simp [startingRoot, exampleChildArgs_parentIndex, noParent, exampleRegistryWorld,
      exampleRegistry, exampleFactoryWorld, exampleWorld, exampleRootEntry, require]
    rfl
  refine exampleCreate_step (exampleCreated_created calldatasize_packArgs hstart ?_)
  rw [exampleChildArgs_block, exampleChildStart, exampleRootArgs_block]
  decide

theorem exampleRoot_resolve : RegistryStep exampleRegistry exampleUnresolved
    (.call 0 (.resolve (exampleRegistryWorld exampleUnresolved 1200) (exampleCall 1200)))
    (exampleFactory (exampleCreated exampleChildArgs exampleChildStart)) := by
  have hparent : getParentGameStatus exampleRootArgs (exampleRegistryWorld exampleUnresolved 1200) =
      .ok .defenderWins := by
    rw [getParentGameStatus, exampleRootArgs_parentIndex, if_neg (by simp)]
  exact exampleResolve_step rfl hparent (by decide)

/-- The factory in which the root is resolved and the child is not. -/
def exampleBlacklisting : Factory :=
  exampleFactory (exampleCreated exampleChildArgs exampleChildStart)

/-- The call that resolves the child, when its parent is blacklisted. -/
def exampleChildResolve : FactoryOp :=
  .call 1 (.resolve (exampleRegistryWorld exampleBlacklisting 1300) (exampleCall 1300))

theorem exampleChild_resolve : RegistryStep exampleRegistry exampleBlacklisting exampleChildResolve
    (exampleFactory (exampleDefended exampleChildArgs exampleChildStart 1300)) := by
  have hparent : getParentGameStatus exampleChildArgs
      (exampleRegistryWorld exampleBlacklisting 1300) = .ok .defenderWins := by
    rw [getParentGameStatus, exampleChildArgs_parentIndex, if_pos (by decide)]
    rfl
  exact exampleResolve_step rfl hparent (by decide)

/-- **A blacklisted parent does not stop its child**: the child becomes `DEFENDER_WINS`
at 1300, when the registry blacklists its parent. -/
theorem blacklisted_parent_defends_child :
    ∃ tr, Run (RegistryStep exampleRegistry) [] tr exampleBlacklisting ∧
      RegistryStep exampleRegistry exampleBlacklisting exampleChildResolve
        (exampleFactory (exampleDefended exampleChildArgs exampleChildStart 1300)) ∧
      ¬ ObeysRule exampleRegistry exampleBlacklisting exampleChildResolve
        (exampleFactory (exampleDefended exampleChildArgs exampleChildStart 1300)) := by
  refine ⟨_, ((Run.single exampleRoot_create).snoc exampleChild_create).snoc exampleRoot_resolve,
    exampleChild_resolve, fun hobeys => ?_⟩
  refine hobeys 1 _ _ ⟨0x9A3E, .defenderWins, rootClaim exampleRootArgs,
    l2BlockNumber exampleRootArgs⟩ rfl rfl (by decide) rfl ⟨?_, _, _, rfl, ?_, .inl rfl⟩
  · show parentIndex exampleChildArgs ≠ noParent
    rw [exampleChildArgs_parentIndex]
    decide
  · show (exampleRegistryWorld exampleBlacklisting 1300).gameAtIndex
      (parentIndex exampleChildArgs) = _
    rw [exampleChildArgs_parentIndex]
    rfl

end OpSuccinct.FaultGame
