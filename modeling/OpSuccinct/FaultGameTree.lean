import Mathlib.Logic.Relation
import OpSuccinct.FaultGameSteps

/-! # The proposal tree of a factory

All games of one `DisputeGameFactory` evolve together: a game is appended to the
factory's list once its `initialize` succeeded, the list never changes otherwise,
and any call may be made on any listed game at any time.  What the games read of
each other is what the factory's list holds at that moment (`Sees`); every other
answer of the outside world is arbitrary, and different games may be clones of
different implementations.

A game's parent is always older than the game, so the parent links form a forest.
Resolution is one-way and asks for a resolved parent, which makes `DEFENDER_WINS`
travel up the tree: a defended game has only defended ancestors
(`factory_tree_valid`).
-/
namespace OpSuccinct.FaultGame

open Transition

/-- A listed game: its implementation, its clone arguments and its storage. -/
structure Entry where
  im : Immutables
  args : Bytes
  game : Game

/-- The factory's list of games, oldest first. -/
abbrev Factory := List Entry

/-- What other games read of a listed game. -/
def Entry.view (e : Entry) : GameStatus × Bytes32 × Nat :=
  (e.game.status, rootClaim e.args, l2BlockNumber e.args)

def Proxy.view (p : Proxy) : GameStatus × Bytes32 × Nat := (p.status, p.rootClaim, p.l2BlockNumber)

/-- **The games a call reads are the factory's**, as they are at that moment. -/
def Sees (w : World) (factory : Factory) : Prop :=
  ∀ i, (w.gameAtIndex i).map Proxy.view = factory[i]?.map Entry.view

/-- The world a call is made in. -/
def Op.world : Op → Option World
  | .initializeGame w _ | .challenge w _ | .prove w _ _ | .resolve w _ | .closeGame w _
  | .claimCredit w _ _ => some w
  | .donate _ => none

/-- What can happen next: the factory creates a game, or someone calls one. -/
inductive FactoryOp
  | create (im : Immutables) (args : Bytes) (w : World) (m : Msg)
  | call (i : Nat) (op : Op)

/-- **One step of the factory and its games.** -/
inductive FactoryStep : Factory → FactoryOp → Factory → Prop
  | create {factory : Factory} (im : Immutables) (args : Bytes) (w : World) (m : Msg) (g : Game) :
      Sees w factory → Created im args w m g →
      FactoryStep factory (.create im args w m) (factory ++ [⟨im, args, g⟩])
  | call {factory : Factory} (i : Nat) (e : Entry) (op : Op) (g' : Game) :
      factory[i]? = some e → (∀ w ∈ op.world, Sees w factory) → GameStep e.im e.args e.game op g' →
      FactoryStep factory (.call i op) (factory.set i { e with game := g' })

/-- Game `j` is the parent of game `i`. -/
def ParentOf (factory : Factory) (j i : Nat) : Prop :=
  ∃ e p, factory[i]? = some e ∧ factory[j]? = some p ∧
    parentIndex e.args ≠ noParent ∧ parentIndex e.args = j

/-- Game `j` is a proper ancestor of game `i`. -/
def Ancestor (factory : Factory) : Nat → Nat → Prop := Relation.TransGen (ParentOf factory)

/-- **What holds of the game listed at `i`.** -/
structure EntryValid (factory : Factory) (i : Nat) (e : Entry) : Prop where
  initialized : e.game.initialized = true
  block : e.game.startingOutputRoot.l2BlockNumber < l2BlockNumber e.args
  parent : parentIndex e.args ≠ noParent → parentIndex e.args < i ∧
    ∃ p, factory[parentIndex e.args]? = some p ∧
      e.game.startingOutputRoot = ⟨rootClaim p.args, l2BlockNumber p.args⟩ ∧
      (e.game.status = .defenderWins → p.game.status = .defenderWins)

/-- The invariant of the factory: every listed game is valid. -/
def TreeValid (factory : Factory) : Prop :=
  ∀ i e, factory[i]? = some e → EntryValid factory i e

/-! ## What a step reads of the parent -/

variable {factory factory' : Factory} {im : Immutables} {args : Bytes} {w : World} {m : Msg}
  {g g' : Game}

theorem Sees.proxy {i : Nat} {proxy : Proxy} (hw : Sees w factory)
    (hproxy : w.gameAtIndex i = some proxy) :
    ∃ p, factory[i]? = some p ∧ proxy.status = p.game.status ∧ proxy.rootClaim = rootClaim p.args ∧
      proxy.l2BlockNumber = l2BlockNumber p.args := by
  have h := hw i
  rw [hproxy] at h
  obtain ⟨p, hp, hview⟩ := Option.map_eq_some_iff.mp h.symm
  simp only [Entry.view, Proxy.view, Prod.mk.injEq] at hview
  exact ⟨p, hp, hview.1.symm, hview.2.1.symm, hview.2.2.symm⟩

/-- A game with a parent starts from the parent's claim. -/
theorem startingRoot_parent {start : OutputRoot} (hw : Sees w factory)
    (h : startingRoot im args w = .ok start) (hp : parentIndex args ≠ noParent) :
    ∃ p, factory[parentIndex args]? = some p ∧
      start = ⟨rootClaim p.args, l2BlockNumber p.args⟩ := by
  unfold startingRoot at h
  rw [if_pos hp] at h
  cases hproxy : w.gameAtIndex (parentIndex args) with
  | none => simp [hproxy] at h
  | some proxy =>
    simp only [hproxy, bind_ok_iff, require_ok_iff, pure_ok_iff] at h
    obtain ⟨_, -, _, -, rfl⟩ := h
    obtain ⟨p, hfactory, -, hroot, hblock⟩ := hw.proxy hproxy
    exact ⟨p, hfactory, by rw [hroot, hblock]⟩

/-- The parent status `resolve` reads is the parent's. -/
theorem getParentGameStatus_parent {status : GameStatus} (hw : Sees w factory)
    (h : getParentGameStatus args w = .ok status) (hp : parentIndex args ≠ noParent) :
    ∃ p, factory[parentIndex args]? = some p ∧ p.game.status = status := by
  unfold getParentGameStatus at h
  rw [if_pos hp] at h
  cases hproxy : w.gameAtIndex (parentIndex args) with
  | none => simp [hproxy] at h
  | some proxy =>
    simp only [hproxy, Except.ok.injEq] at h
    obtain ⟨p, hfactory, hstatus, -⟩ := hw.proxy hproxy
    exact ⟨p, hfactory, hstatus.symm.trans h⟩

/-- A game that becomes defended read a defended parent. -/
theorem resolve_defended (h : resolve im args w m g = .ok g')
    (hd : g'.status = .defenderWins) : getParentGameStatus args w = .ok .defenderWins := by
  obtain ⟨-, -, parent, hparent, hp, status, credit, hout, rfl⟩ := resolve_ok_iff.mp h
  rcases resolveOutcome_cases hout with ⟨-, hlost, -⟩ | ⟨hne, -, -⟩
  · exact absurd (hlost.symm.trans hd) (by decide)
  · cases parent with
    | inProgress => exact absurd rfl hp
    | challengerWins => exact absurd rfl hne
    | defenderWins => exact hparent

/-! ## Steps of the factory -/

/-- What a factory keeps of its games: they stay listed, with their arguments, and
a resolved game with its winner. -/
def Keeps (factory factory' : Factory) : Prop :=
  ∀ (i : Nat) (e : Entry), factory[i]? = some e → ∃ e', factory'[i]? = some e' ∧ e'.args = e.args ∧
    (e.game.status ≠ .inProgress → e'.game.status = e.game.status)

theorem Keeps.refl (factory : Factory) : Keeps factory factory :=
  fun _ e he => ⟨e, he, rfl, fun _ => rfl⟩

theorem Keeps.trans {a b c : Factory} (hab : Keeps a b) (hbc : Keeps b c) : Keeps a c := by
  intro i e he
  obtain ⟨e', he', hargs', hstatus'⟩ := hab i e he
  obtain ⟨e'', he'', hargs'', hstatus''⟩ := hbc i e' he'
  exact ⟨e'', he'', hargs''.trans hargs', fun hr =>
    (hstatus'' (hstatus' hr ▸ hr)).trans (hstatus' hr)⟩

theorem FactoryStep.keeps {fop : FactoryOp} (h : FactoryStep factory fop factory') :
    Keeps factory factory' := by
  cases h with
  | create im args w m g hw hc =>
    intro i e he
    have hi : i < factory.length := (List.getElem?_eq_some_iff.mp he).1
    exact ⟨e, by rw [List.getElem?_append_left hi, he], rfl, fun _ => rfl⟩
  | call k ek op gk hk hw hstep =>
    intro i e he
    by_cases hik : i = k
    · subst hik
      obtain rfl : ek = e := Option.some.inj (hk.symm.trans he)
      have hi : i < factory.length := (List.getElem?_eq_some_iff.mp he).1
      exact ⟨{ ek with game := gk }, List.getElem?_set_self hi, rfl,
        fun hr => (hstep.status_eq hr).1⟩
    · exact ⟨e, by rw [List.getElem?_set_ne (Ne.symm hik), he], rfl, fun _ => rfl⟩

/-- A game that is not called stays valid while the factory moves on. -/
theorem EntryValid.mono {i : Nat} {e : Entry} (h : EntryValid factory i e)
    (hk : Keeps factory factory') : EntryValid factory' i e where
  initialized := h.initialized
  block := h.block
  parent hp := by
    obtain ⟨hlt, p, hfactory, hstart, hdef⟩ := h.parent hp
    obtain ⟨p', hfactory', hargs, hstatus⟩ := hk _ p hfactory
    refine ⟨hlt, p', hfactory', hargs ▸ hstart, fun hd => ?_⟩
    have hpd := hdef hd
    exact (hstatus (by rw [hpd]; decide)).trans hpd

/-- A new game is valid: its parent is listed before it, and it is not resolved. -/
theorem Created.valid (hw : Sees w factory) (hc : Created im args w m g)
    (hk : Keeps factory factory') : EntryValid factory' factory.length ⟨im, args, g⟩ := by
  obtain ⟨balance, hinit⟩ := hc
  obtain ⟨-, -, -, -, start, hstart, hblock, -, -, rfl⟩ := initializeGame_ok_iff.mp hinit
  refine ⟨rfl, hblock, fun hp => ?_⟩
  obtain ⟨p, hfactory, rfl⟩ := startingRoot_parent hw hstart hp
  obtain ⟨p', hfactory', hargs, -⟩ := hk _ p hfactory
  refine ⟨(List.getElem?_eq_some_iff.mp hfactory).1, p', hfactory', by rw [hargs], fun hd => ?_⟩
  exact absurd (show GameStatus.inProgress = .defenderWins from hd) (by decide)

/-- A called game stays valid: it becomes defended only under a defended parent. -/
theorem EntryValid.call {i : Nat} {e : Entry} {op : Op} (h : EntryValid factory i e)
    (hw : ∀ w ∈ op.world, Sees w factory) (hstep : GameStep e.im e.args e.game op g') :
    EntryValid factory i { e with game := g' } := by
  obtain ⟨hi, hroot, -⟩ := hstep.origin_eq h.initialized
  refine ⟨hi, hroot ▸ h.block, fun hp => ?_⟩
  obtain ⟨hlt, p, hfactory, hstart, hdef⟩ := h.parent hp
  refine ⟨hlt, p, hfactory, hroot.trans hstart, fun hd => ?_⟩
  rcases hstep.status_cases with ⟨hs, -⟩ | ⟨w, m, rfl, hres⟩
  · exact hdef (hs.symm.trans hd)
  · obtain ⟨p', hfactory', hstatus⟩ :=
      getParentGameStatus_parent (hw w rfl) (resolve_defended hres hd) hp
    obtain rfl : p = p' := Option.some.inj (hfactory.symm.trans hfactory')
    exact hstatus

theorem FactoryStep.valid {fop : FactoryOp} (h : FactoryStep factory fop factory')
    (hv : TreeValid factory) : TreeValid factory' := by
  have hk := h.keeps
  intro i e he
  cases h with
  | create im args w m g hw hc =>
    rcases Nat.lt_or_ge i factory.length with hlt | hge
    · rw [List.getElem?_append_left hlt] at he
      exact (hv i e he).mono hk
    · rw [List.getElem?_append_right hge] at he
      obtain ⟨hi, rfl⟩ := List.getElem?_eq_some_iff.mp he
      obtain rfl : i = factory.length := by
        have : i - factory.length < 1 := hi
        omega
      simpa using hc.valid hw hk
  | call k ek op gk hek hw hstep =>
    by_cases hik : i = k
    · subst hik
      rw [List.getElem?_set_self (List.getElem?_eq_some_iff.mp hek).1] at he
      obtain rfl := Option.some.inj he
      exact ((hv i ek hek).call hw hstep).mono hk
    · rw [List.getElem?_set_ne (Ne.symm hik)] at he
      exact (hv i e he).mono hk

theorem treeValid_run {tr : List FactoryOp} (hrun : Run FactoryStep [] tr factory) :
    TreeValid factory :=
  hrun.invariant (fun _ _ _ hv hstep => hstep.valid hv) (by intro i e he; simp at he)

theorem keeps_run {tr : List FactoryOp} (hrun : Run FactoryStep factory tr factory') :
    Keeps factory factory' :=
  hrun.relates (I := fun _ => True) Keeps.refl (fun _ _ _ => Keeps.trans)
    (fun _ _ _ _ _ => trivial) (fun _ _ _ _ hstep => hstep.keeps) trivial

/-! ## Ancestors -/

/-- What a valid tree says of a game and a game above it: the upper game is older
and claims a lower block, and it is defended if the lower one is. -/
def Above (factory : Factory) (j i : Nat) : Prop :=
  j < i ∧ ∃ e a, factory[i]? = some e ∧ factory[j]? = some a ∧
    l2BlockNumber a.args < l2BlockNumber e.args ∧
    (e.game.status = .defenderWins → a.game.status = .defenderWins)

theorem ParentOf.above {j i : Nat} (hv : TreeValid factory) (h : ParentOf factory j i) :
    Above factory j i := by
  obtain ⟨e, p, he, hp, hparent, rfl⟩ := h
  have hvalid := hv i e he
  obtain ⟨hlt, p', hp', hstart, hdef⟩ := hvalid.parent hparent
  obtain rfl : p = p' := Option.some.inj (hp.symm.trans hp')
  have hblock := hvalid.block
  rw [hstart] at hblock
  exact ⟨hlt, e, p, he, hp, hblock, hdef⟩

/-- **Along every chain of parents** blocks strictly decrease and defence carries
over; by induction on the chain. -/
theorem Ancestor.above {j i : Nat} (hv : TreeValid factory) (h : Ancestor factory j i) :
    Above factory j i := by
  induction h with
  | single hp => exact hp.above hv
  | tail _ hp ih =>
    obtain ⟨hlt, e, a, he, ha, hblock, hdef⟩ := ih
    obtain ⟨hlt', e', p', he', hp', hblock', hdef'⟩ := hp.above hv
    obtain rfl : e = p' := Option.some.inj (he.symm.trans hp')
    exact ⟨Nat.lt_trans hlt hlt', e', a, he', ha, Nat.lt_trans hblock hblock',
      fun hd => hdef (hdef' hd)⟩

theorem Ancestor.keeps {j i : Nat} (h : Ancestor factory j i) (hk : Keeps factory factory') :
    Ancestor factory' j i := by
  refine Relation.TransGen.mono (fun a b hp => ?_) _ _ h
  obtain ⟨e, p, he, hp, hparent, hindex⟩ := hp
  obtain ⟨e', he', hargs, -⟩ := hk _ e he
  obtain ⟨p', hp', -⟩ := hk _ p hp
  exact ⟨e', p', he', hp', hargs ▸ hparent, hargs ▸ hindex⟩

/-- Every game descends from a game without a parent, or is one; by induction on
its index, since parents are older. -/
theorem root_exists (hv : TreeValid factory) (i : Nat) :
    ∀ e, factory[i]? = some e → ∃ r root, factory[r]? = some root ∧
      parentIndex root.args = noParent ∧ (r = i ∨ Ancestor factory r i) := by
  induction i using Nat.strongRecOn with
  | ind i ih =>
    intro e he
    by_cases hp : parentIndex e.args = noParent
    · exact ⟨i, e, he, hp, .inl rfl⟩
    · obtain ⟨hlt, p, hfactory, -⟩ := (hv i e he).parent hp
      have hparent : ParentOf factory (parentIndex e.args) i := ⟨e, p, he, hfactory, hp, rfl⟩
      obtain ⟨r, root, hr, hroot, rfl | hanc⟩ := ih _ hlt p hfactory
      · exact ⟨_, root, hr, hroot, .inr (.single hparent)⟩
      · exact ⟨r, root, hr, hroot, .inr (hanc.tail hparent)⟩

/-- **The proposal tree is valid** after every history of the factory: every game
claims a block above the one it starts from, and starts from the claim of its
parent; its parents lead up to a game without a parent, their blocks strictly
decreasing; every ancestor of a defended game is defended; and a game below a
lost one is never defended, then or later. -/
theorem factory_tree_valid {tr : List FactoryOp} (hrun : Run FactoryStep [] tr factory) :
    (∀ i e, factory[i]? = some e → e.game.initialized = true ∧
      e.game.startingOutputRoot.l2BlockNumber < l2BlockNumber e.args ∧
      (parentIndex e.args ≠ noParent → ∃ p, factory[parentIndex e.args]? = some p ∧
        e.game.startingOutputRoot = ⟨rootClaim p.args, l2BlockNumber p.args⟩) ∧
      ∃ r root, factory[r]? = some root ∧ parentIndex root.args = noParent ∧
        (r = i ∨ Ancestor factory r i)) ∧
    (∀ i j e a, factory[i]? = some e → factory[j]? = some a → Ancestor factory j i →
      l2BlockNumber a.args < l2BlockNumber e.args ∧
      (e.game.status = .defenderWins → a.game.status = .defenderWins) ∧
      (a.game.status = .challengerWins → ∀ tr' factory' e', Run FactoryStep factory tr' factory' →
        factory'[i]? = some e' → e'.game.status ≠ .defenderWins)) := by
  have hv := treeValid_run hrun
  refine ⟨fun i e he => ⟨(hv i e he).initialized, (hv i e he).block, fun hp => ?_,
    root_exists hv i e he⟩, fun i j e a he ha hanc => ?_⟩
  · obtain ⟨-, p, hfactory, hstart, -⟩ := (hv i e he).parent hp
    exact ⟨p, hfactory, hstart⟩
  · obtain ⟨-, e₁, a₁, he₁, ha₁, hblock, hdef⟩ := hanc.above hv
    obtain rfl : e = e₁ := Option.some.inj (he.symm.trans he₁)
    obtain rfl : a = a₁ := Option.some.inj (ha.symm.trans ha₁)
    refine ⟨hblock, hdef, fun hlost tr' factory' e' hrun' he' hd => ?_⟩
    have hk := keeps_run hrun'
    obtain ⟨-, e₂, a₂, he₂, ha₂, -, hdef'⟩ :=
      (hanc.keeps hk).above (treeValid_run (hrun.trans hrun'))
    obtain rfl : e' = e₂ := Option.some.inj (he'.symm.trans he₂)
    obtain ⟨a', ha', -, hstatus⟩ := hk j a ha
    obtain rfl : a' = a₂ := Option.some.inj (ha'.symm.trans ha₂)
    have hlost' : a'.game.status = .challengerWins := (hstatus (by rw [hlost]; decide)).trans hlost
    exact absurd (hlost'.symm.trans (hdef' hd)) (by decide)

/-! ## A factory with two games -/

/-- The example world over the games of a factory. -/
def exampleFactoryWorld (factory : Factory) : World :=
  { exampleWorld .inProgress with
    gameAtIndex := fun i =>
      factory[i]?.map fun e => ⟨0x9A3E, e.game.status, rootClaim e.args, l2BlockNumber e.args⟩ }

theorem exampleFactoryWorld_sees (factory : Factory) :
    Sees (exampleFactoryWorld factory) factory := by
  intro i
  simp [exampleFactoryWorld, Option.map_map, Function.comp_def, Proxy.view]
  rfl

/-- Any game over a lower start can be created. -/
theorem example_created (factory : Factory) (block parent : Nat) (start : OutputRoot)
    (hstart : startingRoot exampleImmutables (packArgs 0xA11CE 0xC1A1 0xB10C block parent)
      (exampleFactoryWorld factory) = .ok start)
    (hlt : start.l2BlockNumber < block) (hblock : block < 256 ^ 32) :
    ∃ g, Created exampleImmutables (packArgs 0xA11CE 0xC1A1 0xB10C block parent)
      (exampleFactoryWorld factory) exampleCreation g ∧ g.status = .inProgress := by
  refine ⟨_, ⟨0, initializeGame_ok_iff.mpr ⟨rfl, rfl, rfl, calldatasize_packArgs, start, hstart,
    ?_, by decide, (by decide : 0 + 4 < 2 ^ 256), rfl⟩⟩, rfl⟩
  rwa [l2BlockNumber_packArgs hblock]

theorem factory_tree_valid_example :
    ∃ tr root child, Run FactoryStep [] tr [root, child] ∧ parentIndex child.args = 0 ∧
      child.game.startingOutputRoot = ⟨rootClaim root.args, l2BlockNumber root.args⟩ := by
  obtain ⟨g, hg, hs⟩ := example_created [] 15 noParent ⟨0x9007, 10⟩
    (by simp [startingRoot, parentIndex_packArgs, noParent]; rfl) (by decide) (by decide)
  let root : Entry := ⟨exampleImmutables, packArgs 0xA11CE 0xC1A1 0xB10C 15 noParent, g⟩
  have hroot : l2BlockNumber root.args = 15 := l2BlockNumber_packArgs (by decide)
  obtain ⟨g', hg', -⟩ := example_created [root] 20 0
    ⟨rootClaim root.args, l2BlockNumber root.args⟩
    (by
      simp [startingRoot, parentIndex_packArgs, noParent, exampleFactoryWorld, exampleWorld,
        require, root, hs]
      rfl)
    (by simp [hroot]) (by decide)
  let child : Entry := ⟨exampleImmutables, packArgs 0xA11CE 0xC1A1 0xB10C 20 0, g'⟩
  have hrun : Run FactoryStep [] _ [root, child] :=
    (Run.single (.create _ _ _ _ g (exampleFactoryWorld_sees []) hg)).snoc
      (.create _ _ _ _ g' (exampleFactoryWorld_sees [root]) hg')
  have hparent : parentIndex child.args = 0 := parentIndex_packArgs (by decide)
  obtain ⟨-, -, hstart, -⟩ := (factory_tree_valid hrun).1 1 child rfl
  obtain ⟨p, hp, hstart⟩ := hstart (by rw [hparent]; decide)
  rw [hparent] at hp
  obtain rfl : root = p := Option.some.inj hp
  exact ⟨_, root, child, hrun, hparent, hstart⟩

end OpSuccinct.FaultGame
