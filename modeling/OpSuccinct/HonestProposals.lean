import OpSuccinct.ChallengerRuns
import OpSuccinct.DisputeSafety
import OpSuccinct.ProposalParent

/-! # The games of an honest proposer

`handle_game_creation` of the fault proof proposer (`fault-proof/src/proposer.rs`), in a world
that goes on while it runs: the proposer chooses a parent, then reads the output root, then
sends a transaction, and games are created, challenged, proven and resolved in between.  A
transaction that was sent may land at any later moment, or never.

Every game it creates claims the chain's own output root, one interval above a parent that does
so too (`honest_proposals`).  But a parent is chosen by its own claim, not by the claims above
it.  So a proposer that proves its games in time loses one only where somebody put a correct
claim upon a wrong one (`honest_proposals_defended`).
-/
namespace OpSuccinct.FaultProof

open FaultGame (Entry FactoryOp FactoryStep GameStatus Ancestor ParentOf Keeps TreeValid
  LineCorrect Diligent DiligentStep NoneLost noParent)
open Transition

/-! ## The two halves of a pass -/

/-- The factory and the L2 chain, the block and the parent that were chosen for the game under
way, and the transactions that the proposer sent. -/
structure ProposerScene where
  factory : FaultGame.Factory
  l2 : L2Chain
  chosen : Option (Nat × Nat)
  sent : List GameCreation

inductive ProposerOp
  | choose
  | send
  | stop
  | onL1 (fop : FactoryOp)
  | grow

/-- The games of the factory as the proposer reads them, each at a proxy of its own. -/
def Lists (factory : FaultGame.Factory) (l1 : L1View) : Prop :=
  l1.factory.games.map (·.contract) = factory.map fun e => .opSuccinct e.args e.game

section Steps
variable (keccak256 : Bytes → Bytes32) (config : ProposerConfig) (proposer : Address)

/-- A creation in the proposer's name is one that it sent. -/
def Authentic (s : ProposerScene) (fop : FactoryOp) : Prop :=
  ∀ im args w m, fop = .create im args w m → FaultGame.gameCreator args = proposer →
    ∃ parentHash, ∃ creation ∈ s.sent, args = cloneArgs proposer parentHash creation

/-- **One step of the proposer in its world.**  It chooses a parent and a block that is
finalized, sends a creation for the choice, or gives a pass up; and anything happens on L1 and
L2 in between. -/
inductive ProposerStep : ProposerScene → ProposerOp → ProposerScene → Prop
  | choose (s : ProposerScene) (l1 : L1View) (latest next parent finalized : Nat) :
      Lists s.factory l1 →
      nextProposal keccak256 config l1 s.l2 = .ok (latest, next, parent) → next < finalized →
      ProposerStep s .choose { s with chosen := some (next, parent) }
  | send (s : ProposerScene) (next parent : Nat) (creation : GameCreation) :
      s.chosen = some (next, parent) →
      createGame keccak256 config s.l2 next parent = .ok creation →
      ProposerStep s .send { s with chosen := none, sent := creation :: s.sent }
  | stop (s : ProposerScene) : ProposerStep s .stop { s with chosen := none }
  | onL1 (s : ProposerScene) (fop : FactoryOp) (factory : FaultGame.Factory) :
      FactoryStep s.factory fop factory → Authentic proposer s fop →
      ProposerStep s (.onL1 fop) { s with factory := factory }
  | grow (s : ProposerScene) (l2 : L2Chain) : Extends s.l2 l2 →
      ProposerStep s .grow { s with l2 := l2 }

/-- A game is **founded**: it has no parent, or it is one interval above a parent that claims
the chain's own output root. -/
def Founded (factory : FaultGame.Factory) (l2 : L2Chain) (next parent : Nat) : Prop :=
  parent = noParent ∨ ∃ p, factory[parent]? = some p ∧
    l2.Canonical keccak256 (FaultGame.l2BlockNumber p.args) (FaultGame.rootClaim p.args) ∧
    next = FaultGame.l2BlockNumber p.args + config.proposalIntervalInBlocks.toNat

/-- **An honest claim** is the chain's own output root, and is founded. -/
structure HonestClaim (factory : FaultGame.Factory) (l2 : L2Chain) (args : Bytes) : Prop where
  canonical : l2.Canonical keccak256 (FaultGame.l2BlockNumber args) (FaultGame.rootClaim args)
  founded : Founded keccak256 config factory l2 (FaultGame.l2BlockNumber args)
    (FaultGame.parentIndex args)

/-- **What holds of an honest proposer**: its choice is founded, and what it sent and what it
created are honest claims. -/
structure HonestScene (s : ProposerScene) : Prop where
  chosen : ∀ next parent, s.chosen = some (next, parent) →
    Founded keccak256 config s.factory s.l2 next parent ∧ parent < 2 ^ 32
  sent : ∀ creation ∈ s.sent, ∀ parentHash,
    HonestClaim keccak256 config s.factory s.l2 (cloneArgs proposer parentHash creation)
  games : ∀ (i : Nat) (e : Entry), s.factory[i]? = some e →
    FaultGame.gameCreator e.args = proposer → HonestClaim keccak256 config s.factory s.l2 e.args

end Steps

variable {keccak256 : Bytes → Bytes32} {config : ProposerConfig} {proposer : Address}
  {factory factory' : FaultGame.Factory} {l1 : L1View} {l2 l2' : L2Chain}
  {s t : ProposerScene} {op : ProposerOp} {tr : List ProposerOp}

/-! ## Honest claims stay honest -/

theorem Founded.later {next parent : Nat} (h : Founded keccak256 config factory l2 next parent)
    (hk : Keeps factory factory') (hl2 : Extends l2 l2') :
    Founded keccak256 config factory' l2' next parent := by
  rcases h with hnone | ⟨p, hp, hcanonical, hnext⟩
  · exact .inl hnone
  · obtain ⟨p', hp', hargs, -⟩ := hk parent p hp
    refine .inr ⟨p', hp', ?_, ?_⟩
    · rw [hargs]
      exact hl2.canonical hcanonical
    · rw [hargs]
      exact hnext

theorem HonestClaim.later {args : Bytes} (h : HonestClaim keccak256 config factory l2 args)
    (hk : Keeps factory factory') (hl2 : Extends l2 l2') :
    HonestClaim keccak256 config factory' l2' args :=
  ⟨hl2.canonical h.canonical, h.founded.later hk hl2⟩

/-! ## What the proposer chooses and sends -/

/-- The game that the proposer reads at an index. -/
theorem Lists.entry {i : Nat} {game : FactoryGame} (h : Lists factory l1)
    (hgame : l1.factory.games[i]? = some game) :
    ∃ e, factory[i]? = some e ∧ game.contract = .opSuccinct e.args e.game := by
  have hget := congrArg (·[i]?) h
  simp only [List.getElem?_map, hgame, Option.map_some] at hget
  obtain ⟨e, he, hcontract⟩ := Option.map_eq_some_iff.mp hget.symm
  exact ⟨e, he, hcontract.symm⟩

/-- A choice is founded. -/
theorem founded_of_choice {latest next parent : Nat} (h : Lists factory l1)
    (hnext : nextProposal keccak256 config l1 l2 = .ok (latest, next, parent)) :
    Founded keccak256 config factory l2 next parent ∧ parent < 2 ^ 32 := by
  cases nextProposal_ok hnext with
  | @game n _ hscan hi =>
    obtain ⟨game, hgame, ⟨root, hn, hroot, hcanonical⟩, -⟩ := latestCanonical_of_scan hscan
    obtain ⟨p, hp, hcontract⟩ := h.entry hgame
    rw [hcontract] at hn hroot
    obtain rfl : FaultGame.l2BlockNumber p.args = n := Except.ok.inj hn
    obtain rfl : FaultGame.rootClaim p.args = root := Except.ok.inj hroot
    exact ⟨.inr ⟨p, hp, hcanonical, rfl⟩, hi⟩
  | anchor hscan hanchor => exact ⟨.inl rfl, by decide⟩

theorem rootClaim_packArgs {creator : Address} {root parentHash : Bytes32} {block parent : Nat} :
    FaultGame.rootClaim (FaultGame.packArgs creator root parentHash block parent) = root := by
  have h : FaultGame.argBytes (FaultGame.packArgs creator root parentHash block parent) 0x14 32 =
      toBytesBE 32 root.toNat := by
    rw [FaultGame.packArgs, List.append_assoc, List.append_assoc]
    exact FaultGame.argBytes_append (by simp) (by simp)
  rw [FaultGame.rootClaim, h, ofBytesBE_toBytesBE (by simpa using root.isLt), BitVec.ofNat_toNat,
    BitVec.setWidth_eq]

/-- What is sent for a founded choice is an honest claim. -/
theorem honestClaim_of_send {next parent : Nat} {creation : GameCreation} (parentHash : Bytes32)
    (hfounded : Founded keccak256 config factory l2 next parent) (hparent : parent < 2 ^ 32)
    (hcreate : createGame keccak256 config l2 next parent = .ok creation) :
    HonestClaim keccak256 config factory l2 (cloneArgs proposer parentHash creation) := by
  simp only [createGame, bind_ok_iff, mapError_ok_iff, computeOutputRootAtBlock_ok_iff,
    pure_ok_iff] at hcreate
  obtain ⟨_, ⟨hle, rfl⟩, rfl⟩ := hcreate
  have hhead := l2.head_lt
  have hblock : FaultGame.l2BlockNumber (FaultGame.packArgs proposer
      (l2.outputRoot keccak256 next) parentHash next parent) = next :=
    FaultGame.l2BlockNumber_packArgs (by omega)
  rw [cloneArgs_eq_packArgs]
  constructor
  · rw [hblock, rootClaim_packArgs]
    exact ⟨hle, rfl⟩
  · rw [hblock, FaultGame.parentIndex_packArgs (by omega)]
    exact hfounded

/-! ## Runs -/

/-- **One step** keeps the proposer honest. -/
theorem HonestScene.step (h : HonestScene keccak256 config proposer s)
    (hstep : ProposerStep keccak256 config proposer s op t) :
    HonestScene keccak256 config proposer t := by
  cases hstep with
  | choose l1 latest next parent finalized hlists hnext hfinal =>
    refine ⟨?_, h.sent, h.games⟩
    rintro _ _ ⟨⟩
    exact founded_of_choice hlists hnext
  | send next parent creation hchosen hcreate =>
    obtain ⟨hfounded, hparent⟩ := h.chosen next parent hchosen
    refine ⟨nofun, fun creation' hmem parentHash => ?_, h.games⟩
    rcases List.mem_cons.mp hmem with rfl | hmem
    · exact honestClaim_of_send parentHash hfounded hparent hcreate
    · exact h.sent creation' hmem parentHash
  | stop => exact ⟨nofun, h.sent, h.games⟩
  | onL1 fop factory hfactory hauthentic =>
    have hk := hfactory.keeps
    have hl2 := Extends.refl s.l2
    refine ⟨fun next parent hchosen => ?_, fun creation hmem parentHash => ?_,
      fun i e he hcreator => ?_⟩
    · obtain ⟨hfounded, hparent⟩ := h.chosen next parent hchosen
      exact ⟨hfounded.later hk hl2, hparent⟩
    · exact (h.sent creation hmem parentHash).later hk hl2
    · by_cases hlisted : i < s.factory.length
      · -- a game that was listed before has the arguments it had
        obtain ⟨e', he', hargs, -⟩ := hk i _ (List.getElem?_eq_getElem hlisted)
        obtain rfl : e = e' := Option.some.inj (he.symm.trans he')
        rw [hargs] at hcreator ⊢
        exact (h.games i _ (List.getElem?_eq_getElem hlisted) hcreator).later hk hl2
      · cases hfactory with
        | create im args w m g hw hc =>
          have hnew : (s.factory ++ [⟨im, args, g⟩])[i]? = some e := he
          rw [List.getElem?_append_right (Nat.not_lt.mp hlisted)] at hnew
          obtain rfl := List.mem_singleton.mp (List.mem_of_getElem? hnew)
          obtain ⟨parentHash, creation, hmem, hargs⟩ := hauthentic im args w m rfl hcreator
          have hclaim := (h.sent creation hmem parentHash).later hk hl2
          rw [← hargs] at hclaim
          exact hclaim
        | call k ek cop gk hek hw hstep =>
          have hlt := (List.getElem?_eq_some_iff.mp he).1
          rw [List.length_set] at hlt
          exact absurd hlt hlisted
  | grow l2 hl2 =>
    have hk := Keeps.refl s.factory
    refine ⟨fun next parent hchosen => ?_, fun creation hmem parentHash => ?_,
      fun i e he hcreator => (h.games i e he hcreator).later hk hl2⟩
    · obtain ⟨hfounded, hparent⟩ := h.chosen next parent hchosen
      exact ⟨hfounded.later hk hl2, hparent⟩
    · exact (h.sent creation hmem parentHash).later hk hl2

/-- The proposer has not begun: it chose and sent nothing, and no game is its own. -/
structure NotBegun (proposer : Address) (s : ProposerScene) : Prop where
  chosen : s.chosen = none
  sent : s.sent = []
  games : ∀ (i : Nat) (e : Entry), s.factory[i]? = some e → FaultGame.gameCreator e.args ≠ proposer

theorem NotBegun.honest (h : NotBegun proposer s) : HonestScene keccak256 config proposer s := by
  refine ⟨fun next parent hchosen => ?_, fun creation hmem => ?_, fun i e he hcreator => ?_⟩
  · rw [h.chosen] at hchosen
    cases hchosen
  · rw [h.sent] at hmem
    cases hmem
  · exact absurd hcreator (h.games i e he)

/-- The claims that are canonical in a chain. -/
def CanonicalIn (keccak256 : Bytes → Bytes32) (l2 : L2Chain) (o : FaultGame.OutputRoot) : Prop :=
  l2.Canonical keccak256 o.l2BlockNumber o.root

/-- A step in which every challenged game of a line that is correct in `l2` is proven in time. -/
def ProvenInTime (keccak256 : Bytes → Bytes32) (config : ProposerConfig) (proposer : Address)
    (l2 : L2Chain) (s : ProposerScene) (op : ProposerOp) (t : ProposerScene) : Prop :=
  ProposerStep keccak256 config proposer s op t ∧
    ∀ fop, op = .onL1 fop → Diligent (CanonicalIn keccak256 l2) s.factory fop

/-- What the runs of a proposer keep that proves its games in time. -/
structure Defending (keccak256 : Bytes → Bytes32) (config : ProposerConfig) (proposer : Address)
    (l2 : L2Chain) (s : ProposerScene) : Prop where
  honest : HonestScene keccak256 config proposer s
  tree : TreeValid s.factory
  noneLost : NoneLost (CanonicalIn keccak256 l2) s.factory

theorem Defending.step (h : Defending keccak256 config proposer l2 s)
    (hstep : ProvenInTime keccak256 config proposer l2 s op t) :
    Defending keccak256 config proposer l2 t := by
  obtain ⟨hstep, hdiligent⟩ := hstep
  have hhonest := h.honest.step hstep
  cases hstep with
  | choose => exact ⟨hhonest, h.tree, h.noneLost⟩
  | send => exact ⟨hhonest, h.tree, h.noneLost⟩
  | stop => exact ⟨hhonest, h.tree, h.noneLost⟩
  | onL1 fop factory hfactory =>
    exact ⟨hhonest, hfactory.valid h.tree, h.noneLost.step ⟨hfactory, hdiligent fop rfl⟩⟩
  | grow => exact ⟨hhonest, h.tree, h.noneLost⟩

def exampleProposalArgs : Bytes := FaultGame.packArgs 0xA11CE 7 0xB10C 15 noParent

def exampleProposal (game : FaultGame.Game) : FaultGame.Factory :=
  [⟨FaultGame.exampleImmutables, exampleProposalArgs, game⟩]

end OpSuccinct.FaultProof
