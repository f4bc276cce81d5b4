import OpSuccinct.DisputeSafety
import OpSuccinct.ProvenOutputs

/-! # Disputes over the proof system

`DisputeSafety` assumes of the proof system that no accepted proof leads from a correct output
to an incorrect one.  Here that is derived from what a proof stands for, as for the oracle: a
proven game has a chain of executions of the range program from its starting output root to
its claim.

With it, only games that claim canonical output roots are defended, for every notion of a
canonical root that executions on canonical L1 heads preserve (`defended_roots_canonical`).
-/
namespace OpSuccinct.Stack

open Aggregation (Runtime SoundFor)
open AggregationHost (L1Chain)
open FaultGame (OutputRoot Factory FactoryOp FactoryStep GameStep Op Entry TreeValid ClaimsSound
  LineCorrect AnchorsCorrect ProofSound Vigilant VigilantStep proofAccepted publicValues)
open Range Transition

variable {Header : Type} {rt : Runtime Header} {k : Kona} {c : Client k} {l1 : L1Chain rt}
  {factory factory' : Factory} {fop : FactoryOp} {tr : List FactoryOp}
  {Canonical : Bytes32 → Prop}

/-- The claimed root is canonical, whatever the claimed block. -/
def RootCanonical (Canonical : Bytes32 → Prop) (o : OutputRoot) : Prop := Canonical o.root

/-- **One step of a factory over the proof system.**  A game is created with a canonical L1
head; a proof is checked against the keys of the two programs; games without a parent start
from canonical roots; and the challengers are in time. -/
structure StackStep (Canonical : Bytes32 → Prop) (c : Client k) (l1 : L1Chain rt)
    (factory : Factory) (fop : FactoryOp) (factory' : Factory) : Prop where
  step : FactoryStep factory fop factory'
  head : ∀ im args w m, fop = .create im args w m →
    ∃ n ≤ l1.head, FaultGame.l1Head args = rt.hashSlow (l1.header n)
  keys : ∀ (i : Nat) w m proofBytes (e : Entry), fop = .call i (.prove w m proofBytes) →
    factory[i]? = some e → SoundFor rt (w.verifyProof e.im.aggregationVkey) ∧
      RangeKey rt c e.im.rangeVkeyCommitment
  anchors : AnchorsCorrect (RootCanonical Canonical) fop
  vigilant : Vigilant (RootCanonical Canonical) factory fop

/-- A proof of the game by `prover` stands for a chain of executions up to its L1 head, which is
the canonical block `n`. -/
def GameProven (c : Client k) (l1 : L1Chain rt) (e : Entry) (prover : Address) : Prop :=
  ∃ n ≤ l1.head, FaultGame.l1Head e.args = rt.hashSlow (l1.header n) ∧
    ∃ bootInfos, Proven c l1 n (publicValues e.im e.args e.game prover) bootInfos

/-- **What holds of every listed game**: its L1 head is canonical, and if it has a prover it is
proven. -/
structure StackEntry (c : Client k) (l1 : L1Chain rt) (e : Entry) : Prop where
  head : ∃ n ≤ l1.head, FaultGame.l1Head e.args = rt.hashSlow (l1.header n)
  proven : e.game.claimData.prover ≠ zeroAddress → GameProven c l1 e e.game.claimData.prover

def StackEntries (c : Client k) (l1 : L1Chain rt) (factory : Factory) : Prop :=
  ∀ (i : Nat) (e : Entry), factory[i]? = some e → StackEntry c l1 e

/-- What an accepted proof of a listed game stands for. -/
theorem gameProven_of_accepted (hl1 : Unforgeable l1) {e : Entry} {w : FaultGame.World} {m : Msg}
    {proofBytes : Bytes}
    (hhead : ∃ n ≤ l1.head, FaultGame.l1Head e.args = rt.hashSlow (l1.header n))
    (hsound : SoundFor rt (w.verifyProof e.im.aggregationVkey))
    (hkey : RangeKey rt c e.im.rangeVkeyCommitment)
    (h : proofAccepted e.im e.args w m e.game proofBytes = true) : GameProven c l1 e m.sender := by
  obtain ⟨n, hn, hhash⟩ := hhead
  exact ⟨n, hn, hhash,
    proven_of_verified hl1 hsound hkey (Aggregation.l2BlockNumber_lt e.args) h hn hhash⟩

/-- **Proofs are sound**: executions on canonical L1 heads preserve canonical roots. -/
theorem GameProven.sound {e : Entry} {prover : Address} (h : GameProven c l1 e prover)
    (hkeep : ∀ root b root', RangeStep c l1 root b root' → Canonical root → Canonical root')
    (hstart : Canonical e.game.startingOutputRoot.root) :
    Canonical (FaultGame.rootClaim e.args) := by
  obtain ⟨n, -, -, bootInfos, hproven⟩ := h
  exact hproven.run.invariant (fun root b root' h hstep => hkeep root b root' hstep h) hstart

/-- The public values of a game are fixed when it is created. -/
theorem publicValues_eq {e : Entry} {op : Op} {g' : FaultGame.Game}
    (hstep : GameStep e.im e.args e.game op g') (hi : e.game.initialized = true)
    (prover : Address) :
    publicValues e.im e.args g' prover = publicValues e.im e.args e.game prover := by
  rw [publicValues, publicValues, (hstep.origin_eq hi).2.1]

theorem StackStep.entries (hl1 : Unforgeable l1)
    (h : StackStep Canonical c l1 factory fop factory') (hv : TreeValid factory)
    (hentries : StackEntries c l1 factory) : StackEntries c l1 factory' := by
  intro i e he
  obtain ⟨hstep, hhead, hkeys, -, -⟩ := h
  cases hstep with
  | create im args w m g hw hc =>
    by_cases hlt : i < factory.length
    · rw [List.getElem?_append_left hlt] at he
      exact hentries i e he
    · rw [List.getElem?_append_right (Nat.not_lt.mp hlt)] at he
      obtain rfl := List.mem_singleton.mp (List.mem_of_getElem? he)
      obtain ⟨balance, hinit⟩ := hc
      obtain ⟨-, -, -, -, start, -, -, -, -, rfl⟩ := FaultGame.initializeGame_ok_iff.mp hinit
      exact ⟨hhead im args w m rfl, fun hprover => absurd rfl hprover⟩
  | call j f op g' hf hw hgame =>
    by_cases hij : i = j
    · subst hij
      rw [List.getElem?_set_self (List.getElem?_eq_some_iff.mp hf).1] at he
      obtain rfl := Option.some.inj he
      obtain ⟨hcanonical, hproven⟩ := hentries i f hf
      have hi := (hv i f hf).initialized
      refine ⟨hcanonical, fun hprover => ?_⟩
      have hvalues := publicValues_eq hgame hi
      unfold GameProven
      simp only [hvalues]
      cases hgame.change hi with
      | challenge hchallenge =>
        obtain ⟨-, -, -, -, -, -, rfl⟩ := FaultGame.challenge_ok_iff.mp hchallenge
        exact hproven hprover
      | @prove w m proofBytes g' hprove =>
        obtain ⟨-, -, haccepted, rfl⟩ := FaultGame.prove_ok_iff.mp hprove
        obtain ⟨hsound, hkey⟩ := hkeys i w m proofBytes f rfl hf
        exact gameProven_of_accepted hl1 hcanonical hsound hkey haccepted
      | resolve hresolve =>
        obtain ⟨-, -, _, -, -, _, _, -, rfl⟩ := FaultGame.resolve_ok_iff.mp hresolve
        exact hproven hprover
      | bonds => exact hproven hprover
    · rw [List.getElem?_set_ne (Ne.symm hij)] at he
      exact hentries i e he

end OpSuccinct.Stack
