import OpSuccinct.FaultGameRegistry

/-! # Who wins a dispute

Which proposals the games of a factory accept, for any notion of a correct output.  A game
claims one output on top of another, so the first incorrect claim above an anchor starts from
a correct one.

If every such claim is challenged in time and no proof leads from a correct output to an
incorrect one, a defended game claims a correct output, and so does every game above it
(`defended_line_correct`).  If every challenged claim of a correct line is proven in time, no
game of a correct line is ever lost (`correct_line_not_lost`).  The first needs no help from
the proposers, the second none from the challengers.
-/
namespace OpSuccinct.FaultGame

open Transition

/-! ## Correct claims -/

/-- What a game claims. -/
def Entry.claim (e : Entry) : OutputRoot := ⟨rootClaim e.args, l2BlockNumber e.args⟩

section Definitions
variable (Correct : OutputRoot → Prop) (factory : Factory)

/-- The game at `i` and all games above it claim correct outputs. -/
def LineCorrect (i : Nat) : Prop :=
  ∃ e, factory[i]? = some e ∧ Correct e.claim ∧
    ∀ j a, Ancestor factory j i → factory[j]? = some a → Correct a.claim

/-- A game that is created without a parent starts from a correct output. -/
def AnchorsCorrect (fop : FactoryOp) : Prop :=
  ∀ im args w m, fop = .create im args w m → parentIndex args = noParent →
    Correct (w.anchors im.gameType)

/-- The proof system does not lead from a correct output to an incorrect one. -/
def ProofSound (fop : FactoryOp) : Prop :=
  ∀ i w m proofBytes e, fop = .call i (.prove w m proofBytes) → factory[i]? = some e →
    proofAccepted e.im e.args w m e.game proofBytes = true →
    Correct e.game.startingOutputRoot → Correct e.claim

/-- **The challengers are in time**: when a call is made, an unchallenged game that leads from
a correct output to an incorrect one is not over. -/
def Vigilant (fop : FactoryOp) : Prop :=
  ∀ w m, fop.context = some (w, m) → ∀ (i : Nat) (e : Entry), factory[i]? = some e →
    e.game.status = .inProgress → e.game.claimData.status = .unchallenged →
    Correct e.game.startingOutputRoot → ¬ Correct e.claim → gameOver m e.game = false

/-- **The proposers are in time**: when a call is made, a challenged game of a correct line is
not over. -/
def Diligent (fop : FactoryOp) : Prop :=
  ∀ w m, fop.context = some (w, m) → ∀ (i : Nat) (e : Entry), factory[i]? = some e →
    e.game.status = .inProgress → e.game.claimData.status = .challenged →
    LineCorrect Correct factory i → gameOver m e.game = false

/-- A step under challengers that are in time. -/
def VigilantStep (fop : FactoryOp) (factory' : Factory) : Prop :=
  FactoryStep factory fop factory' ∧ AnchorsCorrect Correct fop ∧
    ProofSound Correct factory fop ∧ Vigilant Correct factory fop

/-- A step under proposers that are in time. -/
def DiligentStep (fop : FactoryOp) (factory' : Factory) : Prop :=
  FactoryStep factory fop factory' ∧ Diligent Correct factory fop

end Definitions

variable {Correct : OutputRoot → Prop} {factory factory' : Factory} {fop : FactoryOp}
  {im : Immutables} {args : Bytes} {w : World} {m : Msg} {g g' : Game} {tr : List FactoryOp}

/-- A line that is correct later was correct before. -/
theorem LineCorrect.of_keeps {i : Nat} {e : Entry} (h : LineCorrect Correct factory' i)
    (hk : Keeps factory factory') (he : factory[i]? = some e) :
    LineCorrect Correct factory i := by
  obtain ⟨e', he', hclaim, hline⟩ := h
  have hargs : ∀ {j : Nat} {a : Entry}, factory[j]? = some a →
      ∃ a' : Entry, factory'[j]? = some a' ∧ a'.claim = a.claim := by
    intro j a ha
    obtain ⟨a', ha', hargs, -⟩ := hk j a ha
    exact ⟨a', ha', by rw [Entry.claim, Entry.claim, hargs]⟩
  refine ⟨e, he, ?_, fun j a hanc ha => ?_⟩
  · obtain ⟨e'', he'', hsame⟩ := hargs he
    obtain rfl : e' = e'' := Option.some.inj (he'.symm.trans he'')
    exact hsame ▸ hclaim
  · obtain ⟨a', ha', hsame⟩ := hargs ha
    exact hsame ▸ hline j a' (hanc.keeps hk) ha'

/-- Correctness of a line is inherited by the parent. -/
theorem LineCorrect.parent {i j : Nat} (h : LineCorrect Correct factory i)
    (hp : ParentOf factory j i) : LineCorrect Correct factory j := by
  obtain ⟨e, -, -, hline⟩ := h
  obtain ⟨-, p, -, hj, -⟩ := id hp
  exact ⟨p, hj, hline j p (.single hp) hj, fun k a hanc ha => hline k a (hanc.tail hp) ha⟩

/-! ## Defended claims are correct -/

/-- **What holds of a game while the challengers are in time**: without a parent it starts from
a correct output, a proof of it leads to a correct output, and it is defended only if its
claim is correct. -/
structure ClaimSound (Correct : OutputRoot → Prop) (e : Entry) : Prop where
  anchor : parentIndex e.args = noParent → Correct e.game.startingOutputRoot
  proven : e.game.claimData.status = .unchallengedAndValidProofProvided ∨
    e.game.claimData.status = .challengedAndValidProofProvided →
      Correct e.game.startingOutputRoot → Correct e.claim
  defended : e.game.status = .defenderWins → Correct e.claim

/-- It holds of every listed game. -/
def ClaimsSound (Correct : OutputRoot → Prop) (factory : Factory) : Prop :=
  ∀ (i : Nat) (e : Entry), factory[i]? = some e → ClaimSound Correct e

theorem startingRoot_noParent {start : OutputRoot} (h : startingRoot im args w = .ok start)
    (hp : parentIndex args = noParent) : start = w.anchors im.gameType := by
  rw [startingRoot, if_neg (not_not.mpr hp)] at h
  exact (Except.ok.inj h).symm

theorem Created.claimSound (hc : Created im args w m g)
    (hanchor : parentIndex args = noParent → Correct (w.anchors im.gameType)) :
    ClaimSound Correct ⟨im, args, g⟩ := by
  obtain ⟨balance, hinit⟩ := hc
  obtain ⟨-, -, -, -, start, hstart, -, -, -, rfl⟩ := initializeGame_ok_iff.mp hinit
  refine ⟨fun hp => ?_, by simp, by simp [Game.fresh]⟩
  rw [startingRoot_noParent hstart hp]
  exact hanchor hp

/-- A game under a defended parent, or without one, starts from a correct output. -/
theorem start_correct {i : Nat} {e : Entry} (hv : TreeValid factory)
    (hsound : ClaimsSound Correct factory) (hw : Sees w factory)
    (he : factory[i]? = some e) (hparent : getParentGameStatus e.args w = .ok .defenderWins) :
    Correct e.game.startingOutputRoot := by
  by_cases hp : parentIndex e.args = noParent
  · exact (hsound i e he).anchor hp
  · obtain ⟨p, hfactory, hstatus⟩ := getParentGameStatus_parent hw hparent hp
    obtain ⟨-, p', hfactory', hstart, -⟩ := (hv i e he).parent hp
    obtain rfl : p = p' := Option.some.inj (hfactory.symm.trans hfactory')
    rw [hstart]
    exact (hsound _ p hfactory).defended hstatus

/-- A game that becomes defended is over, and stands unchallenged or proven. -/
theorem resolve_defended_claim (h : resolve im args w m g = .ok g')
    (hd : g'.status = .defenderWins) :
    gameOver m g = true ∧ (g.claimData.status = .unchallenged ∨
      g.claimData.status = .unchallengedAndValidProofProvided ∨
      g.claimData.status = .challengedAndValidProofProvided) := by
  obtain ⟨-, -, parent, -, -, status, credit, hout, rfl⟩ := resolve_ok_iff.mp h
  rcases resolveOutcome_cases hout with ⟨-, rfl, -⟩ | ⟨-, hover, hclaim⟩
  · cases hd
  · obtain ⟨hne, hstatus, -⟩ := resolveByClaim_cases hclaim
    refine ⟨hover, ?_⟩
    cases hc : g.claimData.status with
    | unchallenged => exact .inl rfl
    | challenged =>
      rw [hc, if_pos rfl] at hstatus
      exact absurd (hstatus.symm.trans hd) (by decide)
    | unchallengedAndValidProofProvided => exact .inr (.inl rfl)
    | challengedAndValidProofProvided => exact .inr (.inr rfl)
    | resolved => exact absurd hc hne

/-- **One call** leaves what holds of the game it is made on. -/
theorem ClaimSound.call {i : Nat} {e : Entry} {op : Op} (hv : TreeValid factory)
    (hsound : ClaimsSound Correct factory) (he : factory[i]? = some e)
    (hw : ∀ w ∈ op.world, Sees w factory) (hstep : GameStep e.im e.args e.game op g')
    (hproof : ProofSound Correct factory (.call i op))
    (hvigilant : Vigilant Correct factory (.call i op)) :
    ClaimSound Correct { e with game := g' } := by
  obtain ⟨hanchor, hproven, hdefended⟩ := hsound i e he
  cases hstep.change (hv i e he).initialized with
  | challenge h =>
    obtain ⟨-, -, -, -, -, -, rfl⟩ := challenge_ok_iff.mp h
    exact ⟨hanchor, by simp, hdefended⟩
  | @prove w m proofBytes g' h =>
    obtain ⟨-, -, haccepted, rfl⟩ := prove_ok_iff.mp h
    exact ⟨hanchor, fun _ => hproof i w m proofBytes e rfl he haccepted, hdefended⟩
  | @resolve w m g' h =>
    have hstart := hstep.origin_eq (hv i e he).initialized
    refine ⟨hstart.2.1 ▸ hanchor, ?_, fun hd => ?_⟩
    · obtain ⟨-, -, _, -, -, _, _, -, rfl⟩ := resolve_ok_iff.mp h
      simp
    · have hcorrect := start_correct hv hsound (hw w rfl) he (resolve_defended h hd)
      have hprogress := (resolve_ok_iff.mp h).2.1
      obtain ⟨hover, hunchallenged | hvalid⟩ := resolve_defended_claim h hd
      · -- nobody challenged the claim while that was possible, so it is correct
        by_contra hincorrect
        have hopen := hvigilant w m rfl i e he hprogress hunchallenged hcorrect hincorrect
        rw [hover] at hopen
        cases hopen
      · exact hproven hvalid hcorrect
  | bonds mode normal refund balance _ => exact ⟨hanchor, hproven, hdefended⟩

theorem VigilantStep.claimSound (h : VigilantStep Correct factory fop factory')
    (hv : TreeValid factory) (hsound : ClaimsSound Correct factory) :
    ClaimsSound Correct factory' := by
  obtain ⟨hstep, hanchors, hproof, hvigilant⟩ := h
  intro i e he
  cases hstep with
  | create im args w m g hw hc =>
    by_cases hlt : i < factory.length
    · rw [List.getElem?_append_left hlt] at he
      exact hsound i e he
    · rw [List.getElem?_append_right (Nat.not_lt.mp hlt)] at he
      obtain rfl := List.mem_singleton.mp (List.mem_of_getElem? he)
      exact hc.claimSound (hanchors im args w m rfl)
  | call k ek op gk hek hw hstep =>
    by_cases hik : i = k
    · subst hik
      rw [List.getElem?_set_self (List.getElem?_eq_some_iff.mp hek).1] at he
      obtain rfl := Option.some.inj he
      exact ClaimSound.call hv hsound hek hw hstep hproof hvigilant
    · rw [List.getElem?_set_ne (Ne.symm hik)] at he
      exact hsound i e he

theorem claimSound_run (hrun : Run (VigilantStep Correct) [] tr factory) :
    TreeValid factory ∧ ClaimsSound Correct factory :=
  hrun.invariant
    (I := fun factory => TreeValid factory ∧ ClaimsSound Correct factory)
    (fun _ _ _ ⟨hv, hsound⟩ hstep => ⟨hstep.1.valid hv, hstep.claimSound hv hsound⟩)
    ⟨fun i e he => by simp at he, fun i e he => by simp at he⟩

/-- Defence is inherited by the games above, so a defended game ends a correct line. -/
theorem ClaimsSound.line {i : Nat} {e : Entry} (h : ClaimsSound Correct factory)
    (hv : TreeValid factory) (he : factory[i]? = some e) (hd : e.game.status = .defenderWins) :
    LineCorrect Correct factory i := by
  refine ⟨e, he, (h i e he).defended hd, fun j a hanc ha => ?_⟩
  obtain ⟨-, e', a', he', ha', -, hdef⟩ := hanc.above hv
  obtain rfl : e = e' := Option.some.inj (he.symm.trans he')
  obtain rfl : a = a' := Option.some.inj (ha.symm.trans ha')
  exact (h j a ha).defended (hdef hd)

/-- **Only correct claims are defended.**  In every history of a factory in which every first
incorrect claim is challenged before its deadline, games without a parent start from correct
outputs and no accepted proof leads from a correct output to an incorrect one, a game that
ended `DEFENDER_WINS` claims a correct output, and so does every game above it. -/
theorem defended_line_correct (hrun : Run (VigilantStep Correct) [] tr factory) {i : Nat}
    {e : Entry} (he : factory[i]? = some e) (hd : e.game.status = .defenderWins) :
    LineCorrect Correct factory i := by
  obtain ⟨hv, hsound⟩ := claimSound_run hrun
  exact hsound.line hv he hd

/-! ## Correct claims are not lost -/

/-- A game that becomes lost had a lost parent, or was over and challenged without a proof. -/
theorem resolve_lost (h : resolve im args w m g = .ok g') (hl : g'.status = .challengerWins) :
    getParentGameStatus args w = .ok .challengerWins ∨
      gameOver m g = true ∧ g.claimData.status = .challenged := by
  obtain ⟨-, -, parent, hparent, -, status, credit, hout, rfl⟩ := resolve_ok_iff.mp h
  rcases resolveOutcome_cases hout with ⟨rfl, -⟩ | ⟨-, hover, hclaim⟩
  · exact .inl hparent
  · obtain ⟨-, hstatus, -⟩ := resolveByClaim_cases hclaim
    refine .inr ⟨hover, ?_⟩
    by_contra hne
    rw [if_neg hne] at hstatus
    exact absurd (hstatus.symm.trans hl) (by decide)

/-- No game of a correct line is lost. -/
def NoneLost (Correct : OutputRoot → Prop) (factory : Factory) : Prop :=
  ∀ (i : Nat) (e : Entry), factory[i]? = some e → e.game.status = .challengerWins →
    ¬ LineCorrect Correct factory i

/-- **One call** on a game of a correct line does not lose it. -/
theorem NoneLost.call {i : Nat} {e : Entry} {op : Op} (h : NoneLost Correct factory)
    (he : factory[i]? = some e) (hw : ∀ w ∈ op.world, Sees w factory)
    (hstep : GameStep e.im e.args e.game op g')
    (hdiligent : Diligent Correct factory (.call i op)) (hl : g'.status = .challengerWins) :
    ¬ LineCorrect Correct factory i := by
  intro hline
  rcases hstep.status_cases with ⟨hs, -⟩ | ⟨w, m, rfl, hres⟩
  · exact h i e he (hs.symm.trans hl) hline
  · rcases resolve_lost hres hl with hparent | ⟨hover, hchallenged⟩
    · by_cases hp : parentIndex e.args = noParent
      · rw [getParentGameStatus, if_neg (not_not.mpr hp)] at hparent
        exact absurd (Except.ok.inj hparent) (by decide)
      · obtain ⟨p, hfactory, hstatus⟩ := getParentGameStatus_parent (hw w rfl) hparent hp
        exact h _ p hfactory hstatus (hline.parent ⟨e, p, he, hfactory, hp, rfl⟩)
    · have hopen := hdiligent w m rfl i e he (resolve_ok_iff.mp hres).2.1 hchallenged hline
      rw [hover] at hopen
      cases hopen

theorem NoneLost.step (h : NoneLost Correct factory)
    (hstep : DiligentStep Correct factory fop factory') : NoneLost Correct factory' := by
  obtain ⟨hstep, hdiligent⟩ := hstep
  have hk := hstep.keeps
  intro i e he hl hline
  cases hstep with
  | create im args w m g hw hc =>
    by_cases hlt : i < factory.length
    · rw [List.getElem?_append_left hlt] at he
      exact h i e he hl (hline.of_keeps hk he)
    · rw [List.getElem?_append_right (Nat.not_lt.mp hlt)] at he
      obtain rfl := List.mem_singleton.mp (List.mem_of_getElem? he)
      obtain ⟨balance, hinit⟩ := hc
      obtain ⟨-, -, -, -, start, -, -, -, -, rfl⟩ := initializeGame_ok_iff.mp hinit
      cases hl
  | call k ek op gk hek hw hstep =>
    by_cases hik : i = k
    · subst hik
      rw [List.getElem?_set_self (List.getElem?_eq_some_iff.mp hek).1] at he
      obtain rfl := Option.some.inj he
      exact h.call hek hw hstep hdiligent hl (hline.of_keeps hk hek)
    · rw [List.getElem?_set_ne (Ne.symm hik)] at he
      exact h i e he hl (hline.of_keeps hk he)

theorem noneLost_run (hrun : Run (DiligentStep Correct) [] tr factory) : NoneLost Correct factory :=
  hrun.invariant (fun _ _ _ h hstep => h.step hstep) (fun i e he => by simp at he)

theorem NoneLost.defended {i : Nat} {e : Entry} (h : NoneLost Correct factory)
    (he : factory[i]? = some e) (hr : e.game.status ≠ .inProgress)
    (hline : LineCorrect Correct factory i) : e.game.status = .defenderWins := by
  cases hs : e.game.status with
  | inProgress => exact absurd hs hr
  | challengerWins => exact absurd hline (h i e he hs)
  | defenderWins => rfl

/-- **A correct line never loses.**  In every history of a factory in which every challenged
claim of a correct line is proven before its deadline, a resolved game of a correct line ended
`DEFENDER_WINS`, whatever else was proposed, challenged and proven. -/
theorem correct_line_not_lost (hrun : Run (DiligentStep Correct) [] tr factory) {i : Nat}
    {e : Entry} (he : factory[i]? = some e) (hr : e.game.status ≠ .inProgress)
    (hline : LineCorrect Correct factory i) : e.game.status = .defenderWins :=
  (noneLost_run hrun).defended he hr hline

/-! ### A challenge that is answered

The root game of the example is created at 1000, challenged at 1050, proven at 1100 by the
challenger and resolved right after.  Outputs up to block 15 are correct. -/

def exampleOutputs (o : OutputRoot) : Prop := o.l2BlockNumber ≤ 15

def exampleRootCreate : FactoryOp :=
  .create exampleImmutables exampleRootArgs (exampleRegistryWorld [] 1000) exampleCreation

def exampleRoot : Game := exampleCreated exampleRootArgs ⟨0x9007, 10⟩

def exampleRootChallenged : Game :=
  { exampleRoot with
    claimData := { exampleRoot.claimData with
      counteredBy := 0xB0B
      status := .challenged
      deadline := 1250 }
    refundModeCredit := Function.update exampleRoot.refundModeCredit 0xB0B
      (exampleRoot.refundModeCredit 0xB0B + 5)
    balance := 9 }

def exampleRootProven : Game :=
  { exampleRootChallenged with
    claimData := { exampleRootChallenged.claimData with
      prover := 0xB0B
      status := .challengedAndValidProofProvided } }

def exampleRootDefended : Game :=
  { exampleRootProven with
    status := .defenderWins
    normalModeCredit := Function.update (Function.update (fun _ => 0) 0xB0B 5)
      (gameCreator exampleRootArgs) 4
    claimData := { exampleRootProven.claimData with status := .resolved }
    resolvedAt := 1101 }

theorem exampleRootArgs_creator : gameCreator exampleRootArgs = 0xA11CE := gameCreator_packArgs

/-- A call on the root game of the example, in the world of the example. -/
theorem exampleRoot_call {a b : Game} {op : Op}
    (hworld : op.world = some (exampleRegistryWorld [exampleRootEntry a] 1000))
    (h : GameStep exampleImmutables exampleRootArgs a op b) :
    FactoryStep [exampleRootEntry a] (.call 0 op) [exampleRootEntry b] := by
  refine .call 0 (exampleRootEntry a) op b rfl (fun w hw => ?_) h
  rw [hworld] at hw
  obtain rfl := Option.some.inj hw
  exact exampleRegistryWorld_sees _ _

def exampleRootWorld (g : Game) : World := exampleRegistryWorld [exampleRootEntry g] 1000

theorem exampleRoot_challenge : GameStep exampleImmutables exampleRootArgs exampleRoot
    (.challenge (exampleRootWorld exampleRoot) exampleChallenge) exampleRootChallenged := by
  refine gameStep_challenge.mpr (challenge_ok_iff.mpr
    ⟨rfl, rfl, by decide, rfl, by decide, ?_, rfl⟩)
  simp [exampleRoot, exampleCreated, exampleChallenge, exampleMsg, exampleRootArgs_creator,
    Function.update]

theorem exampleRoot_prove : GameStep exampleImmutables exampleRootArgs exampleRootChallenged
    (.prove (exampleRootWorld exampleRootChallenged) (exampleCall 1100) []) exampleRootProven :=
  gameStep_prove.mpr (prove_ok_iff.mpr ⟨rfl, by decide, rfl, rfl⟩)

theorem exampleRootProven_resolveByClaim :
    resolveByClaim exampleImmutables exampleRootArgs exampleRootProven =
      .ok (.defenderWins, exampleRootDefended.normalModeCredit) := by
  have hprover : exampleRootProven.claimData.prover ≠ gameCreator exampleRootArgs := by
    rw [exampleRootArgs_creator]
    decide
  have hstatus : exampleRootProven.claimData.status = .challengedAndValidProofProvided := rfl
  simp only [resolveByClaim, hstatus, if_neg hprover]
  exact bind_ok_iff.mpr ⟨4, checkedSub_ok_iff.mpr ⟨by decide, rfl⟩, rfl⟩

theorem exampleRoot_defend : GameStep exampleImmutables exampleRootArgs exampleRootProven
    (.resolve (exampleRootWorld exampleRootProven) (exampleCall 1101)) exampleRootDefended := by
  have hparent : getParentGameStatus exampleRootArgs (exampleRootWorld exampleRootProven) =
      .ok .defenderWins := by
    rw [getParentGameStatus, exampleRootArgs_parentIndex, if_neg (by simp)]
  have hover : gameOver (exampleCall 1101) exampleRootProven = true := by decide
  refine gameStep_resolve.mpr (resolve_ok_iff.mpr
    ⟨rfl, rfl, _, hparent, by decide, .defenderWins, _, ?_, rfl⟩)
  rw [resolveOutcome, if_neg (by decide), require, if_pos hover]
  exact exampleRootProven_resolveByClaim

theorem exampleRoot_correct {g : Game} {i : Nat} {e : Entry}
    (he : [exampleRootEntry g][i]? = some e) : exampleOutputs e.claim := by
  obtain rfl := List.mem_singleton.mp (List.mem_of_getElem? he)
  exact Nat.le_of_eq exampleRootArgs_block

/-- The steps after the creation are steps under challengers that are in time. -/
theorem exampleRoot_vigilant {a b : Game} {op : Op}
    (h : FactoryStep [exampleRootEntry a] (.call 0 op) [exampleRootEntry b]) :
    VigilantStep exampleOutputs [exampleRootEntry a] (.call 0 op) [exampleRootEntry b] := by
  refine ⟨h, ?_, ?_, ?_⟩
  · rintro im args w m ⟨⟩
  · intro i w m proofBytes e _ he _ _
    exact exampleRoot_correct he
  · intro w m _ i e he _ _ _ hincorrect
    exact absurd (exampleRoot_correct he) hincorrect

theorem exampleRoot_create_vigilant :
    VigilantStep exampleOutputs [] exampleRootCreate [exampleRootEntry exampleRoot] := by
  refine ⟨exampleRoot_create.1, ?_, ?_, ?_⟩
  · rintro im args w m ⟨⟩ -
    exact (by decide : 10 ≤ 15)
  · rintro i w m proofBytes e ⟨⟩
  · intro w m _ i e he
    cases he

theorem defended_line_correct_example :
    LineCorrect exampleOutputs [exampleRootEntry exampleRootDefended] 0 :=
  defended_line_correct ((((Run.single exampleRoot_create_vigilant).snoc
    (exampleRoot_vigilant (exampleRoot_call rfl exampleRoot_challenge))).snoc
    (exampleRoot_vigilant (exampleRoot_call rfl exampleRoot_prove))).snoc
    (exampleRoot_vigilant (exampleRoot_call rfl exampleRoot_defend))) rfl rfl

theorem exampleRoot_line (g : Game) : LineCorrect exampleOutputs [exampleRootEntry g] 0 :=
  ⟨exampleRootEntry g, rfl, Nat.le_of_eq exampleRootArgs_block,
    fun _ _ _ ha => exampleRoot_correct ha⟩

/-- The steps after the creation are steps under proposers that are in time. -/
theorem exampleRoot_diligent {a b : Game} {op : Op}
    (h : FactoryStep [exampleRootEntry a] (.call 0 op) [exampleRootEntry b])
    (hover : ∀ w m, op.context = some (w, m) → a.claimData.status = .challenged →
      gameOver m a = false) :
    DiligentStep exampleOutputs [exampleRootEntry a] (.call 0 op) [exampleRootEntry b] := by
  refine ⟨h, fun w m hcontext i e he _ hchallenged _ => ?_⟩
  obtain rfl := List.mem_singleton.mp (List.mem_of_getElem? he)
  exact hover w m hcontext hchallenged

theorem exampleRoot_create_diligent :
    DiligentStep exampleOutputs [] exampleRootCreate [exampleRootEntry exampleRoot] :=
  ⟨exampleRoot_create.1, fun _ _ _ _ _ he => by cases he⟩

theorem exampleRoot_challenge_diligent :
    DiligentStep exampleOutputs [exampleRootEntry exampleRoot]
      (.call 0 (.challenge (exampleRootWorld exampleRoot) exampleChallenge))
      [exampleRootEntry exampleRootChallenged] :=
  exampleRoot_diligent (exampleRoot_call rfl exampleRoot_challenge)
    (fun _ _ _ hchallenged => by cases hchallenged)

theorem exampleRoot_prove_diligent :
    DiligentStep exampleOutputs [exampleRootEntry exampleRootChallenged]
      (.call 0 (.prove (exampleRootWorld exampleRootChallenged) (exampleCall 1100) []))
      [exampleRootEntry exampleRootProven] := by
  refine exampleRoot_diligent (exampleRoot_call rfl exampleRoot_prove) ?_
  rintro w m ⟨⟩ -
  decide

theorem correct_line_not_lost_example : exampleRootDefended.status = .defenderWins := by
  have hdefend := exampleRoot_diligent (exampleRoot_call rfl exampleRoot_defend)
    (fun _ _ _ hchallenged => by cases hchallenged)
  exact correct_line_not_lost ((((Run.single exampleRoot_create_diligent).snoc
    exampleRoot_challenge_diligent).snoc exampleRoot_prove_diligent).snoc hdefend)
    (e := exampleRootEntry exampleRootDefended) rfl (by decide) (exampleRoot_line _)

end OpSuccinct.FaultGame
