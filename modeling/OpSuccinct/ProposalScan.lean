import Mathlib.Data.Nat.Find
import OpSuccinct.GameScan

/-! # The scan for the latest valid proposal

`get_latest_valid_proposal` of the fault proof service (`fault-proof/src/lib.rs`):
the proposer goes from the factory's latest game down to the first whose claim is
the output root of its block.

A read that fails ends the scan, and a game of another type is not told apart.  So
the answer is the latest OP Succinct game with a canonical claim exactly when every
game above it answers a block of the chain with another root than the block's
(`latest_valid_proposal_found_iff`).
-/
namespace OpSuccinct.FaultProof

/-! ## The scan -/

variable (keccak256 : Bytes → Bytes32)

/-- One turn of the scan: the game's block, if its claim is the block's output root. -/
def visitProposal (l2 : L2Chain) (game : FactoryGame) : Except ScanError (Option Nat) := do
  let blockNumber ← game.contract.l2BlockNumber
  let gameClaim ← game.contract.rootClaim
  let outputRoot ← computeOutputRootAtBlock keccak256 l2 blockNumber
  return if outputRoot = gameClaim then some blockNumber else none

/-- The block and the index of the latest valid proposal. -/
def getLatestValidProposal (factory : Factory) (l2 : L2Chain) :
    Except ScanError (Option (Nat × Nat)) :=
  match fetchLatestGameIndex factory with
  | none => pure none
  | some gameIndex =>
    scanBack (fetchGameByIndex factory) (visitProposal keccak256 l2) gameIndex

variable {keccak256} {l2 : L2Chain} {factory : Factory} {game : FactoryGame} {i n : Nat}

/-! ## What a visit finds -/

/-- The game answers with a canonical claim for block `n`. -/
def ClaimsCanonical (keccak256 : Bytes → Bytes32) (l2 : L2Chain) (game : FactoryGame) (n : Nat) :
    Prop :=
  ∃ root, game.contract.l2BlockNumber = .ok n ∧ game.contract.rootClaim = .ok root ∧
    l2.Canonical keccak256 n root

/-- **A game is dismissed** when it answers a block of the chain and another root than
the block's. -/
def Dismissed (keccak256 : Bytes → Bytes32) (l2 : L2Chain) (game : FactoryGame) : Prop :=
  ∃ n root, game.contract.l2BlockNumber = .ok n ∧ game.contract.rootClaim = .ok root ∧
    n ≤ l2.head ∧ l2.outputRoot keccak256 n ≠ root

theorem visitProposal_some_iff :
    visitProposal keccak256 l2 game = .ok (some n) ↔ ClaimsCanonical keccak256 l2 game n := by
  simp only [visitProposal, bind_ok_iff, computeOutputRootAtBlock_ok_iff, pure_ok_iff,
    ClaimsCanonical]
  constructor
  · rintro ⟨n', hn, root, hroot, output, hcanonical, h⟩
    split at h
    · rename_i heq
      cases h
      exact ⟨root, hn, hroot, heq ▸ hcanonical⟩
    · cases h
  · rintro ⟨root, hn, hroot, hcanonical⟩
    exact ⟨n, hn, root, hroot, root, hcanonical, if_pos rfl⟩

theorem visitProposal_none_iff :
    visitProposal keccak256 l2 game = .ok none ↔ Dismissed keccak256 l2 game := by
  simp only [visitProposal, bind_ok_iff, computeOutputRootAtBlock_ok_iff, pure_ok_iff, Dismissed]
  constructor
  · rintro ⟨n, hn, root, hroot, output, ⟨hle, houtput⟩, h⟩
    split at h
    · cases h
    · rename_i hne
      exact ⟨n, root, hn, hroot, hle, houtput ▸ hne⟩
  · rintro ⟨n, root, hn, hroot, hle, hne⟩
    exact ⟨n, hn, root, hroot, _, ⟨hle, rfl⟩, if_neg hne⟩

/-- A dismissed game makes no canonical claim. -/
theorem Dismissed.not_claimsCanonical (h : Dismissed keccak256 l2 game) :
    ¬ ClaimsCanonical keccak256 l2 game n := by
  rintro ⟨root, hn, hroot, -, heq⟩
  obtain ⟨n', root', hn', hroot', -, hne⟩ := h
  cases hn.symm.trans hn'
  cases hroot.symm.trans hroot'
  exact hne heq

/-- What the scan passes over, game by game. -/
theorem passed_proposal_iff {j : Nat} :
    Passed (fetchGameByIndex factory) (visitProposal keccak256 l2) j ↔
      ∃ game, factory.games[j]? = some game ∧ Dismissed keccak256 l2 game := by
  simp only [Passed, fetchGameByIndex, called_ok_iff, visitProposal_none_iff]

/-- **When the scan answers with a game**: the game makes a canonical claim, and every
later one is dismissed. -/
theorem getLatestValidProposal_some_iff :
    getLatestValidProposal keccak256 factory l2 = .ok (some (n, i)) ↔
      (∃ game, factory.games[i]? = some game ∧ ClaimsCanonical keccak256 l2 game n) ∧
        ∀ j game, i < j → factory.games[j]? = some game → Dismissed keccak256 l2 game := by
  unfold getLatestValidProposal fetchLatestGameIndex
  by_cases hempty : factory.games.length = 0
  · simp [List.eq_nil_of_length_eq_zero hempty]
  · simp only [hempty, if_false, scanBack_some_iff, passed_proposal_iff, fetchGameByIndex,
      called_ok_iff, visitProposal_some_iff]
    constructor
    · rintro ⟨-, hfound, hlater⟩
      refine ⟨hfound, fun j game hj hgame => ?_⟩
      have hlt := (List.getElem?_eq_some_iff.mp hgame).1
      obtain ⟨other, hother, hdismissed⟩ := hlater j hj (by omega)
      cases hother.symm.trans hgame
      exact hdismissed
    · rintro ⟨⟨game, hgame, hclaims⟩, hlater⟩
      have hlt := (List.getElem?_eq_some_iff.mp hgame).1
      refine ⟨by omega, ⟨game, hgame, hclaims⟩, fun j hj hle => ?_⟩
      have hget := List.getElem?_eq_getElem (l := factory.games) (i := j) (by omega)
      exact ⟨_, hget, hlater j _ hj hget⟩

/-- **When the scan answers with none**: every game is dismissed. -/
theorem getLatestValidProposal_none_iff :
    getLatestValidProposal keccak256 factory l2 = .ok none ↔
      ∀ (j : Nat) game, factory.games[j]? = some game → Dismissed keccak256 l2 game := by
  unfold getLatestValidProposal fetchLatestGameIndex
  by_cases hempty : factory.games.length = 0
  · simp [List.eq_nil_of_length_eq_zero hempty]
  · simp only [hempty, if_false, scanBack_none_iff, passed_proposal_iff]
    constructor
    · intro hall j game hgame
      have hlt := (List.getElem?_eq_some_iff.mp hgame).1
      obtain ⟨other, hother, hdismissed⟩ := hall j (by omega)
      cases hother.symm.trans hgame
      exact hdismissed
    · intro hall j hle
      have hget := List.getElem?_eq_getElem (l := factory.games) (i := j) (by omega)
      exact ⟨_, hget, hall j _ hget⟩

/-! ## The proposer finds its parent -/

/-- **A valid proposal** at an index: an OP Succinct game with a canonical claim for
block `n`. -/
def ValidProposal (keccak256 : Bytes → Bytes32) (l2 : L2Chain) (factory : Factory) (n i : Nat) :
    Prop :=
  ∃ game args g, factory.games[i]? = some game ∧ game.contract = .opSuccinct args g ∧
    FaultGame.l2BlockNumber args = n ∧ l2.Canonical keccak256 n (FaultGame.rootClaim args)

/-- The valid proposal of the greatest index. -/
def LatestValid (keccak256 : Bytes → Bytes32) (l2 : L2Chain) (factory : Factory) (n i : Nat) :
    Prop :=
  ValidProposal keccak256 l2 factory n i ∧
    ∀ n' j, i < j → ¬ ValidProposal keccak256 l2 factory n' j

/-- **The proposer finds its parent**: the scan answers with the latest valid proposal, or
with none when there is none. -/
def FindsLatestValid (keccak256 : Bytes → Bytes32) (l2 : L2Chain) (factory : Factory) : Prop :=
  (∀ n i, LatestValid keccak256 l2 factory n i →
    getLatestValidProposal keccak256 factory l2 = .ok (some (n, i))) ∧
  ((∀ n i, ¬ ValidProposal keccak256 l2 factory n i) →
    getLatestValidProposal keccak256 factory l2 = .ok none)

/-- Every game with no valid proposal at or above it is dismissed. -/
def DismissedAbove (keccak256 : Bytes → Bytes32) (l2 : L2Chain) (factory : Factory) : Prop :=
  ∀ j game, factory.games[j]? = some game →
    (∀ n i, j ≤ i → ¬ ValidProposal keccak256 l2 factory n i) → Dismissed keccak256 l2 game

theorem ValidProposal.claimsCanonical (h : ValidProposal keccak256 l2 factory n i) :
    ∃ game, factory.games[i]? = some game ∧ ClaimsCanonical keccak256 l2 game n := by
  obtain ⟨game, args, g, hgame, hcontract, rfl, hcanonical⟩ := h
  refine ⟨game, hgame, FaultGame.rootClaim args, ?_, ?_, hcanonical⟩
  · rw [hcontract]
    rfl
  · rw [hcontract]
    rfl

/-- Where there is a valid proposal, there is a latest one. -/
theorem ValidProposal.exists_latest (h : ValidProposal keccak256 l2 factory n i) :
    ∃ n' i', i ≤ i' ∧ LatestValid keccak256 l2 factory n' i' := by
  classical
  let Valid (j : Nat) : Prop := ∃ n, ValidProposal keccak256 l2 factory n j
  have hbound : ∀ j, Valid j → j ≤ factory.games.length := by
    rintro j ⟨n, game, _, _, hgame, -⟩
    exact Nat.le_of_lt (List.getElem?_eq_some_iff.mp hgame).1
  have hi : Valid i := ⟨n, h⟩
  obtain ⟨n', hn'⟩ : Valid (Nat.findGreatest Valid factory.games.length) :=
    Nat.findGreatest_spec (hbound i hi) hi
  refine ⟨n', _, Nat.le_findGreatest (hbound i hi) hi, hn', fun m j hj hvalid => ?_⟩
  exact Nat.findGreatest_is_greatest hj (hbound j ⟨m, hvalid⟩) ⟨m, hvalid⟩

/-- **When the proposer finds its parent.**  For every factory and L2 chain: the scan
answers with the latest valid proposal, or with none when there is none, if and only if
every game above all valid proposals answers a block of the chain with another root than
the block's. -/
theorem latest_valid_proposal_found_iff (keccak256 : Bytes → Bytes32) (l2 : L2Chain)
    (factory : Factory) :
    FindsLatestValid keccak256 l2 factory ↔ DismissedAbove keccak256 l2 factory := by
  constructor
  · rintro ⟨hsome, hnone⟩ j game hgame habove
    by_cases hvalid : ∃ n i, ValidProposal keccak256 l2 factory n i
    · obtain ⟨n, i, hvalid⟩ := hvalid
      obtain ⟨n', i', -, hlatest⟩ := hvalid.exists_latest
      have hlt : i' < j := Nat.lt_of_not_le fun hle => habove n' i' hle hlatest.1
      exact (getLatestValidProposal_some_iff.mp (hsome n' i' hlatest)).2 j game hlt hgame
    · have hscan := hnone fun n i h => hvalid ⟨n, i, h⟩
      exact getLatestValidProposal_none_iff.mp hscan j game hgame
  · intro habove
    constructor
    · rintro n i ⟨hvalid, hlatest⟩
      refine getLatestValidProposal_some_iff.mpr ⟨hvalid.claimsCanonical, fun j game hj hgame => ?_⟩
      exact habove j game hgame fun n' i' hle => hlatest n' i' (by omega)
    · intro hvalid
      exact getLatestValidProposal_none_iff.mpr fun j game hgame =>
        habove j game hgame fun n i _ => hvalid n i

/-! ### A claim beyond the head

Game 0 claims the output root of block 5.  Game 1 claims block 11, beyond the head. -/

def exampleProposals : Factory where
  games :=
    [⟨0xA0, .opSuccinct (FaultGame.packArgs 0xC 7 0 5 FaultGame.noParent) (exampleOpenGame 2000)⟩,
     ⟨0xA1, .opSuccinct (FaultGame.packArgs 0xC 9 0 11 0) (exampleOpenGame 2000)⟩]
  proxies_nodup := by decide

theorem exampleProposals_latest :
    LatestValid exampleKeccak exampleChain exampleProposals 5 0 := by
  refine ⟨⟨_, _, _, rfl, rfl, ?_, ?_⟩, fun n j hj hvalid => ?_⟩
  · decide
  · exact ⟨by decide, by decide⟩
  · obtain ⟨game, args, g, hgame, hcontract, hn, hcanonical⟩ := hvalid
    match j, hj with
    | 1, _ =>
      cases hgame
      cases hcontract
      rw [← hn] at hcanonical
      exact absurd hcanonical.1 (by decide)
    | j + 2, _ => cases hgame

/-- **The failing input.**  A game that claims a block beyond the head ends the scan with
an error, so the valid proposal below it is not found. -/
theorem unknown_block_hides_parent :
    getLatestValidProposal exampleKeccak exampleProposals exampleChain =
      .error .l2BlockNotFound ∧
    ¬ FindsLatestValid exampleKeccak exampleChain exampleProposals := by
  have hscan : getLatestValidProposal exampleKeccak exampleProposals exampleChain =
      .error .l2BlockNotFound := by decide +kernel
  refine ⟨hscan, fun hfinds => ?_⟩
  have hfound := hfinds.1 5 0 exampleProposals_latest
  rw [hscan] at hfound
  cases hfound

end OpSuccinct.FaultProof
