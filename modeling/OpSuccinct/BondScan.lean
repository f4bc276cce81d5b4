import OpSuccinct.CreditView
import OpSuccinct.GameScan

/-! # The scan for claimable bonds

`get_oldest_claimable_bond_game_address` asks three things of a game: that its claim is
resolved, that the registry has it finalized, and that its credit view is not zero.  Of a
reachable game that is what `claimCredit` asks (`reported_iff_claimable`), but for a game
that is not closed and not proper, whose view shows the other ledger.

The window is described as reaching up to the latest game, but the loop takes as many games
as there are below it, so the latest game is never looked at
(`latest_game_is_never_claimed`).  And it looks at games of every type: one that does not
answer ends the scan.  So the oldest claimable game is found exactly when it is not the
latest one, the three questions are answered for it as `claimCredit` would, and nothing
before it stops the scan (`claimable_bond_found_iff`).
-/
namespace OpSuccinct.FaultProof

open FaultGame (World ClaimData claimCredit)

/-! ## The scan -/

/-- **What the proposer reads on L1**: the games, what the registry of a game type's
implementation answers to `isGameFinalized`, and the credit view of games of other types. -/
structure BondView where
  factory : Factory
  isGameFinalized : Nat → Address → Option Bool
  otherCredit : Address → Address → Option Nat

variable (l1 : BondView) (gameType : Nat) (claimant : Address)

/-- `game.credit(claimant)`. -/
def BondView.credit (game : FactoryGame) : Except ScanError Nat :=
  match game.contract with
  | .opSuccinct _ g => .ok (FaultGame.credit g claimant)
  | .other _ _ _ => called (l1.otherCredit game.proxy claimant)

def isGameFinalized (gameAddress : Address) : Except ScanError Bool :=
  called (l1.isGameFinalized gameType gameAddress)

def isClaimable (game : FactoryGame) : Except ScanError Bool := do
  let claimData ← game.contract.claimData
  if claimData.status ≠ .resolved then
    return false
  let finalized ← isGameFinalized l1 gameType game.proxy
  if finalized = false then
    return false
  let credit ← l1.credit claimant game
  return decide (credit ≠ 0)

/-- One turn of the scan. -/
def visitClaimable (game : FactoryGame) : Except ScanError (Option Address) := do
  let claimable ← isClaimable l1 gameType claimant game
  return if claimable = true then some game.proxy else none

def getOldestClaimableBondGameAddress (maxGamesToCheckForBondClaiming : Nat) :
    Except ScanError (Option Address) :=
  match fetchLatestGameIndex l1.factory with
  | none => pure none
  | some latestGameIndex =>
    let oldestGameIndex := latestGameIndex - maxGamesToCheckForBondClaiming
    let gamesToCheck := min latestGameIndex maxGamesToCheckForBondClaiming
    scanFrom (fetchGameByIndex l1.factory) (visitClaimable l1 gameType claimant) gamesToCheck
      oldestGameIndex

/-! ## What a visit finds -/

variable {l1 gameType claimant} {game : FactoryGame}

/-- **A game is reported claimable**: all three questions are answered yes. -/
def Reported (l1 : BondView) (gameType : Nat) (claimant : Address) (game : FactoryGame) : Prop :=
  ∃ claimData credit, game.contract.claimData = .ok claimData ∧ claimData.status = .resolved ∧
    l1.isGameFinalized gameType game.proxy = some true ∧
    l1.credit claimant game = .ok credit ∧ credit ≠ 0

/-- **A game is passed over**: one of the questions is answered no, and those before it are
answered. -/
def Unreported (l1 : BondView) (gameType : Nat) (claimant : Address) (game : FactoryGame) :
    Prop :=
  ∃ claimData, game.contract.claimData = .ok claimData ∧
    (claimData.status ≠ .resolved ∨ l1.isGameFinalized gameType game.proxy = some false ∨
      l1.isGameFinalized gameType game.proxy = some true ∧ l1.credit claimant game = .ok 0)

theorem isClaimable_true_iff :
    isClaimable l1 gameType claimant game = .ok true ↔ Reported l1 gameType claimant game := by
  simp only [isClaimable, isGameFinalized, bind_ok_iff, Reported]
  constructor
  · rintro ⟨claimData, hclaim, h⟩
    by_cases hstatus : claimData.status = .resolved
    · rw [if_neg (not_not_intro hstatus)] at h
      obtain ⟨finalized, hfinalized, h⟩ := bind_ok_iff.mp h
      cases finalized with
      | false => simp at h
      | true =>
        obtain ⟨credit, hcredit, h⟩ := bind_ok_iff.mp h
        exact ⟨claimData, credit, hclaim, hstatus, called_ok_iff.mp hfinalized, hcredit,
          of_decide_eq_true (pure_ok_iff.mp h)⟩
    · simp [hstatus] at h
  · rintro ⟨claimData, credit, hclaim, hstatus, hfinalized, hcredit, hne⟩
    refine ⟨claimData, hclaim, ?_⟩
    rw [if_neg (not_not_intro hstatus), hfinalized]
    refine bind_ok_iff.mpr ⟨true, rfl, ?_⟩
    exact bind_ok_iff.mpr ⟨credit, hcredit, pure_ok_iff.mpr (decide_eq_true hne)⟩

theorem isClaimable_false_iff :
    isClaimable l1 gameType claimant game = .ok false ↔ Unreported l1 gameType claimant game := by
  simp only [isClaimable, isGameFinalized, bind_ok_iff, Unreported]
  refine exists_congr fun claimData => and_congr_right fun _ => ?_
  by_cases hstatus : claimData.status = .resolved
  · rw [if_neg (not_not_intro hstatus)]
    cases hfinalized : l1.isGameFinalized gameType game.proxy with
    | none => simp [hstatus, called, bind_ok_iff]
    | some finalized =>
      cases finalized with
      | false => simp [hstatus, called, bind_ok_iff]
      | true => simp [hstatus, called, bind_ok_iff]
  · simp [hstatus]

theorem visitClaimable_some_iff {address : Address} :
    visitClaimable l1 gameType claimant game = .ok (some address) ↔
      Reported l1 gameType claimant game ∧ game.proxy = address := by
  rw [visitClaimable, bind_ok_iff, ← isClaimable_true_iff]
  constructor
  · rintro ⟨claimable, hclaimable, h⟩
    cases claimable with
    | false => simp at h
    | true => exact ⟨hclaimable, by simpa using h⟩
  · rintro ⟨hclaimable, rfl⟩
    exact ⟨true, hclaimable, rfl⟩

theorem visitClaimable_none_iff :
    visitClaimable l1 gameType claimant game = .ok none ↔
      Unreported l1 gameType claimant game := by
  rw [visitClaimable, bind_ok_iff, ← isClaimable_false_iff]
  constructor
  · rintro ⟨claimable, hclaimable, h⟩
    cases claimable with
    | false => exact hclaimable
    | true => simp at h
  · exact fun hclaimable => ⟨false, hclaimable, rfl⟩

/-! ## What the scan finds -/

variable {world : Address → World} {m : Msg} {i maxGamesToCheck : Nat}

/-- The scan takes the first game that is reported, of all but the latest of the window. -/
theorem getOldestClaimable_some_iff {address : Address} :
    getOldestClaimableBondGameAddress l1 gameType claimant maxGamesToCheck = .ok (some address) ↔
      ∃ j, InWindow l1.factory maxGamesToCheck j ∧ j + 1 < l1.factory.games.length ∧
        (∃ game, l1.factory.games[j]? = some game ∧ Reported l1 gameType claimant game ∧
          game.proxy = address) ∧
        ∀ n, InWindow l1.factory maxGamesToCheck n → n < j →
          ∃ game, l1.factory.games[n]? = some game ∧ Unreported l1 gameType claimant game := by
  unfold getOldestClaimableBondGameAddress fetchLatestGameIndex
  by_cases hempty : l1.factory.games.length = 0
  · simp [hempty]
  · simp only [hempty, if_false, scanFrom_some_iff, Passed, fetchGameByIndex, called_ok_iff,
      visitClaimable_some_iff, visitClaimable_none_iff, InWindow]
    constructor
    · rintro ⟨j, hle, hlt, hfound, hbefore⟩
      exact ⟨j, ⟨hle, by omega⟩, by omega, hfound, fun n hn => hbefore n hn.1⟩
    · rintro ⟨j, ⟨hle, -⟩, hlt, hfound, hbefore⟩
      exact ⟨j, hle, by omega, hfound, fun n hn hnj => hbefore n ⟨hn, by omega⟩ hnj⟩

theorem getOldestClaimable_none_iff :
    getOldestClaimableBondGameAddress l1 gameType claimant maxGamesToCheck = .ok none ↔
      ∀ n, InWindow l1.factory maxGamesToCheck n → n + 1 < l1.factory.games.length →
        ∃ game, l1.factory.games[n]? = some game ∧ Unreported l1 gameType claimant game := by
  unfold getOldestClaimableBondGameAddress fetchLatestGameIndex
  by_cases hempty : l1.factory.games.length = 0
  · simp [hempty]
  · simp only [hempty, if_false, scanFrom_none_iff, Passed, fetchGameByIndex, called_ok_iff,
      visitClaimable_none_iff, InWindow]
    constructor
    · exact fun h n hn hlt => h n hn.1 (by omega)
    · exact fun h n hn hlt => h n ⟨hn, by omega⟩ (by omega)

/-! ## Completeness of bond claiming -/

/-- **A claimable game** at an index: an OP Succinct game on which `claimCredit` for the
claimant would succeed, in the world its call would see. -/
def Claimable (l1 : BondView) (world : Address → World) (m : Msg) (claimant : Address) (i : Nat)
    (game : FactoryGame) : Prop :=
  l1.factory.games[i]? = some game ∧ ∃ args g paid, game.contract = .opSuccinct args g ∧
    claimCredit (world game.proxy) m g claimant = .ok paid

/-- The claimable game of the window with the lowest index. -/
def OldestClaimable (l1 : BondView) (world : Address → World) (m : Msg) (claimant : Address)
    (maxGamesToCheck i : Nat) (game : FactoryGame) : Prop :=
  Claimable l1 world m claimant i game ∧ InWindow l1.factory maxGamesToCheck i ∧
    ∀ j, InWindow l1.factory maxGamesToCheck j → j < i →
      ∀ game', ¬ Claimable l1 world m claimant j game'

/-- No game of the window is claimable. -/
def NoneClaimable (l1 : BondView) (world : Address → World) (m : Msg) (claimant : Address)
    (maxGamesToCheck : Nat) : Prop :=
  ∀ i, InWindow l1.factory maxGamesToCheck i → ∀ game, ¬ Claimable l1 world m claimant i game

/-- **Completeness**: the oldest claimable game is the scan's answer, and none if there is
none. -/
structure FindsClaimable (l1 : BondView) (gameType : Nat) (world : Address → World) (m : Msg)
    (claimant : Address) (maxGamesToCheck : Nat) : Prop where
  oldest : ∀ i game, OldestClaimable l1 world m claimant maxGamesToCheck i game →
    getOldestClaimableBondGameAddress l1 gameType claimant maxGamesToCheck = .ok (some game.proxy)
  none : NoneClaimable l1 world m claimant maxGamesToCheck →
    getOldestClaimableBondGameAddress l1 gameType claimant maxGamesToCheck = .ok none

/-- **The condition**: the oldest claimable game is not the latest one, it is reported, and
every game of the window before it is passed over; and if there is none, every game of the
window but the latest is passed over. -/
structure ScanClear (l1 : BondView) (gameType : Nat) (world : Address → World) (m : Msg)
    (claimant : Address) (maxGamesToCheck : Nat) : Prop where
  oldest : ∀ i game, OldestClaimable l1 world m claimant maxGamesToCheck i game →
    i + 1 < l1.factory.games.length ∧ Reported l1 gameType claimant game ∧
      ∀ j game', InWindow l1.factory maxGamesToCheck j → j < i →
        l1.factory.games[j]? = some game' → Unreported l1 gameType claimant game'
  none : NoneClaimable l1 world m claimant maxGamesToCheck →
    ∀ j game, InWindow l1.factory maxGamesToCheck j → j + 1 < l1.factory.games.length →
      l1.factory.games[j]? = some game → Unreported l1 gameType claimant game

/-- **When the oldest claimable bond is found.**  That a game is reported is linked to what
`claimCredit` asks of it by `reported_iff_claimable`. -/
theorem claimable_bond_found_iff :
    FindsClaimable l1 gameType world m claimant maxGamesToCheck ↔
      ScanClear l1 gameType world m claimant maxGamesToCheck := by
  constructor
  · intro h
    refine ⟨fun i game holdest => ?_, fun hnone j game hj hlt hgame => ?_⟩
    · obtain ⟨j, hwindow, hlt, ⟨found, hfound, hreported, hproxy⟩, hbefore⟩ :=
        getOldestClaimable_some_iff.mp (h.oldest i game holdest)
      obtain rfl := Factory.eq_of_proxy_eq hfound holdest.1.1 hproxy
      obtain rfl : found = game := Option.some.inj (hfound.symm.trans holdest.1.1)
      refine ⟨hlt, hreported, fun n game' hn hni hgame' => ?_⟩
      obtain ⟨passed, hpassed, hunreported⟩ := hbefore n hn hni
      obtain rfl : passed = game' := Option.some.inj (hpassed.symm.trans hgame')
      exact hunreported
    · obtain ⟨passed, hpassed, hunreported⟩ :=
        getOldestClaimable_none_iff.mp (h.none hnone) j hj hlt
      obtain rfl : passed = game := Option.some.inj (hpassed.symm.trans hgame)
      exact hunreported
  · intro h
    refine ⟨fun i game holdest => ?_, fun hnone => ?_⟩
    · obtain ⟨hlt, hreported, hbefore⟩ := h.oldest i game holdest
      refine getOldestClaimable_some_iff.mpr
        ⟨i, holdest.2.1, hlt, ⟨game, holdest.1.1, hreported, rfl⟩, fun n hn hni => ?_⟩
      have hget := List.getElem?_eq_getElem hn.2
      exact ⟨_, hget, hbefore n _ hn hni hget⟩
    · refine getOldestClaimable_none_iff.mpr fun n hn hlt => ?_
      have hget := List.getElem?_eq_getElem hn.2
      exact ⟨_, hget, h.none hnone n _ hn hlt hget⟩

/-! ### A single game

The example game lost and was closed for refund; it is the only one of the factory. -/

def exampleRefunded : FaultGame.Game :=
  { FaultGame.exampleLost with bondDistributionMode := .refund }

theorem exampleRefunded_closed :
    FaultGame.GameStep FaultGame.exampleImmutables FaultGame.exampleArgs FaultGame.exampleLost
      (.closeGame FaultGame.exampleImproper (FaultGame.exampleCall 2000)) exampleRefunded :=
  FaultGame.gameStep_closeGame.mpr
    ⟨rfl, FaultGame.closeGameBody_ok_iff.mpr (.inr ⟨rfl, rfl, rfl⟩)⟩

theorem exampleSingle_nodup :
    (([⟨0x9A3E, .opSuccinct FaultGame.exampleArgs exampleRefunded⟩] : List FactoryGame).map
      (·.proxy)).Nodup := by
  simp

def exampleSingle : BondView where
  factory := ⟨[⟨0x9A3E, .opSuccinct FaultGame.exampleArgs exampleRefunded⟩], exampleSingle_nodup⟩
  isGameFinalized _ _ := some true
  otherCredit _ _ := none

/-- **The failing input.**  The creator could claim a credit of 4 from the only game, and the
scan finds none, whatever the window. -/
theorem latest_game_is_never_claimed :
    FaultGame.GameStep FaultGame.exampleImmutables FaultGame.exampleArgs FaultGame.exampleLost
      (.closeGame FaultGame.exampleImproper (FaultGame.exampleCall 2000)) exampleRefunded ∧
    OldestClaimable exampleSingle (fun _ => FaultGame.exampleImproper) (FaultGame.exampleCall 2010)
      (FaultGame.gameCreator FaultGame.exampleArgs) 100 0
      ⟨0x9A3E, .opSuccinct FaultGame.exampleArgs exampleRefunded⟩ ∧
    getOldestClaimableBondGameAddress exampleSingle 42
      (FaultGame.gameCreator FaultGame.exampleArgs) 100 = .ok none ∧
    ¬ FindsClaimable exampleSingle 42 (fun _ => FaultGame.exampleImproper)
      (FaultGame.exampleCall 2010) (FaultGame.gameCreator FaultGame.exampleArgs) 100 := by
  have hcredit := FaultGame.exampleLost_creator.2
  have hclaim : ∃ paid, claimCredit FaultGame.exampleImproper (FaultGame.exampleCall 2010)
      exampleRefunded (FaultGame.gameCreator FaultGame.exampleArgs) = .ok paid := by
    refine ⟨(_, 4), FaultGame.claimCredit_ok_iff.mpr ⟨rfl, exampleRefunded, rfl, ?_, by decide, ?_,
      rfl⟩⟩
    · exact FaultGame.recipientCredit_ok_iff.mpr (.inl ⟨rfl, hcredit⟩)
    · decide
  obtain ⟨paid, hpaid⟩ := hclaim
  have holdest : OldestClaimable exampleSingle (fun _ => FaultGame.exampleImproper)
      (FaultGame.exampleCall 2010) (FaultGame.gameCreator FaultGame.exampleArgs) 100 0
      ⟨0x9A3E, .opSuccinct FaultGame.exampleArgs exampleRefunded⟩ :=
    ⟨⟨rfl, _, _, paid, rfl, hpaid⟩, by simp [InWindow, exampleSingle], fun j _ hj => by omega⟩
  have hnone : getOldestClaimableBondGameAddress exampleSingle 42
      (FaultGame.gameCreator FaultGame.exampleArgs) 100 = .ok none := rfl
  refine ⟨exampleRefunded_closed, holdest, hnone, fun hfinds => ?_⟩
  have hfound := hfinds.oldest 0 _ holdest
  rw [hnone] at hfound
  cases hfound

/-! ### Games a claim is possible on -/

/-- **Of a resolved and finalized game that is closed or proper, the scan asks what
`claimCredit` asks**, if it was reached by calls. -/
theorem reported_iff_claimable {args : Bytes} {g : FaultGame.Game}
    {ledger : List FaultGame.Transfer} (hcontract : game.contract = .opSuccinct args g)
    (hbonded : FaultGame.Bonded g ledger) (hw : (world game.proxy).RegistrySound)
    (hfinal : (world game.proxy).isGameFinalized g = true)
    (hl1 : l1.isGameFinalized gameType game.proxy = some true)
    (hstatus : g.claimData.status = .resolved)
    (hmode : g.bondDistributionMode ≠ .undecided ∨ (world game.proxy).isGameProper g = true)
    (hvalue : m.value = 0) :
    Reported l1 gameType claimant game ↔
      ∃ paid, claimCredit (world game.proxy) m g claimant = .ok paid := by
  have hagrees : FaultGame.transferred (claimCredit (world game.proxy) m g claimant) =
      some (FaultGame.credit g claimant) :=
    (hbonded.creditShown hw hfinal hvalue).agrees hmode
  constructor
  · rintro ⟨claimData, credit, -, -, -, hcredit, hne⟩
    rw [BondView.credit, hcontract] at hcredit
    obtain rfl := Except.ok.inj hcredit
    cases hclaim : claimCredit (world game.proxy) m g claimant with
    | ok paid => exact ⟨paid, rfl⟩
    | error error =>
      rw [hclaim] at hagrees
      cases error with
      | noCreditToClaim => exact absurd (Option.some.inj hagrees).symm hne
      | _ => cases hagrees
  · rintro ⟨⟨closed, amount⟩, hclaim⟩
    rw [hclaim] at hagrees
    have hamount : amount = FaultGame.credit g claimant := Option.some.inj hagrees
    obtain ⟨-, _, -, -, hne, -, -⟩ := FaultGame.claimCredit_ok_iff.mp hclaim
    refine ⟨g.claimData, amount, by rw [hcontract]; rfl, hstatus, hl1, ?_, hne⟩
    rw [BondView.credit, hcontract, hamount]

end OpSuccinct.FaultProof
