import OpSuccinct.BondAwards
import OpSuccinct.BondScan
import OpSuccinct.OldestFirst

/-! # The proposer collects its bonds

`handle_bond_claiming` of the fault proof proposer (`fault-proof/src/proposer.rs`), in a world
that goes on while it runs: a pass claims from one game at most, the oldest of the window that
is reported claimable, and between its scan and its transaction games are created, played and
claimed from by anyone.

While the registry calls the games proper, nothing but a claim takes a credit away, so the games
the proposer has a credit with are served oldest first.  Each of them but the latest pays its
credit in full after as many claims as there were unsettled games up to it, or leaves the window
(`bonds_claimed`).
-/
namespace OpSuccinct.FaultProof

open FaultGame (Immutables World Op Account AccountStep CreatedAccount Bonded GameStep paymentsTo
  claimCredit closeGameBody)
open Transition

/-! ## What a call does to a credit -/

section Credit
variable {im : Immutables} {args : Bytes} {w : World} {m : Msg} {g g' : FaultGame.Game}
  {a a' : Account} {recipient : Address} {op : Op}

/-- The registry of a call calls every game proper, and finalized only what is resolved; the
call is made at or after a time. -/
def Proper (clock : Nat) (op : Op) : Prop :=
  ∀ w m, op.context = some (w, m) →
    w.RegistrySound ∧ (∀ g, w.isGameProper g = true) ∧ clock ≤ m.timestamp ∧ m.timestamp < 2 ^ 64

theorem Proper.registrySound {clock : Nat} (h : Proper clock op) : op.RegistrySound := by
  cases op with
  | closeGame w m => exact (h w m rfl).1
  | claimCredit w m recipient => exact (h w m rfl).1
  | _ => trivial

/-- Closing a proper game changes nobody's credit. -/
theorem credit_closeGameBody (h : closeGameBody w g = .ok g')
    (hproper : ∀ g, w.isGameProper g = true) :
    FaultGame.credit g' recipient = FaultGame.credit g recipient := by
  rcases FaultGame.closeGameBody_ok_iff.mp h with ⟨-, rfl⟩ | ⟨hmode, -, rfl⟩
  · rfl
  · simp [FaultGame.credit, hmode, hproper]

/-- A claim takes the whole credit of its recipient, and of nobody else. -/
theorem credit_claimCredit (recipient : Address) {claimant : Address} {amount : Nat}
    (h : claimCredit w m g claimant = .ok (g', amount)) (hproper : ∀ g, w.isGameProper g = true) :
    amount = FaultGame.credit g claimant ∧ FaultGame.credit g' recipient =
      if recipient = claimant then 0 else FaultGame.credit g recipient := by
  obtain ⟨-, closed, hclosed, hcredit, -, -, rfl⟩ := FaultGame.claimCredit_ok_iff.mp h
  refine ⟨?_, ?_⟩
  · rw [← credit_closeGameBody hclosed hproper]
    exact (FaultGame.credit_of_recipientCredit hcredit).symm
  · rw [← credit_closeGameBody hclosed hproper]
    by_cases hr : recipient = claimant
    · subst hr
      simp [FaultGame.credit]
    · simp [FaultGame.credit, hr]

/-- **What a call does to the credit of a resolved game**: it leaves it and pays nothing, or it
pays it in full. -/
theorem credit_of_call {clock : Nat} (h : Bonded a.game a.ledger) (hproper : Proper clock op)
    (hresolved : a.game.status ≠ .inProgress) (hstep : AccountStep im args a op a') :
    FaultGame.credit a'.game recipient = FaultGame.credit a.game recipient ∧
        paymentsTo recipient a'.ledger = paymentsTo recipient a.ledger ∨
      FaultGame.credit a'.game recipient = 0 ∧ paymentsTo recipient a'.ledger =
        paymentsTo recipient a.ledger ++ [FaultGame.credit a.game recipient] := by
  obtain ⟨transfers, hstep, hledger⟩ := hstep
  rw [hledger, FaultGame.paymentsTo_append]
  cases op with
  | initializeGame w m =>
    obtain ⟨g', hi, -⟩ := bind_ok_iff.mp hstep
    exact absurd h.initialized (by simp [(FaultGame.initializeGame_ok_iff.mp hi).1])
  | challenge w m =>
    obtain ⟨g', hc, -⟩ := bind_ok_iff.mp hstep
    exact absurd (FaultGame.challenge_ok_iff.mp hc).1 (h.unchallengeable hresolved)
  | prove w m proofBytes =>
    obtain ⟨g', hp, heq⟩ := bind_ok_iff.mp hstep
    obtain ⟨hgame, rfl⟩ := Prod.mk.inj (Except.ok.inj heq)
    obtain ⟨-, -, -, rfl⟩ := FaultGame.prove_ok_iff.mp hp
    rw [← hgame]
    exact .inl ⟨rfl, by simp⟩
  | resolve w m =>
    obtain ⟨g', hr, -⟩ := bind_ok_iff.mp hstep
    exact absurd (FaultGame.resolve_ok_iff.mp hr).2.1 hresolved
  | closeGame w m =>
    obtain ⟨g', hc, heq⟩ := bind_ok_iff.mp hstep
    obtain ⟨hgame, rfl⟩ := Prod.mk.inj (Except.ok.inj heq)
    obtain ⟨_, -, hc⟩ := bind_ok_iff.mp hc
    rw [← hgame]
    exact .inl ⟨credit_closeGameBody hc (hproper w m rfl).2.1, by simp⟩
  | claimCredit w m claimant =>
    obtain ⟨⟨g', amount⟩, hc, heq⟩ := bind_ok_iff.mp hstep
    obtain ⟨hgame, rfl⟩ := Prod.mk.inj (Except.ok.inj heq)
    obtain ⟨rfl, hcredit⟩ := credit_claimCredit recipient hc (hproper w m rfl).2.1
    rw [← hgame]
    by_cases hr : recipient = claimant
    · subst hr
      rw [if_pos rfl] at hcredit
      exact .inr ⟨hcredit, by simp⟩
    · rw [if_neg hr] at hcredit
      exact .inl ⟨hcredit, by simp [Ne.symm hr]⟩
  | donate amount =>
    obtain ⟨hgame, rfl⟩ := Prod.mk.inj (Except.ok.inj hstep)
    rw [← hgame]
    exact .inl ⟨rfl, by simp⟩

/-- A game is over by a time. -/
def OverBy (clock : Nat) (g : FaultGame.Game) : Prop :=
  g.claimData.deadline < clock ∨ g.claimData.prover ≠ zeroAddress

/-- **A claim that is resolved and over stays so**: it cannot be proven any more. -/
theorem resolved_of_call {clock : Nat} (hproper : Proper clock op) (hi : g.initialized = true)
    (hclaim : g.claimData.status = .resolved) (hover : OverBy clock g)
    (hstep : GameStep im args g op g') :
    g'.claimData.status = .resolved ∧ OverBy clock g' := by
  cases hstep.change hi with
  | challenge hc =>
    have hstatus := (FaultGame.challenge_ok_iff.mp hc).1
    rw [hclaim] at hstatus
    cases hstatus
  | @prove w m proofBytes _ hp =>
    have hopen := (FaultGame.prove_ok_iff.mp hp).2.1
    obtain ⟨-, -, hle, hlt⟩ := hproper w m rfl
    have htime : toUint64 m.timestamp = m.timestamp := Nat.mod_eq_of_lt hlt
    have hgame : FaultGame.gameOver m g = true := by
      rw [FaultGame.gameOver_iff, htime]
      exact hover.imp_left fun h => Nat.lt_of_lt_of_le h hle
    rw [hopen] at hgame
    cases hgame
  | resolve hr =>
    obtain ⟨-, -, _, -, -, _, _, -, rfl⟩ := FaultGame.resolve_ok_iff.mp hr
    exact ⟨rfl, hover⟩
  | bonds => exact ⟨hclaim, hover⟩

end Credit

/-! ## The world of the claims -/

/-- What the proposer claims with, as configured. -/
structure BondClaimer where
  gameType : Nat
  maxGamesToCheckForBondClaiming : Nat
  proverAddress : Address
  proverAddress_ne_zero : proverAddress ≠ zeroAddress

/-- `claimCredit(prover_address)`, sent by the proposer at a time. -/
def BondClaimer.call (c : BondClaimer) (timestamp : Nat) : Msg :=
  ⟨c.proverAddress, 0, timestamp, c.proverAddress_ne_zero⟩

/-- A game that the factory lists, with the ETH it moved. -/
structure BondedGame where
  im : Immutables
  args : Bytes
  account : Account

/-- The games, the registry's verdicts on them, the L1 time, and the index of the game that a
claim was sent to whose receipt is awaited. -/
structure BondScene where
  games : List BondedGame
  isGameFinalized : Nat → Bool
  clock : Nat
  claiming : Option Nat

inductive BondOp
  | scan
  | landed (w : World)
  | failed
  | created
  | called (i : Nat) (op : Op)
  | finalized (i : Nat)
  | passed

def isClaimLanded : BondOp → Bool
  | .landed _ => true
  | _ => false

section Steps
variable (c : BondClaimer)

/-- What the proposer reads on L1 is what the scene has. -/
structure Reads (s : BondScene) (l1 : BondView) : Prop where
  games : l1.factory.games.map (·.contract) =
    s.games.map fun b => .opSuccinct b.args b.account.game
  isGameFinalized : ∀ (i : Nat) (game : FactoryGame), l1.factory.games[i]? = some game →
    l1.isGameFinalized c.gameType game.proxy = some (s.isGameFinalized i)

/-- The game a pass claims from, if any. -/
def BondClaimer.handleBondClaiming (l1 : BondView) : Except ScanError (Option Address) :=
  getOldestClaimableBondGameAddress l1 c.gameType c.proverAddress c.maxGamesToCheckForBondClaiming

/-- The claim on a game: it pays, or it reverts and changes nothing. -/
inductive ClaimTx (w : World) (m : Msg) (b : BondedGame) : Account → Prop
  | claimed {account : Account} :
      AccountStep b.im b.args b.account (.claimCredit w m c.proverAddress) account →
      ClaimTx w m b account
  | reverted {e : FaultGame.GameError} :
      claimCredit w m b.account.game c.proverAddress = .error e → ClaimTx w m b b.account

/-- **One step of the proposer's claims in their world.**  A scan finds a game to claim from or
none; then the transaction lands, or the pass fails; a claim that lands later than the proposer
waits for it is a call by anyone. -/
inductive BondStep : BondScene → BondOp → BondScene → Prop
  | found (s : BondScene) (l1 : BondView) (i : Nat) (game : FactoryGame) : s.claiming = none →
      Reads c s l1 → l1.factory.games[i]? = some game →
      c.handleBondClaiming l1 = .ok (some game.proxy) →
      BondStep s .scan { s with claiming := some i }
  | skipped (s : BondScene) (l1 : BondView) : s.claiming = none → Reads c s l1 →
      (∀ address, c.handleBondClaiming l1 ≠ .ok (some address)) → BondStep s .scan s
  | landed (s : BondScene) (w : World) (i : Nat) (b : BondedGame) (account : Account) :
      s.claiming = some i → s.games[i]? = some b → ClaimTx c w (c.call s.clock) b account →
      BondStep s (.landed w)
        { s with games := s.games.set i { b with account := account }, claiming := none }
  | failed (s : BondScene) : BondStep s .failed { s with claiming := none }
  | created (s : BondScene) (b : BondedGame) (w : World) (m : Msg) :
      CreatedAccount b.im b.args w m b.account →
      BondStep s .created { s with games := s.games ++ [b] }
  | called (s : BondScene) (i : Nat) (b : BondedGame) (op : Op) (account : Account) :
      s.games[i]? = some b → AccountStep b.im b.args b.account op account →
      BondStep s (.called i op) { s with games := s.games.set i { b with account := account } }
  | finalized (s : BondScene) (i : Nat) (b : BondedGame) : s.games[i]? = some b →
      b.account.game.status ≠ .inProgress →
      BondStep s (.finalized i)
        { s with isGameFinalized := Function.update s.isGameFinalized i true }
  | passed (s : BondScene) (clock : Nat) : s.clock ≤ clock → clock < 2 ^ 64 →
      BondStep s .passed { s with clock := clock }

/-- **The registry calls every game proper**, and answers the calls what it answers the
proposer. -/
structure ProperRegistry (s : BondScene) (op : BondOp) : Prop where
  called : ∀ i gop, op = .called i gop → Proper s.clock gop
  landed : ∀ w, op = .landed w → w.RegistrySound ∧ (∀ g, w.isGameProper g = true) ∧
    ∀ (i : Nat) (b : BondedGame), s.claiming = some i → s.games[i]? = some b →
      s.isGameFinalized i = true → w.isGameFinalized b.account.game = true

def ProperStep (s : BondScene) (op : BondOp) (t : BondScene) : Prop :=
  BondStep c s op t ∧ ProperRegistry s op

/-- The oldest game of the window. -/
def BondScene.oldest (s : BondScene) : Nat := s.games.length - 1 - c.maxGamesToCheckForBondClaiming

/-- **A game of the window is unsettled**: it may still pay the proposer. -/
def BondScene.Unsettled (s : BondScene) (i : Nat) : Prop :=
  s.oldest c ≤ i ∧ ∃ b, s.games[i]? = some b ∧
    (b.account.game.status = .inProgress ∨ FaultGame.credit b.account.game c.proverAddress ≠ 0)

/-- **A bond is due**: the game is resolved, over and finalized, the proposer has a credit with
it, and it is not the latest game. -/
structure BondScene.Due (s : BondScene) (i : Nat) (b : BondedGame) : Prop where
  listed : s.games[i]? = some b
  notLatest : i + 1 < s.games.length
  finalized : s.isGameFinalized i = true
  resolved : b.account.game.claimData.status = .resolved
  gameOver : OverBy s.clock b.account.game
  credit : FaultGame.credit b.account.game c.proverAddress ≠ 0

end Steps

/-- Every game's ledger is in order, what is finalized is resolved, and so is the game that a
claim was sent to. -/
structure BondScene.WellFormed (s : BondScene) : Prop where
  bonded : ∀ (i : Nat) (b : BondedGame), s.games[i]? = some b →
    Bonded b.account.game b.account.ledger
  finalized : ∀ i, s.isGameFinalized i = true →
    ∃ b, s.games[i]? = some b ∧ b.account.game.status ≠ .inProgress
  claiming : ∀ i, s.claiming = some i → s.isGameFinalized i = true
  clock_lt : s.clock < 2 ^ 64

variable {c : BondClaimer} {s t : BondScene} {op : BondOp} {tr : List BondOp} {i : Nat}
  {b : BondedGame} {l1 : BondView}

/-! ## What a step does to a game -/

/-- **What the calls of one step do to an account**, at a time. -/
structure Called (recipient : Address) (clock : Nat) (a a' : Account) : Prop where
  bonded : Bonded a'.game a'.ledger
  status : a.game.status ≠ .inProgress → a'.game.status ≠ .inProgress
  credit : a.game.status ≠ .inProgress →
    FaultGame.credit a'.game recipient = FaultGame.credit a.game recipient ∧
        paymentsTo recipient a'.ledger = paymentsTo recipient a.ledger ∨
      FaultGame.credit a'.game recipient = 0 ∧ paymentsTo recipient a'.ledger =
        paymentsTo recipient a.ledger ++ [FaultGame.credit a.game recipient]
  resolved : a.game.claimData.status = .resolved → OverBy clock a.game →
    a'.game.claimData.status = .resolved ∧ OverBy clock a'.game

theorem Called.refl {recipient : Address} {clock : Nat} {a : Account}
    (h : Bonded a.game a.ledger) : Called recipient clock a a :=
  ⟨h, id, fun _ => .inl ⟨rfl, rfl⟩, fun hclaim hover => ⟨hclaim, hover⟩⟩

theorem called_of_step {recipient : Address} {clock : Nat} {im : Immutables} {args : Bytes}
    {a a' : Account} {gop : Op} (h : Bonded a.game a.ledger) (hproper : Proper clock gop)
    (hstep : AccountStep im args a gop a') : Called recipient clock a a' := by
  have hgame : GameStep im args a.game gop a'.game := by
    obtain ⟨transfers, hstep, -⟩ := hstep
    exact ⟨transfers, hstep⟩
  refine ⟨h.step hproper.registrySound hstep, fun hresolved => ?_,
    fun hresolved => credit_of_call h hproper hresolved hstep,
    fun hclaim hover => resolved_of_call hproper h.initialized hclaim hover hgame⟩
  rw [(hgame.status_eq hresolved).1]
  exact hresolved

/-- The claim of the proposer is such a call, or reverts. -/
theorem ClaimTx.called {w : World} {account : Account}
    (h : ClaimTx c w (c.call s.clock) b account) (hb : Bonded b.account.game b.account.ledger)
    (hsound : w.RegistrySound) (hproper : ∀ g, w.isGameProper g = true)
    (hclock : s.clock < 2 ^ 64) : Called c.proverAddress s.clock b.account account := by
  cases h with
  | claimed hstep =>
    refine called_of_step hb ?_ hstep
    rintro _ _ ⟨⟩
    exact ⟨hsound, hproper, Nat.le_refl _, hclock⟩
  | reverted => exact .refl hb

/-- **What a step does to the games**: a listed game stays, and is called at most. -/
theorem ProperStep.games (h : ProperStep c s op t) (hs : s.WellFormed) :
    s.games.length ≤ t.games.length ∧ ∀ (i : Nat) (b : BondedGame), s.games[i]? = some b →
      ∃ account, t.games[i]? = some { b with account := account } ∧
        Called c.proverAddress s.clock b.account account := by
  obtain ⟨hstep, hproper⟩ := h
  have hsame : ∀ (i : Nat) (b : BondedGame), s.games[i]? = some b →
      ∃ account, s.games[i]? = some { b with account := account } ∧
        Called c.proverAddress s.clock b.account account :=
    fun i b hb => ⟨b.account, hb, .refl (hs.bonded i b hb)⟩
  have hset : ∀ (j : Nat) (b₀ : BondedGame) (account : Account), s.games[j]? = some b₀ →
      Called c.proverAddress s.clock b₀.account account → ∀ (i : Nat) (b : BondedGame),
      s.games[i]? = some b → ∃ account', (s.games.set j { b₀ with account := account })[i]? =
        some { b with account := account' } ∧
        Called c.proverAddress s.clock b.account account' := by
    intro j b₀ account hj hcalled i b hb
    by_cases hij : j = i
    · subst hij
      obtain rfl := Option.some.inj (hj.symm.trans hb)
      exact ⟨account, List.getElem?_set_self (List.getElem?_eq_some_iff.mp hj).1, hcalled⟩
    · rw [List.getElem?_set_ne hij]
      exact hsame i b hb
  cases hstep with
  | found => exact ⟨Nat.le_refl _, hsame⟩
  | skipped => exact ⟨Nat.le_refl _, hsame⟩
  | landed w j b₀ account hclaiming hj htx =>
    obtain ⟨hsound, hall, -⟩ := hproper.landed w rfl
    refine ⟨by rw [List.length_set], hset j b₀ account hj ?_⟩
    exact htx.called (hs.bonded j b₀ hj) hsound hall hs.clock_lt
  | failed => exact ⟨Nat.le_refl _, hsame⟩
  | created b₀ w m hcreated =>
    refine ⟨by simp, fun i b hb => ⟨b.account, ?_, .refl (hs.bonded i b hb)⟩⟩
    rw [List.getElem?_append_left (List.getElem?_eq_some_iff.mp hb).1]
    exact hb
  | called j b₀ gop account hj hstep =>
    refine ⟨by rw [List.length_set], hset j b₀ account hj ?_⟩
    exact called_of_step (hs.bonded j b₀ hj) (hproper.called j gop rfl) hstep
  | finalized => exact ⟨Nat.le_refl _, hsame⟩
  | passed => exact ⟨Nat.le_refl _, hsame⟩

/-- The proposer's view of a game is the game. -/
theorem Reads.game {game : FactoryGame} (h : Reads c s l1)
    (hgame : l1.factory.games[i]? = some game) :
    ∃ b, s.games[i]? = some b ∧ game.contract = .opSuccinct b.args b.account.game := by
  have hget := congrArg (·[i]?) h.games
  simp only [List.getElem?_map, hgame, Option.map_some] at hget
  obtain ⟨b, hb, hcontract⟩ := Option.map_eq_some_iff.mp hget.symm
  exact ⟨b, hb, hcontract.symm⟩

theorem Reads.length (h : Reads c s l1) : l1.factory.games.length = s.games.length := by
  simpa using congrArg List.length h.games

/-- What the scan reports is resolved in the registry's eyes, with a credit. -/
theorem Reads.reported_iff {game : FactoryGame} (h : Reads c s l1)
    (hgame : l1.factory.games[i]? = some game) (hb : s.games[i]? = some b) :
    Reported l1 c.gameType c.proverAddress game ↔
      b.account.game.claimData.status = .resolved ∧ s.isGameFinalized i = true ∧
        FaultGame.credit b.account.game c.proverAddress ≠ 0 := by
  obtain ⟨b', hb', hcontract⟩ := h.game hgame
  obtain rfl := Option.some.inj (hb.symm.trans hb')
  rw [Reported, h.isGameFinalized i game hgame, BondView.credit, hcontract]
  constructor
  · rintro ⟨claimData, credit, hclaim, hstatus, hfinalized, hcredit, hne⟩
    cases hclaim
    cases hcredit
    exact ⟨hstatus, Option.some.inj hfinalized, hne⟩
  · rintro ⟨hstatus, hfinalized, hne⟩
    exact ⟨_, _, rfl, hstatus, congrArg some hfinalized, rfl, hne⟩

/-- A pass takes a game it has a credit with, and none above a game that is due. -/
theorem claims_oldest {j : Nat} {game : FactoryGame} (h : Reads c s l1)
    (hgame : l1.factory.games[j]? = some game)
    (hscan : c.handleBondClaiming l1 = .ok (some game.proxy)) :
    s.Unsettled c j ∧ s.isGameFinalized j = true ∧
      ∀ i b, s.Due c i b → s.oldest c ≤ i → j ≤ i := by
  obtain ⟨n, hwindow, -, ⟨found, hfound, hreported, hproxy⟩, hbefore⟩ :=
    getOldestClaimable_some_iff.mp hscan
  obtain rfl : n = j := l1.factory.eq_of_proxy_eq hfound hgame hproxy
  obtain rfl := Option.some.inj (hfound.symm.trans hgame)
  obtain ⟨b, hb, -⟩ := h.game hgame
  obtain ⟨-, hfinalized, hcredit⟩ := (h.reported_iff hgame hb).mp hreported
  have hlow : s.oldest c ≤ n := by
    have hle := hwindow.1
    rw [h.length] at hle
    exact hle
  refine ⟨⟨hlow, b, hb, .inr hcredit⟩, hfinalized, fun i b' hdue hwin => ?_⟩
  by_contra hlt
  have hi : InWindow l1.factory c.maxGamesToCheckForBondClaiming i := by
    refine ⟨?_, ?_⟩
    · rw [h.length]
      exact hwin
    · rw [h.length]
      exact (List.getElem?_eq_some_iff.mp hdue.listed).1
  obtain ⟨passed, hpassed, hunreported⟩ := hbefore i hi (Nat.not_le.mp hlt)
  have hdue' : Reported l1 c.gameType c.proverAddress passed :=
    (h.reported_iff hpassed hdue.listed).mpr ⟨hdue.resolved, hdue.finalized, hdue.credit⟩
  have htrue := isClaimable_true_iff.mpr hdue'
  have hfalse := isClaimable_false_iff.mpr hunreported
  rw [htrue] at hfalse
  cases hfalse

/-! ## Steps -/

theorem ProperStep.wellFormed (h : ProperStep c s op t) (hs : s.WellFormed) : t.WellFormed := by
  obtain ⟨hlen, hgames⟩ := h.games hs
  have hbonded : ∀ (i : Nat) (b : BondedGame), i < s.games.length → t.games[i]? = some b →
      Bonded b.account.game b.account.ledger := by
    intro i b hi hb
    obtain ⟨account, hlater, hcalled⟩ := hgames i _ (List.getElem?_eq_getElem hi)
    obtain rfl := Option.some.inj (hb.symm.trans hlater)
    exact hcalled.bonded
  have hfinalized : ∀ i, s.isGameFinalized i = true →
      ∃ b, t.games[i]? = some b ∧ b.account.game.status ≠ .inProgress := by
    intro i hi
    obtain ⟨b, hb, hstatus⟩ := hs.finalized i hi
    obtain ⟨account, hlater, hcalled⟩ := hgames i b hb
    exact ⟨_, hlater, hcalled.status hstatus⟩
  obtain ⟨hstep, hproper⟩ := h
  cases hstep with
  | found l1 j game hidle hreads hgame hscan =>
    refine ⟨hs.bonded, hs.finalized, ?_, hs.clock_lt⟩
    rintro _ ⟨⟩
    exact (claims_oldest hreads hgame hscan).2.1
  | skipped => exact hs
  | landed w j b₀ account hclaiming hj htx =>
    refine ⟨fun i b hb => hbonded i b ?_ hb, hfinalized, nofun, hs.clock_lt⟩
    have hlt := (List.getElem?_eq_some_iff.mp hb).1
    rw [List.length_set] at hlt
    exact hlt
  | failed => exact ⟨hs.bonded, hs.finalized, nofun, hs.clock_lt⟩
  | created b₀ w m hcreated =>
    refine ⟨fun i b hb => ?_, hfinalized, hs.claiming, hs.clock_lt⟩
    by_cases hlt : i < s.games.length
    · exact hbonded i b hlt hb
    · have hnew : (s.games ++ [b₀])[i]? = some b := hb
      rw [List.getElem?_append_right (Nat.not_lt.mp hlt)] at hnew
      obtain rfl := List.mem_singleton.mp (List.mem_of_getElem? hnew)
      exact hcreated.bonded
  | called j b₀ gop account hj hstep =>
    refine ⟨fun i b hb => hbonded i b ?_ hb, hfinalized, hs.claiming, hs.clock_lt⟩
    have hlt := (List.getElem?_eq_some_iff.mp hb).1
    rw [List.length_set] at hlt
    exact hlt
  | finalized j b₀ hj hstatus =>
    refine ⟨hs.bonded, fun i hi => ?_, fun i hi => ?_, hs.clock_lt⟩
    · by_cases hij : i = j
      · subst hij
        exact ⟨b₀, hj, hstatus⟩
      · have hold : Function.update s.isGameFinalized j true i = true := hi
        rw [Function.update_of_ne hij] at hold
        exact hs.finalized i hold
    · have hold := hs.claiming i hi
      by_cases hij : i = j
      · subst hij
        exact Function.update_self ..
      · exact (Function.update_of_ne hij ..).trans hold
  | passed clock hle hlt => exact ⟨hs.bonded, hs.finalized, hs.claiming, hlt⟩

/-- The window only moves up. -/
theorem ProperStep.oldest_le (h : ProperStep c s op t) (hs : s.WellFormed) :
    s.oldest c ≤ t.oldest c := by
  have hlen := (h.games hs).1
  unfold BondScene.oldest
  omega

/-- **A settled game stays settled.** -/
theorem ProperStep.unsettled (h : ProperStep c s op t) (hs : s.WellFormed)
    (hi : i < s.games.length) (ht : t.Unsettled c i) : s.Unsettled c i := by
  obtain ⟨hwindow, b', hb', hopen⟩ := ht
  have hb := List.getElem?_eq_getElem hi
  obtain ⟨account, hlater, hcalled⟩ := (h.games hs).2 i _ hb
  obtain rfl := Option.some.inj (hb'.symm.trans hlater)
  refine ⟨(h.oldest_le hs).trans hwindow, _, hb, ?_⟩
  by_contra hsettled
  obtain ⟨hstatus, hcredit⟩ := not_or.mp hsettled
  have hzero := Decidable.not_not.mp hcredit
  rcases hopen with hprogress | hcredit'
  · exact hcalled.status hstatus hprogress
  · rcases hcalled.credit hstatus with ⟨heq, -⟩ | ⟨heq, -⟩
    · exact hcredit' (heq.trans hzero)
    · exact hcredit' heq

/-- Time and verdicts only move on. -/
theorem BondStep.clock_le (h : BondStep c s op t) :
    s.clock ≤ t.clock ∧ ∀ i, s.isGameFinalized i = true → t.isGameFinalized i = true := by
  cases h with
  | finalized j =>
    refine ⟨Nat.le_refl _, fun i hi => ?_⟩
    by_cases hij : i = j
    · subst hij
      exact Function.update_self ..
    · exact (Function.update_of_ne hij ..).trans hi
  | passed clock hle => exact ⟨hle, fun _ h => h⟩
  | _ => exact ⟨Nat.le_refl _, fun _ h => h⟩

/-- **A bond stays due** while the game is unsettled. -/
theorem ProperStep.due (h : ProperStep c s op t) (hs : s.WellFormed) (hdue : s.Due c i b)
    (ht : t.Unsettled c i) : ∃ account, t.Due c i { b with account := account } := by
  obtain ⟨hlen, hgames⟩ := h.games hs
  obtain ⟨hclock, hfinalized⟩ := h.1.clock_le
  obtain ⟨account, hlater, hcalled⟩ := hgames i b hdue.listed
  obtain ⟨hclaim, hover⟩ := hcalled.resolved hdue.resolved hdue.gameOver
  obtain ⟨b₀, hb₀, hstatus⟩ := hs.finalized i hdue.finalized
  obtain rfl := Option.some.inj (hb₀.symm.trans hdue.listed)
  obtain ⟨-, b', hb', hopen⟩ := ht
  obtain rfl := Option.some.inj (hb'.symm.trans hlater)
  have hlast := hdue.notLatest
  refine ⟨account, hlater, by omega, hfinalized i hdue.finalized, hclaim, ?_, ?_⟩
  · exact hover.imp_left fun hlt => Nat.lt_of_lt_of_le hlt hclock
  · exact hopen.resolve_left (hcalled.status hstatus)

/-- **A claim that lands** leaves its game settled. -/
theorem settled_landed {w : World} (h : ProperStep c s (.landed w) t) (hs : s.WellFormed) :
    t.claiming = none ∧ ∃ j, s.claiming = some j ∧ ¬ t.Unsettled c j := by
  obtain ⟨hstep, hproper⟩ := h
  cases hstep with
  | landed _ j b₀ account hclaiming hj htx =>
    refine ⟨rfl, j, hclaiming, ?_⟩
    rintro ⟨-, b', hb', hopen⟩
    have hb'' : (s.games.set j { b₀ with account := account })[j]? = some b' := hb'
    rw [List.getElem?_set_self (List.getElem?_eq_some_iff.mp hj).1] at hb''
    obtain rfl := Option.some.inj hb''
    obtain ⟨hsound, hall, hregistry⟩ := hproper.landed w rfl
    have hfinalized := hs.claiming j hclaiming
    obtain ⟨b₁, hb₁, hstatus⟩ := hs.finalized j hfinalized
    obtain rfl := Option.some.inj (hj.symm.trans hb₁)
    have hbonded := hs.bonded j b₀ hj
    have hcalled := htx.called hbonded hsound hall hs.clock_lt
    have hcredit := hopen.resolve_left (hcalled.status hstatus)
    cases htx with
    | claimed hclaim =>
      obtain ⟨transfers, hstep, -⟩ := hclaim
      obtain ⟨⟨g', amount⟩, hc, heq⟩ := bind_ok_iff.mp hstep
      obtain ⟨hgame, -⟩ := Prod.mk.inj (Except.ok.inj heq)
      obtain ⟨-, hzero⟩ := credit_claimCredit c.proverAddress hc hall
      rw [if_pos rfl, hgame] at hzero
      exact hcredit hzero
    | @reverted e hc =>
      -- a credit that the registry's verdict lets be claimed is paid
      have hshown : FaultGame.CreditShown w (c.call s.clock) b₀.account.game c.proverAddress :=
        hbonded.creditShown hsound (hregistry j b₀ hclaiming hj hfinalized) rfl
      have hpaid := hshown.agrees (.inr (hall _))
      rw [hc] at hpaid
      cases e with
      | noCreditToClaim => exact hcredit (Option.some.inj hpaid).symm
      | _ => cases hpaid

/-! ## The bonds are a queue -/

/-- **The proposer serves its bonds oldest first.** -/
theorem claims_oldestFirst : OldestFirst (fun s op t => s.WellFormed ∧ ProperStep c s op t)
    (fun s => s.games.length) (BondScene.Unsettled c)
    (fun s i => s.oldest c ≤ i ∧ ∃ b, s.Due c i b) BondScene.claiming isClaimLanded where
  arrives := fun ⟨hs, hstep⟩ => (hstep.games hs).1
  closed := fun ⟨hs, hstep⟩ hi ht => hstep.unsettled hs hi ht
  keeps := fun ⟨hs, hstep⟩ ⟨_, b, hdue⟩ ht => by
    obtain ⟨account, hlater⟩ := hstep.due hs hdue ht
    exact ⟨ht.1, _, hlater⟩
  takes := by
    rintro s t op ⟨-, hstep, -⟩ hlanded
    cases hstep with
    | found l1 j game hidle hreads hgame hscan =>
      obtain ⟨hopen, -, holdest⟩ := claims_oldest hreads hgame hscan
      refine .inr (.inr ⟨hidle, fun i j' _ hj' ⟨hwindow, b, hdue⟩ => ?_⟩)
      obtain rfl := Option.some.inj hj'
      exact ⟨hopen, holdest i b hdue hwindow⟩
    | landed => cases hlanded
    | failed => exact .inr (.inl rfl)
    | _ => exact .inl rfl
  serves := by
    rintro s t op ⟨hs, hstep⟩ hlanded
    cases op with
    | landed w => exact settled_landed hstep hs
    | _ => cases hlanded

/-- **What became of a credit**: the game still owes it, or paid it. -/
def OwesOrPaid (recipient : Address) (credit : Nat) (a : Account) : Prop :=
  a.game.status ≠ .inProgress ∧
    (FaultGame.credit a.game recipient = credit ∧ paymentsTo recipient a.ledger = [] ∨
      FaultGame.credit a.game recipient = 0 ∧ paymentsTo recipient a.ledger = [credit])

theorem OwesOrPaid.called {recipient : Address} {clock credit : Nat} {a a' : Account}
    (h : OwesOrPaid recipient credit a) (hcalled : Called recipient clock a a') :
    OwesOrPaid recipient credit a' := by
  obtain ⟨hstatus, howes⟩ := h
  refine ⟨hcalled.status hstatus, ?_⟩
  rcases hcalled.credit hstatus with ⟨hsame, hnone⟩ | ⟨hzero, hpaid⟩
  · rw [hsame, hnone]
    exact howes
  · rcases howes with ⟨hcredit, hempty⟩ | ⟨-, hone⟩
    · exact .inr ⟨hzero, by rw [hpaid, hempty, hcredit, List.nil_append]⟩
    · -- nobody is paid twice
      rcases hcalled.bonded.paidOnce recipient with hempty | ⟨⟨v, hv⟩, -⟩
      · simp [hpaid] at hempty
      · simp [hpaid, hone] at hv

/-- A due credit was not paid yet. -/
theorem BondScene.Due.owes (h : s.Due c i b) (hs : s.WellFormed) :
    OwesOrPaid c.proverAddress (FaultGame.credit b.account.game c.proverAddress) b.account := by
  obtain ⟨b', hb', hstatus⟩ := hs.finalized i h.finalized
  obtain rfl := Option.some.inj (hb'.symm.trans h.listed)
  refine ⟨hstatus, .inl ⟨rfl, ?_⟩⟩
  rcases (hs.bonded i _ h.listed).paidOnce c.proverAddress with hempty | ⟨-, hnormal, hrefund⟩
  · exact hempty
  · exact absurd (by simp [FaultGame.credit, hnormal, hrefund]) h.credit

/-- **Every due bond is collected.**  In every run in which the registry calls the games proper,
whatever is created, called and claimed at any moment by anyone: once as many of the proposer's
claims have landed as there were unsettled games in the window up to a game whose bond is due,
that game has paid the proposer its credit in full, or it has left the window. -/
theorem bonds_claimed (hrun : Run (ProperStep c) s tr t) (hs : s.WellFormed)
    (hidle : s.claiming = none) (hdue : s.Due c i b)
    (hlanded : openUpTo (BondScene.Unsettled c) s i ≤ served isClaimLanded tr) :
    ∃ account, t.games[i]? = some { b with account := account } ∧
      (paymentsTo c.proverAddress account.ledger =
          [FaultGame.credit b.account.game c.proverAddress] ∨
        i < t.games.length - 1 - c.maxGamesToCheckForBondClaiming) := by
  have hsettled : ¬ t.Unsettled c i :=
    claims_oldestFirst.not_open
      (hrun.strengthen (I := BondScene.WellFormed) (fun _ _ _ h hstep => hstep.wellFormed h)
        (fun _ _ _ h hstep => ⟨h, hstep⟩) hs) hidle
      (List.getElem?_eq_some_iff.mp hdue.listed).1 (fun hopen => ⟨hopen.1, b, hdue⟩) hlanded
  have hkept : t.WellFormed ∧ ∃ account, t.games[i]? = some { b with account := account } ∧
      OwesOrPaid c.proverAddress (FaultGame.credit b.account.game c.proverAddress) account := by
    refine hrun.invariant (I := fun t => t.WellFormed ∧ ∃ account,
      t.games[i]? = some { b with account := account } ∧ OwesOrPaid c.proverAddress
        (FaultGame.credit b.account.game c.proverAddress) account) ?_
      ⟨hs, b.account, hdue.listed, hdue.owes hs⟩
    rintro a op d ⟨ha, account, hlisted, howes⟩ hstep
    obtain ⟨account', hlater, hcalled⟩ := (hstep.games ha).2 i _ hlisted
    exact ⟨hstep.wellFormed ha, account', hlater, howes.called hcalled⟩
  obtain ⟨-, account, hlisted, hstatus, hpaid⟩ := hkept
  refine ⟨account, hlisted, ?_⟩
  rcases hpaid with ⟨hcredit, -⟩ | ⟨-, hpaid⟩
  · refine .inr (Nat.not_le.mp fun hwindow => hsettled ⟨hwindow, _, hlisted, .inr ?_⟩)
    rw [hcredit]
    exact hdue.credit
  · exact .inl hpaid

/-! ### A bond to collect

The factory lists two games that were challenged and not answered; the challenger collects its
credit of 9 from the first, at 2000. -/

def exampleClaimer : BondClaimer where
  gameType := 42
  maxGamesToCheckForBondClaiming := 100
  proverAddress := 0xB0B
  proverAddress_ne_zero := FaultGame.exampleCaller_ne_zero

def exampleUnansweredAccount : Account :=
  ⟨FaultGame.exampleUnanswered, FaultGame.exampleLedger ++ [.deposit 0xB0B 5]⟩

def exampleUnansweredGame : BondedGame :=
  ⟨FaultGame.exampleImmutables, FaultGame.exampleArgs, exampleUnansweredAccount⟩

/-- The account once the credit of 9 is claimed. -/
def exampleCollected : Account where
  game := { FaultGame.exampleUnanswered with
    bondDistributionMode := .normal
    refundModeCredit := Function.update FaultGame.exampleUnanswered.refundModeCredit 0xB0B 0
    normalModeCredit := Function.update FaultGame.exampleUnanswered.normalModeCredit 0xB0B 0
    balance := 0 }
  ledger := exampleUnansweredAccount.ledger ++ [.payment 0xB0B 9]

def exampleBondScene (account : Account) : BondScene where
  games := [{ exampleUnansweredGame with account := account }, exampleUnansweredGame]
  isGameFinalized i := decide (i < 2)
  clock := 2000
  claiming := none

theorem exampleBondProxies_nodup (a b : GameContract) :
    (([⟨0xA0, a⟩, ⟨0xA1, b⟩] : List FactoryGame).map (·.proxy)).Nodup := by
  simp

def exampleBondL1 : BondView where
  factory := ⟨[⟨0xA0, .opSuccinct FaultGame.exampleArgs FaultGame.exampleUnanswered⟩,
    ⟨0xA1, .opSuccinct FaultGame.exampleArgs FaultGame.exampleUnanswered⟩],
    exampleBondProxies_nodup _ _⟩
  isGameFinalized _ _ := some true
  otherCredit _ _ := none

theorem exampleUnansweredAccount_bonded :
    Bonded exampleUnansweredAccount.game exampleUnansweredAccount.ledger :=
  ((FaultGame.exampleAccount_created.bonded).challenge FaultGame.exampleGame_challenge_ok |>.resolve
    FaultGame.exampleUnanswered_resolved).1

theorem exampleBondScene_listed {i : Nat} {b : BondedGame}
    (hb : (exampleBondScene exampleUnansweredAccount).games[i]? = some b) :
    i < 2 ∧ b = exampleUnansweredGame := by
  obtain ⟨hlt, -⟩ := List.getElem?_eq_some_iff.mp hb
  refine ⟨hlt, ?_⟩
  have hmem := List.mem_of_getElem? hb
  simp only [exampleBondScene, List.mem_cons, List.not_mem_nil, or_false] at hmem
  rcases hmem with rfl | rfl
  · rfl
  · rfl

theorem exampleBondScene_wellFormed :
    (exampleBondScene exampleUnansweredAccount).WellFormed := by
  refine ⟨fun i b hb => ?_, fun i hi => ?_, nofun, (by decide : 2000 < 2 ^ 64)⟩
  · obtain ⟨-, rfl⟩ := exampleBondScene_listed hb
    exact exampleUnansweredAccount_bonded
  · have hlt : i < 2 := of_decide_eq_true hi
    have hget := List.getElem?_eq_getElem
      (l := (exampleBondScene exampleUnansweredAccount).games) hlt
    obtain ⟨-, hb⟩ := exampleBondScene_listed hget
    exact ⟨exampleUnansweredGame, hget.trans (congrArg some hb), by decide⟩

theorem exampleBondL1_reads :
    Reads exampleClaimer (exampleBondScene exampleUnansweredAccount) exampleBondL1 := by
  refine ⟨rfl, fun i game hgame => ?_⟩
  have hlt : i < 2 := (List.getElem?_eq_some_iff.mp hgame).1
  exact congrArg some (decide_eq_true hlt).symm

theorem exampleBond_paid : AccountStep FaultGame.exampleImmutables FaultGame.exampleArgs
    exampleUnansweredAccount
    (.claimCredit (FaultGame.exampleWorld .defenderWins) (exampleClaimer.call 2000) 0xB0B)
    exampleCollected := by
  refine ⟨[.payment 0xB0B 9], bind_ok_iff.mpr ⟨(exampleCollected.game, 9), ?_, rfl⟩, rfl⟩
  exact FaultGame.claimCredit_ok_iff.mpr ⟨rfl, _, FaultGame.closeGameBody_ok_iff.mpr
    (.inr ⟨rfl, rfl, rfl⟩), FaultGame.recipientCredit_ok_iff.mpr (.inr ⟨rfl, rfl⟩), by decide,
    by decide, rfl⟩

def exampleBondOps : List BondOp := [.scan, .landed (FaultGame.exampleWorld .defenderWins)]

theorem exampleBond_run : Run (ProperStep exampleClaimer)
    (exampleBondScene exampleUnansweredAccount) exampleBondOps
    (exampleBondScene exampleCollected) := by
  refine .cons (t := { exampleBondScene exampleUnansweredAccount with claiming := some 0 })
    ⟨.found _ exampleBondL1 0 _ rfl exampleBondL1_reads rfl (by decide), nofun, nofun⟩
    (.single ⟨.landed _ _ 0 exampleUnansweredGame exampleCollected rfl rfl
      (.claimed exampleBond_paid), nofun, ?_⟩)
  rintro _ ⟨⟩
  refine ⟨by simp [World.RegistrySound, FaultGame.exampleWorld], fun _ => rfl, fun i b _ hb _ => ?_⟩
  obtain ⟨-, rfl⟩ := exampleBondScene_listed hb
  rfl

/-- The challenger of the example is paid its credit. -/
theorem bonds_claimed_example : ∃ account,
    (exampleBondScene exampleCollected).games[0]? =
      some { exampleUnansweredGame with account := account } ∧
    (paymentsTo 0xB0B account.ledger = [FaultGame.credit FaultGame.exampleUnanswered 0xB0B] ∨
      0 < 2 - 1 - 100) :=
  bonds_claimed exampleBond_run exampleBondScene_wellFormed rfl
    ⟨rfl, by decide, rfl, rfl, .inl (by decide), by decide⟩ (openUpTo_le _ _ 0)

end OpSuccinct.FaultProof
