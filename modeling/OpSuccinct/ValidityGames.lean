import OpSuccinct.GameArguments
import OpSuccinct.L2OutputOrder

/-! # Games of the validity mode

`OPSuccinctDisputeGame.sol` over the L2 output oracle.  The factory clones the game and
calls `initialize()`, which proposes the game's output to the oracle and resolves the game.
The game keeps no record of having been initialized: a second `initialize()` is refused only
if the oracle refuses the game's block.

It does as long as the game's output is stored, for the stored blocks do not decrease
(`Owned`).  So in every run in which `initialize()` is called again only on games whose
output is stored, with a submission interval that is not zero, each game is initialized once
and a resolved game never changes (`games_final`).
-/
namespace OpSuccinct.DisputeGame

open Clones (Clone Selector cloneCalldata)
open FaultGame (GameStatus)
open OutputOracle (Oracle Env Chain Call OracleError OutputProposal Pushed)
open Transition

/-! ## The game -/

/-- The storage of a clone, with its immutable arguments. -/
structure Game where
  args : GameArgs
  createdAt : Nat
  resolvedAt : Nat
  status : GameStatus
  wasRespectedGameTypeWhenCreated : Bool

/-- A clone before `initialize()`. -/
def Game.fresh (args : GameArgs) : Game := ⟨args, 0, 0, .inProgress, false⟩

inductive GameError
  | gameNotInProgress
  | nonPayable
  | noGame
  | oracle (e : OracleError)
  deriving DecidableEq

theorem initializeSelector_size : #[(0x81 : UInt8), 0x29, 0xfc, 0x1c].size = 4 := rfl

/-- The selector of `initialize()`. -/
def initializeSelector : Selector := ⟨#[0x81, 0x29, 0xfc, 0x1c], initializeSelector_size⟩

/-- What a call of `initialize()` on the clone reads its arguments from. -/
def Game.calldata (g : Game) : Bytes := cloneCalldata initializeSelector g.args.bytes

/-- The body of `resolve()`. -/
def resolveBody (env : Env) (g : Game) : Except GameError Game := do
  require (g.status = .inProgress) .gameNotInProgress
  return { g with resolvedAt := toUint64 env.msg.timestamp, status := .defenderWins }

/-- `resolve()`. -/
def resolve (env : Env) (g : Game) : Except GameError Game := do
  require (env.msg.value = 0) .nonPayable
  resolveBody env g

variable (chain : Chain) (clone : Clone)

/-- `initialize()`.  The game is the oracle's caller, but the oracle looks at the origin of
the transaction only. -/
def initializeGame (env : Env) (s : Oracle) (g : Game) : Except GameError (Oracle × Game) := do
  let started := { g with
    createdAt := toUint64 env.msg.timestamp
    status := .inProgress
    wasRespectedGameTypeWhenCreated := true }
  let s ← (OutputOracle.proposeL2Output env s (configName clone g.calldata)
    (rootClaim clone g.calldata) (l2BlockNumber clone g.calldata) (l1BlockNumber clone g.calldata)
    (proof clone g.calldata) (proverAddress clone g.calldata)).mapError .oracle
  let g ← resolveBody env started
  return (s, g)

/-! ## The oracle and its games -/

/-- The oracle with all games.  No contract reads `proposedBy`: it records which game, if
any, proposed each stored output. -/
structure System where
  oracle : Oracle
  games : List Game
  proposedBy : List (Option Nat)

def System.start : System := ⟨Oracle.fresh, [], []⟩

/-- A call by anyone, of the oracle, the factory or a game. -/
inductive Action
  | oracle (env : Env) (call : Call)
  | create (env : Env) (args : GameArgs)
  | initializeGame (i : Nat) (env : Env)
  | resolve (i : Nat) (env : Env)

/-- The record after a call: a push has the given proposer, and a deletion drops the
outputs it removes. -/
def record (proposedBy : List (Option Nat)) (game : Option Nat) (s s' : Oracle) :
    List (Option Nat) :=
  if s.l2OutputsLength < s'.l2OutputsLength then proposedBy ++ [game]
  else proposedBy.take s'.l2OutputsLength

/-- One call: what it leaves, or the error it reverts with. -/
def call (s : System) : Action → Except GameError System
  | .oracle env c => do
    let oracle ← (OutputOracle.execute chain env s.oracle c).mapError .oracle
    return { s with oracle := oracle, proposedBy := record s.proposedBy none s.oracle oracle }
  | .create env args => do
    let (oracle, g) ← DisputeGame.initializeGame clone env s.oracle (Game.fresh args)
    return ⟨oracle, s.games ++ [g], record s.proposedBy (some s.games.length) s.oracle oracle⟩
  | .initializeGame i env =>
    match s.games[i]? with
    | none => .error .noGame
    | some g => do
      let (oracle, g) ← DisputeGame.initializeGame clone env s.oracle g
      return ⟨oracle, s.games.set i g, record s.proposedBy (some i) s.oracle oracle⟩
  | .resolve i env =>
    match s.games[i]? with
    | none => .error .noGame
    | some g => do
      let g ← DisputeGame.resolve env g
      return { s with games := s.games.set i g }

/-- A call that reverts leaves everything as it was. -/
def attempt (s : System) (a : Action) : System :=
  match call chain clone s a with
  | .ok s' => s'
  | .error _ => s

/-- Every call is taken. -/
def attempted (s : System) (a : Action) : Option System := some (attempt chain clone s a)

/-- **One step**: a call, which may revert. -/
def Step : System → Taken System Action → System → Prop := takenOf (attempted chain clone)

/-! ## Finality -/

/-- The call succeeded and ran `initialize()` of game `i`. -/
def Initializes (e : Taken System Action) (i : Nat) : Prop :=
  (∃ t, call chain clone e.pre e.label = .ok t) ∧
    ((∃ env args, e.label = .create env args ∧ e.pre.games.length = i) ∨
      ∃ env, e.label = .initializeGame i env)

/-- Two records of a game agree on how and when it was resolved. -/
structure SameOutcome (g g' : Game) : Prop where
  status : g'.status = g.status
  createdAt : g'.createdAt = g.createdAt
  resolvedAt : g'.resolvedAt = g.resolvedAt

/-- **Finality**, of a run of the steps `tr` up to `t` and of the steps `tr'` up to `u`:
`initialize()` succeeds at most once for each game, and a game that is `DEFENDER_WINS` at `t`
has the same status and times at `u`. -/
structure Final (tr tr' : List (Taken System Action)) (t u : System) : Prop where
  once : (tr ++ tr').Pairwise fun e e' =>
    ∀ i, Initializes chain clone e i → ¬ Initializes chain clone e' i
  kept : ∀ (i : Nat) g, t.games[i]? = some g → g.status = .defenderWins →
    ∃ g', u.games[i]? = some g' ∧ SameOutcome g g'

/-- **The condition on one call.**  A game that is initialized again has its output stored,
and the submission interval is not zero; no accepted block number is cut by its `uint128`. -/
def OutputStands (e : Taken System Action) : Prop :=
  match e.label with
  | .oracle _ c => (∃ t, call chain clone e.pre e.label = .ok t) →
      ∀ block, c.proposedBlock = some block → block < 2 ^ 128
  | .create _ args => (∃ t, call chain clone e.pre e.label = .ok t) →
      l2BlockNumber clone (Game.fresh args).calldata < 2 ^ 128
  | .initializeGame i _ => i < e.pre.games.length →
      some i ∈ e.pre.proposedBy ∧ e.pre.oracle.submissionInterval ≠ 0
  | .resolve _ _ => True

variable {chain clone} {env : Env} {s s' : System} {o o' : Oracle} {g g' : Game} {i : Nat}

/-! ## What a call does -/

/-- `initialize()` succeeds exactly with a proposal, and leaves the game resolved at the
time of the call. -/
theorem initializeGame_ok (h : initializeGame clone env o g = .ok (o', g')) :
    Pushed env o (l2BlockNumber clone g.calldata) o' ∧ g'.args = g.args := by
  simp only [initializeGame, resolveBody, bind_ok_iff, mapError_ok_iff, pure_ok_iff] at h
  obtain ⟨_, hpropose, _, ⟨_, -, rfl⟩, h⟩ := h
  obtain ⟨rfl, rfl⟩ := Prod.mk.inj h
  exact ⟨OutputOracle.proposeL2Output_pushed hpropose, rfl⟩

/-- `resolve()` succeeds on a game in progress only. -/
theorem resolve_ok (h : resolve env g = .ok g') : g.status = .inProgress ∧ g'.args = g.args := by
  simp only [resolve, resolveBody, bind_ok_iff, require_ok_iff, pure_ok_iff] at h
  obtain ⟨_, -, _, hstatus, rfl⟩ := h
  exact ⟨hstatus, rfl⟩

/-- **What an accepted call can do**: change the oracle, create a game, or initialize or
resolve a game that exists. -/
theorem call_cases {a : Action} (h : call chain clone s a = .ok s') :
    (∃ env c, a = .oracle env c ∧ OutputOracle.dispatch chain env s.oracle c = .ok s'.oracle ∧
      s'.games = s.games ∧
      s'.proposedBy = record s.proposedBy none s.oracle s'.oracle) ∨
    (∃ env args g, a = .create env args ∧
      initializeGame clone env s.oracle (Game.fresh args) = .ok (s'.oracle, g) ∧
      s'.games = s.games ++ [g] ∧
      s'.proposedBy = record s.proposedBy (some s.games.length) s.oracle s'.oracle) ∨
    (∃ i env g g', a = .initializeGame i env ∧ s.games[i]? = some g ∧
      initializeGame clone env s.oracle g = .ok (s'.oracle, g')) ∨
    (∃ i env g g', a = .resolve i env ∧ s.games[i]? = some g ∧ resolve env g = .ok g' ∧
      s' = { s with games := s.games.set i g' }) := by
  cases a with
  | oracle env c =>
    simp only [call, OutputOracle.execute, bind_ok_iff, mapError_ok_iff, pure_ok_iff] at h
    obtain ⟨oracle, ⟨_, -, hdispatch⟩, rfl⟩ := h
    exact .inl ⟨env, c, rfl, hdispatch, rfl, rfl⟩
  | create env args =>
    simp only [call, bind_ok_iff, pure_ok_iff, Prod.exists] at h
    obtain ⟨oracle, g, hinit, rfl⟩ := h
    exact .inr (.inl ⟨env, args, g, rfl, hinit, rfl, rfl⟩)
  | initializeGame i env =>
    simp only [call] at h
    split at h
    · cases h
    · rename_i g hg
      simp only [bind_ok_iff, pure_ok_iff, Prod.exists] at h
      obtain ⟨oracle, g', hinit, rfl⟩ := h
      exact .inr (.inr (.inl ⟨i, env, g, g', rfl, hg, hinit⟩))
  | resolve i env =>
    simp only [call] at h
    split at h
    · cases h
    · rename_i g hg
      simp only [bind_ok_iff, pure_ok_iff] at h
      obtain ⟨g', hresolve, rfl⟩ := h
      exact .inr (.inr (.inr ⟨i, env, g, g', rfl, hg, hresolve, rfl⟩))

/-- A step is an accepted call, or changes nothing. -/
theorem step_cases {e : Taken System Action} (h : Step chain clone s e s') :
    e.pre = s ∧ (call chain clone s e.label = .ok s' ∨
      (¬ ∃ t, call chain clone s e.label = .ok t) ∧ s' = s) := by
  obtain ⟨hpre, -, hstep⟩ := h
  refine ⟨hpre, ?_⟩
  obtain rfl := Option.some.inj hstep
  unfold attempt
  split
  · exact .inl ‹_›
  · rename_i error herror
    refine .inr ⟨?_, rfl⟩
    rintro ⟨t, ht⟩
    cases herror.symm.trans ht

/-! ## The blocks of the games' outputs -/

/-- **The stored blocks do not decrease, and a game's output has its block.** -/
structure Owned (clone : Clone) (s : System) : Prop where
  aligned : s.proposedBy.length = s.oracle.l2OutputsLength
  sorted : ∀ j k, j ≤ k → k < s.oracle.l2OutputsLength →
    (s.oracle.l2OutputsSlot j).l2BlockNumber ≤ (s.oracle.l2OutputsSlot k).l2BlockNumber
  block : ∀ k i, s.proposedBy[k]? = some (some i) → ∃ g, s.games[i]? = some g ∧
    (s.oracle.l2OutputsSlot k).l2BlockNumber = l2BlockNumber clone g.calldata

theorem owned_start : Owned clone System.start where
  aligned := rfl
  sorted := fun _ k _ hk => absurd hk (Nat.not_lt_zero k)
  block := fun _ _ h => by cases h

/-- The games are those of before, or later. -/
def GamesKept (s s' : System) : Prop :=
  ∀ (i : Nat) g, s.games[i]? = some g → ∃ g', s'.games[i]? = some g' ∧ g'.args = g.args

theorem GamesKept.block (h : GamesKept s s') {b i : Nat}
    (hg : ∃ g, s.games[i]? = some g ∧ b = l2BlockNumber clone g.calldata) :
    ∃ g, s'.games[i]? = some g ∧ b = l2BlockNumber clone g.calldata := by
  obtain ⟨g, hg, rfl⟩ := hg
  obtain ⟨g', hg', hargs⟩ := h i g hg
  exact ⟨g', hg', by rw [Game.calldata, Game.calldata, hargs]⟩

/-- The list kept its first elements. -/
theorem Owned.truncate (h : Owned clone s) (hgames : GamesKept s s')
    (hlen : s'.oracle.l2OutputsLength ≤ s.oracle.l2OutputsLength)
    (hslot : s'.oracle.l2OutputsSlot = s.oracle.l2OutputsSlot) {game : Option Nat}
    (hrecord : s'.proposedBy = record s.proposedBy game s.oracle s'.oracle) : Owned clone s' := by
  rw [record, if_neg (Nat.not_lt.mpr hlen)] at hrecord
  refine ⟨?_, fun j k hjk hk => ?_, fun k i hk => ?_⟩
  · rw [hrecord, List.length_take, h.aligned]
    exact Nat.min_eq_left hlen
  · rw [hslot]
    exact h.sorted j k hjk (Nat.lt_of_lt_of_le hk hlen)
  · rw [hrecord, List.getElem?_take] at hk
    split at hk
    · rw [hslot]
      exact hgames.block (h.block k i hk)
    · cases hk

/-- The list got one more element, whose block is not below the last one's. -/
theorem Owned.push (h : Owned clone s) (hgames : GamesKept s s') {output : OutputProposal}
    {game : Option Nat} (hlen : s'.oracle.l2OutputsLength = s.oracle.l2OutputsLength + 1)
    (hslot : s'.oracle.l2OutputsSlot =
      Function.update s.oracle.l2OutputsSlot s.oracle.l2OutputsLength output)
    (hlatest : s.oracle.l2OutputsLength ≠ 0 →
      OutputOracle.latestBlockNumber s.oracle ≤ output.l2BlockNumber)
    (hgame : ∀ i, game = some i → ∃ g, s'.games[i]? = some g ∧
      output.l2BlockNumber = l2BlockNumber clone g.calldata)
    (hrecord : s'.proposedBy = record s.proposedBy game s.oracle s'.oracle) : Owned clone s' := by
  rw [record, if_pos (by omega)] at hrecord
  have hbelow (k : Nat) (hk : k < s.oracle.l2OutputsLength) :
      s'.oracle.l2OutputsSlot k = s.oracle.l2OutputsSlot k := by
    rw [hslot, Function.update_of_ne (Nat.ne_of_lt hk)]
  have hlast : s'.oracle.l2OutputsSlot s.oracle.l2OutputsLength = output := by
    rw [hslot, Function.update_self]
  refine ⟨?_, fun j k hjk hk => ?_, fun k i hk => ?_⟩
  · rw [hrecord, List.length_append, h.aligned, hlen]
    rfl
  · by_cases hk' : k < s.oracle.l2OutputsLength
    · rw [hbelow k hk', hbelow j (Nat.lt_of_le_of_lt hjk hk')]
      exact h.sorted j k hjk hk'
    obtain rfl : k = s.oracle.l2OutputsLength := by omega
    by_cases hj : j = s.oracle.l2OutputsLength
    · rw [hj]
    have hne : s.oracle.l2OutputsLength ≠ 0 := by omega
    have hle := hlatest hne
    rw [OutputOracle.latestBlockNumber, if_neg hne] at hle
    rw [hlast, hbelow j (by omega)]
    exact Nat.le_trans (h.sorted j _ (by omega) (by omega)) hle
  · rw [hrecord] at hk
    by_cases hk' : k < s.proposedBy.length
    · rw [List.getElem?_append_left hk'] at hk
      rw [hbelow k (h.aligned ▸ hk')]
      exact hgames.block (h.block k i hk)
    · rw [List.getElem?_append_right (Nat.not_lt.mp hk')] at hk
      obtain ⟨hlt, heq⟩ := List.getElem?_eq_some_iff.mp hk
      have hzero : k - s.proposedBy.length = 0 := by
        rw [List.length_singleton] at hlt
        omega
      obtain rfl : k = s.oracle.l2OutputsLength := by
        have haligned := h.aligned
        omega
      simp only [hzero, List.getElem_cons_zero] at heq
      rw [hlast]
      exact hgame i heq

/-- An accepted proposal keeps the order, if its block fits. -/
theorem Owned.pushed (h : Owned clone s) (hgames : GamesKept s s') {block : Nat}
    {game : Option Nat} (hpush : Pushed env s.oracle block s'.oracle) (hfits : block < 2 ^ 128)
    (hgame : ∀ i, game = some i → ∃ g, s'.games[i]? = some g ∧
      block = l2BlockNumber clone g.calldata)
    (hrecord : s'.proposedBy = record s.proposedBy game s.oracle s'.oracle) : Owned clone s' := by
  obtain ⟨root, heq⟩ := hpush.pushed
  have hnext := hpush.next
  have hcast := toUint128_of_lt hfits
  have hlen : s'.oracle.l2OutputsLength = s.oracle.l2OutputsLength + 1 := by
    rw [heq]
    rfl
  have hslot : s'.oracle.l2OutputsSlot = Function.update s.oracle.l2OutputsSlot
      s.oracle.l2OutputsLength ⟨root, toUint128 env.msg.timestamp, toUint128 block⟩ := by
    rw [heq]
    rfl
  refine h.push hgames hlen hslot (fun _ => ?_) (fun i hi => ?_) hrecord
  · show OutputOracle.latestBlockNumber s.oracle ≤ toUint128 block
    omega
  · show ∃ g, s'.games[i]? = some g ∧ toUint128 block = l2BlockNumber clone g.calldata
    rw [hcast]
    exact hgame i hi

/-- **A game whose output is stored is not initialized again.** -/
theorem Owned.refuses (h : Owned clone s) (hg : s.games[i]? = some g)
    (hstored : some i ∈ s.proposedBy) (hinterval : s.oracle.submissionInterval ≠ 0) :
    initializeGame clone env s.oracle g ≠ .ok (o', g') := by
  intro hinit
  obtain ⟨hpush, -⟩ := initializeGame_ok hinit
  obtain ⟨k, hk⟩ := List.mem_iff_getElem?.mp hstored
  obtain ⟨g'', hg'', hblock⟩ := h.block k i hk
  obtain rfl := Option.some.inj (hg.symm.trans hg'')
  have hlt : k < s.oracle.l2OutputsLength := h.aligned ▸ (List.getElem?_eq_some_iff.mp hk).1
  have hnext := hpush.next
  rw [OutputOracle.latestBlockNumber, if_neg (by omega)] at hnext
  have hle := h.sorted k (s.oracle.l2OutputsLength - 1) (by omega) (by omega)
  omega

/-! ## Every step -/

theorem gamesKept_of_eq (h : s'.games = s.games) : GamesKept s s' :=
  fun _ g hg => ⟨g, h ▸ hg, rfl⟩

/-- A call of the oracle keeps the order, if the block numbers it brings fit. -/
theorem Owned.oracle {c : Call} (h : Owned clone s)
    (hdispatch : OutputOracle.dispatch chain env s.oracle c = .ok s'.oracle)
    (hgames : s'.games = s.games)
    (hrecord : s'.proposedBy = record s.proposedBy none s.oracle s'.oracle)
    (hfits : ∀ block, c.proposedBlock = some block → block < 2 ^ 128) : Owned clone s' := by
  have hkept := gamesKept_of_eq hgames
  rcases OutputOracle.effect_cases hdispatch with ⟨version, params, -, hinit⟩ | ⟨k, -, hdelete⟩ |
    ⟨block, hblock, -, -, hpush⟩ | ⟨-, -, -, huntouched⟩
  · obtain ⟨-, -, -, -, heq⟩ := OutputOracle.initializeOracle_ok_iff.mp hinit
    by_cases hempty : s.oracle.l2OutputsLength = 0
    · rw [OutputOracle.pushStarting_of_empty hempty] at heq
      have hlen : s'.oracle.l2OutputsLength = s.oracle.l2OutputsLength + 1 := by
        rw [← heq]
        rfl
      have hslot : s'.oracle.l2OutputsSlot = Function.update s.oracle.l2OutputsSlot
          s.oracle.l2OutputsLength ⟨params.startingOutputRoot, toUint128 params.startingTimestamp,
            toUint128 params.startingBlockNumber⟩ := by
        rw [← heq]
        rfl
      exact h.push hkept hlen hslot (fun hne => absurd hempty hne) (fun i hi => by cases hi) hrecord
    · rw [OutputOracle.pushStarting_of_nonempty hempty] at heq
      refine h.truncate hkept (Nat.le_of_eq ?_) ?_ hrecord
      · rw [← heq]
      · rw [← heq]
  · obtain ⟨-, hlt, -, -, heq⟩ := OutputOracle.deleteL2Outputs_ok_iff.mp hdelete
    refine h.truncate hkept ?_ ?_ hrecord
    · rw [← heq]
      exact Nat.le_of_lt hlt
    · rw [← heq]
  · exact h.pushed hkept hpush (hfits block hblock) (fun i hi => by cases hi) hrecord
  · exact h.truncate hkept (Nat.le_of_eq huntouched.length) huntouched.slot hrecord

/-- **What a step that meets the condition does**: it initializes no game that exists, and
changes the record of no resolved game. -/
structure Keeps (chain : Chain) (clone : Clone) (s : System) (e : Taken System Action)
    (s' : System) : Prop where
  owned : Owned clone s'
  length : s.games.length ≤ s'.games.length
  refused : ∀ i, Initializes chain clone e i → i = s.games.length ∧ s'.games.length = i + 1
  outcome : ∀ (i : Nat) g, s.games[i]? = some g → g.status = .defenderWins →
    ∃ g', s'.games[i]? = some g' ∧ SameOutcome g g'

theorem keeps_of_games_eq {e : Taken System Action} (howned : Owned clone s')
    (hgames : s'.games = s.games) (hnone : ∀ i, ¬ Initializes chain clone e i) :
    Keeps chain clone s e s' where
  owned := howned
  length := by rw [hgames]
  refused := fun i hi => absurd hi (hnone i)
  outcome := fun i g hg _ => ⟨g, hgames ▸ hg, rfl, rfl, rfl⟩

/-- A created game is added behind the others, with its output. -/
theorem Owned.create {e : Taken System Action} {args : GameArgs} (h : Owned clone s)
    (hlabel : e.label = .create env args)
    (hinit : initializeGame clone env s.oracle (Game.fresh args) = .ok (s'.oracle, g))
    (hgames : s'.games = s.games ++ [g])
    (hrecord : s'.proposedBy = record s.proposedBy (some s.games.length) s.oracle s'.oracle)
    (hpre : e.pre = s) (hfits : l2BlockNumber clone (Game.fresh args).calldata < 2 ^ 128) :
    Keeps chain clone s e s' := by
  obtain ⟨hpush, hargs⟩ := initializeGame_ok hinit
  have hold (i : Nat) (g' : Game) (hg' : s.games[i]? = some g') : s'.games[i]? = some g' := by
    rw [hgames, List.getElem?_append_left (List.getElem?_eq_some_iff.mp hg').1, hg']
  refine ⟨h.pushed (fun i g' hg' => ⟨g', hold i g' hg', rfl⟩) hpush hfits ?_ hrecord, ?_, ?_, ?_⟩
  · intro i hi
    obtain rfl := Option.some.inj hi
    refine ⟨g, ?_, by rw [Game.calldata, Game.calldata, hargs]⟩
    rw [hgames, List.getElem?_append_right (Nat.le_refl _), Nat.sub_self]
    rfl
  · rw [hgames, List.length_append]
    exact Nat.le_add_right _ _
  · intro i hi
    rcases hi.2 with ⟨_, _, -, rfl⟩ | ⟨_, hagain⟩
    · rw [hgames, List.length_append, hpre]
      exact ⟨rfl, rfl⟩
    · cases hlabel.symm.trans hagain
  · exact fun i g' hg' _ => ⟨g', hold i g' hg', rfl, rfl, rfl⟩

/-- `resolve()` on its own changes a game in progress only. -/
theorem Owned.resolve {e : Taken System Action} (h : Owned clone s)
    (hlabel : e.label = .resolve i env) (hg : s.games[i]? = some g)
    (hresolve : resolve env g = .ok g') :
    Keeps chain clone s e { s with games := s.games.set i g' } := by
  obtain ⟨hstatus, hargs⟩ := resolve_ok hresolve
  have hlt := (List.getElem?_eq_some_iff.mp hg).1
  have hother (j : Nat) (gj : Game) (hj : i ≠ j) (hgj : s.games[j]? = some gj) :
      (s.games.set i g')[j]? = some gj := by
    rw [List.getElem?_set_ne hj, hgj]
  have hkept : GamesKept s { s with games := s.games.set i g' } := by
    intro j gj hgj
    by_cases hj : i = j
    · subst hj
      obtain rfl := Option.some.inj (hg.symm.trans hgj)
      exact ⟨g', List.getElem?_set_self hlt, hargs⟩
    · exact ⟨gj, hother j gj hj hgj, rfl⟩
  have hrecord : s.proposedBy = record s.proposedBy none s.oracle s.oracle := by
    rw [record, if_neg (Nat.lt_irrefl _), ← h.aligned, List.take_length]
  refine ⟨h.truncate hkept (Nat.le_refl _) rfl hrecord, Nat.le_of_eq List.length_set.symm, ?_, ?_⟩
  · intro k hk
    rcases hk.2 with ⟨_, _, hcreate, -⟩ | ⟨_, hinit⟩
    · cases hlabel.symm.trans hcreate
    · cases hlabel.symm.trans hinit
  · intro j gj hgj hwins
    have hj : i ≠ j := by
      rintro rfl
      obtain rfl := Option.some.inj (hg.symm.trans hgj)
      rw [hwins] at hstatus
      cases hstatus
    exact ⟨gj, hother j gj hj hgj, rfl, rfl, rfl⟩

/-- **The step lemma.** -/
theorem Owned.step {e : Taken System Action} (h : Owned clone s) (hstep : Step chain clone s e s')
    (hstands : OutputStands chain clone e) : Keeps chain clone s e s' := by
  obtain ⟨rfl, hcall | ⟨hnone, rfl⟩⟩ := step_cases hstep
  · have haccepted : ∃ t, call chain clone e.pre e.label = .ok t := ⟨s', hcall⟩
    rcases call_cases hcall with ⟨env, c, hlabel, hdispatch, hgames, hrecord⟩ |
      ⟨env, args, g, hlabel, hinit, hgames, hrecord⟩ | ⟨i, env, g, g', hlabel, hg, hinit⟩ |
      ⟨i, env, g, g', hlabel, hg, hresolve, rfl⟩
    · have hfits : ∀ block, c.proposedBlock = some block → block < 2 ^ 128 := by
        simp only [OutputStands, hlabel] at hstands
        exact hstands (hlabel ▸ haccepted)
      refine keeps_of_games_eq (h.oracle hdispatch hgames hrecord hfits) hgames fun i hi => ?_
      rcases hi.2 with ⟨_, _, hcreate, -⟩ | ⟨_, hinit⟩
      · cases hlabel.symm.trans hcreate
      · cases hlabel.symm.trans hinit
    · simp only [OutputStands, hlabel] at hstands
      exact h.create hlabel hinit hgames hrecord rfl (hstands (hlabel ▸ haccepted))
    · simp only [OutputStands, hlabel] at hstands
      obtain ⟨hstored, hinterval⟩ := hstands (List.getElem?_eq_some_iff.mp hg).1
      exact absurd hinit (h.refuses hg hstored hinterval)
    · exact h.resolve hlabel hg hresolve
  · refine keeps_of_games_eq h rfl fun i hi => hnone hi.1

/-! ## Runs -/

variable {tr tr' : List (Taken System Action)} {t u : System}

/-- The order of the blocks is an invariant. -/
theorem owned_of_run (hrun : Run (Step chain clone) System.start tr t)
    (hstands : ∀ e ∈ tr, OutputStands chain clone e) : Owned clone t := by
  refine hrun.traceInvariant
    (I := fun tr s => (∀ e ∈ tr, OutputStands chain clone e) → Owned clone s)
    ?_ (fun _ => owned_start) hstands
  intro tr s e s' ih hstep hall
  have howned := ih fun e' he' => hall e' (List.mem_append_left _ he')
  exact (howned.step hstep (hall e (by simp))).owned

/-- **Each game is initialized once.** -/
theorem initialized_once (hrun : Run (Step chain clone) System.start tr t)
    (hstands : ∀ e ∈ tr, OutputStands chain clone e) :
    tr.Pairwise (fun e e' =>
      ∀ i, Initializes chain clone e i → ¬ Initializes chain clone e' i) := by
  have hinvariant := hrun.traceInvariant (I := fun tr s => (∀ e ∈ tr, OutputStands chain clone e) →
    Owned clone s ∧ (∀ e ∈ tr, ∀ i, Initializes chain clone e i → i < s.games.length) ∧
      tr.Pairwise (fun e e' => ∀ i, Initializes chain clone e i → ¬ Initializes chain clone e' i))
    ?_ (fun _ => ⟨owned_start, fun _ he => absurd he List.not_mem_nil, .nil⟩)
  · exact (hinvariant hstands).2.2
  intro tr s e s' ih hstep hall
  obtain ⟨howned, hbelow, hpairs⟩ := ih fun e' he' => hall e' (List.mem_append_left _ he')
  have hkeeps := howned.step hstep (hall e (by simp))
  refine ⟨hkeeps.owned, ?_, List.pairwise_append.mpr ⟨hpairs, List.pairwise_singleton _ _, ?_⟩⟩
  · intro e' he' i hi
    rcases List.mem_append.mp he' with he' | he'
    · exact Nat.lt_of_lt_of_le (hbelow e' he' i hi) hkeeps.length
    · obtain rfl := List.mem_singleton.mp he'
      obtain ⟨-, hlength⟩ := hkeeps.refused i hi
      omega
  · intro e₁ he₁ e₂ he₂ i hi hi'
    obtain rfl := List.mem_singleton.mp he₂
    have hlt := hbelow e₁ he₁ i hi
    obtain ⟨heq, -⟩ := hkeeps.refused i hi'
    omega

/-- **A resolved game never changes.** -/
theorem outcome_kept (howned : Owned clone t) (hlater : Run (Step chain clone) t tr' u)
    (hstands : ∀ e ∈ tr', OutputStands chain clone e) (hg : t.games[i]? = some g)
    (hwins : g.status = .defenderWins) : ∃ g', u.games[i]? = some g' ∧ SameOutcome g g' := by
  have hinvariant := hlater.traceInvariant (I := fun tr s =>
    (∀ e ∈ tr, OutputStands chain clone e) → Owned clone s ∧
      ∃ g', s.games[i]? = some g' ∧ SameOutcome g g')
    ?_ (fun _ => ⟨howned, g, hg, rfl, rfl, rfl⟩)
  · exact (hinvariant hstands).2
  intro tr s e s' ih hstep hall
  obtain ⟨howned, g', hg', hsame⟩ := ih fun e' he' => hall e' (List.mem_append_left _ he')
  have hkeeps := howned.step hstep (hall e (by simp))
  obtain ⟨g'', hg'', hsame'⟩ := hkeeps.outcome i g' hg' (hsame.status.trans hwins)
  exact ⟨hkeeps.owned, g'', hg'', hsame'.status.trans hsame.status,
    hsame'.createdAt.trans hsame.createdAt, hsame'.resolvedAt.trans hsame.resolvedAt⟩

/-- **Games are final.**  For every run of the oracle and its games, with any callers and
any order of calls, in which `initialize()` is called on an existing game only while the
game's output is stored and the submission interval is not zero, and no accepted block number
exceeds 128 bits. -/
theorem games_final (hrun : Run (Step chain clone) System.start tr t)
    (hlater : Run (Step chain clone) t tr' u)
    (hstands : ∀ e ∈ tr ++ tr', OutputStands chain clone e) : Final chain clone tr tr' t u := by
  have howned := owned_of_run hrun fun e he => hstands e (List.mem_append_left _ he)
  refine ⟨initialized_once (hrun.trans hlater) hstands, fun i g hg hwins => ?_⟩
  exact outcome_kept howned hlater (fun e he => hstands e (List.mem_append_right _ he)) hg hwins

/-! ### A game over the example oracle

The game proposes block 120 at time 2020. -/

def exampleArgs : GameArgs := ⟨0xB0B, 0x9007, 0xB10C, relayExtraData 120 40 0xB0B 0x6E []⟩

def exampleActions : List Action :=
  [.oracle (OutputOracle.exampleEnv 2000)
      (.initializeOracle OutputOracle.initializerVersion OutputOracle.exampleParams),
    .oracle (OutputOracle.exampleEnv 2010) (.checkpointBlockHash 40),
    .create (OutputOracle.exampleEnv 2020) exampleArgs]

abbrev exampleSteps : System → Action → Option System :=
  attempted OutputOracle.exampleChain Clones.calldataClone

/-- The system with the game. -/
def exampleCreated : System := endOf exampleSteps System.start exampleActions

/-- `initialize()` is called again. -/
def exampleAgain : List Action := [.initializeGame 0 (OutputOracle.exampleEnv 2040)]

theorem exampleCreated_reached : Run (Step OutputOracle.exampleChain Clones.calldataClone)
    System.start (takenAll exampleSteps System.start exampleActions) exampleCreated :=
  run_takenAll rfl

theorem exampleCreated_stands :
    ∀ e ∈ takenAll exampleSteps System.start exampleActions ++
      takenAll exampleSteps exampleCreated exampleAgain,
      OutputStands OutputOracle.exampleChain Clones.calldataClone e := by
  refine List.forall_mem_cons.mpr ⟨fun _ block hblock => ?_, List.forall_mem_cons.mpr
    ⟨fun _ block hblock => ?_, List.forall_mem_cons.mpr ⟨fun _ => ?_, List.forall_mem_cons.mpr
    ⟨fun _ => ?_, fun _ he => absurd he List.not_mem_nil⟩⟩⟩⟩
  · cases hblock
  · cases hblock
  · decide +kernel
  · exact ⟨by decide +kernel, by decide +kernel⟩

theorem games_final_example :
    Final OutputOracle.exampleChain Clones.calldataClone
      (takenAll exampleSteps System.start exampleActions)
      (takenAll exampleSteps exampleCreated exampleAgain) exampleCreated
      (endOf exampleSteps exampleCreated exampleAgain) :=
  games_final exampleCreated_reached (run_takenAll rfl) exampleCreated_stands

theorem exampleChallenger_ne_zero : (0xC4A : Address) ≠ zeroAddress := by decide

/-- The challenger deletes the game's output, and `initialize()` is called again. -/
def exampleDeleted : List Action :=
  [.oracle { OutputOracle.exampleEnv 2030 with msg := ⟨0xC4A, 0, 2030, exampleChallenger_ne_zero⟩ }
      (.deleteL2Outputs 1),
    .initializeGame 0 (OutputOracle.exampleEnv 2040)]

/-- What a game's record says. -/
def Game.outcome (g : Game) : GameStatus × Nat × Nat := (g.status, g.createdAt, g.resolvedAt)

/-- **The failing input.**  After the deletion, `initialize()` succeeds a second time, and
moves the times of the resolved game. -/
theorem deleted_game_initialized_again :
    (exampleCreated.games.map Game.outcome = [(.defenderWins, 2020, 2020)] ∧
      (endOf exampleSteps exampleCreated exampleDeleted).games.map Game.outcome =
        [(.defenderWins, 2040, 2040)]) ∧
    Run (Step OutputOracle.exampleChain Clones.calldataClone) System.start
      (takenAll exampleSteps System.start exampleActions) exampleCreated ∧
    Run (Step OutputOracle.exampleChain Clones.calldataClone) exampleCreated
      (takenAll exampleSteps exampleCreated exampleDeleted)
      (endOf exampleSteps exampleCreated exampleDeleted) ∧
    ¬ Final OutputOracle.exampleChain Clones.calldataClone
      (takenAll exampleSteps System.start exampleActions)
      (takenAll exampleSteps exampleCreated exampleDeleted) exampleCreated
      (endOf exampleSteps exampleCreated exampleDeleted) := by
  have hbefore : exampleCreated.games.map Game.outcome = [(.defenderWins, 2020, 2020)] := by
    decide +kernel
  have hafter : (endOf exampleSteps exampleCreated exampleDeleted).games.map Game.outcome =
      [(.defenderWins, 2040, 2040)] := by
    decide +kernel
  refine ⟨⟨hbefore, hafter⟩, exampleCreated_reached, run_takenAll rfl, fun hfinal => ?_⟩
  obtain ⟨g, hgames, hg⟩ := List.map_eq_singleton_iff.mp hbefore
  obtain ⟨g', hgames', hg'⟩ := List.map_eq_singleton_iff.mp hafter
  obtain ⟨hstatus, hcreated⟩ := Prod.mk.inj hg
  obtain ⟨-, hcreated'⟩ := Prod.mk.inj hg'
  obtain ⟨found, hfound, hsame⟩ := hfinal.kept 0 g (by rw [hgames]; rfl) hstatus
  rw [hgames'] at hfound
  obtain rfl : g' = found := Option.some.inj hfound
  have htimes :=
    (Prod.mk.inj hcreated').1.symm.trans (hsame.createdAt.trans (Prod.mk.inj hcreated).1)
  exact absurd htimes (by decide)

end OpSuccinct.DisputeGame
