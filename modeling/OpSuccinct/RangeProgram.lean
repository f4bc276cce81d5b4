import OpSuccinct.BootInfo
import OpSuccinct.RangeDriver

/-! # The range program

`get_inputs_for_pipeline` and `WitnessExecutor::run`
(`utils/client/src/witness/executor.rs`) and the program around them
(`programs/range/utils/src/lib.rs`), which commits to the boot info once the
derivation returned the claimed output root.

Only the roots are compared, and a derivation whose data source is exhausted
returns the root of the block it halted at.  So the claimed number is proven
exactly when no derivation halts below the claimed block at a block with the
claimed root (`claimed_block_proven_iff`).
-/
namespace OpSuccinct.Range

open Transition

/-- **kona's proof client**: the preimage oracle, the providers over it and what is
constructed from them. -/
structure Client (k : Kona) where
  Oracle : Type
  L1Provider : Type
  L2Provider : Type
  OracleError : Type
  loadBootInfo : Oracle → Except OracleError (BootInfo k.RollupConfig)
  sendStartingL2Output : Oracle → Bytes32 → Except OracleError Unit
  getExactKeccak256 : Oracle → Bytes32 → Except OracleError Bytes
  newL1Provider : Bytes32 → Oracle → L1Provider
  newL2Provider : Bytes32 → k.RollupConfig → Oracle → L2Provider
  headerByHash : L2Provider → Bytes32 → Except OracleError k.Header
  newOraclePipelineCursor : k.RollupConfig → k.Header → L1Provider → L2Provider →
    Except OracleError k.Cursor
  setCursor : L2Provider → k.Cursor → L2Provider
  newExecutor : k.RollupConfig → L2Provider → k.Executor
  createPipeline : k.RollupConfig → k.Cursor → Oracle → L1Provider → L2Provider →
    Except OracleError k.Pipeline
  toStringPretty : k.RollupConfig → Bytes
  sha256 : Bytes → Bytes32

variable {k : Kona} (c : Client k)

/-- The failures of the range program. -/
inductive RunError
  | loadBootInfo (error : c.OracleError)
  | oracle (error : c.OracleError)
  | claimedBelowSafeHead (claimed safe : UInt64)
  | driver (error : DriverError k)
  | outputRootMismatch (number : UInt64) (claimed got : Bytes32)

variable {c}

def hashRollupConfig (config : k.RollupConfig) : Bytes32 := c.sha256 (c.toStringPretty config)

/-- The hash of the safe head: the last word of the output root's preimage. -/
def fetchSafeHeadHash (oracle : c.Oracle) (agreedL2OutputRoot : Bytes32) :
    Except c.OracleError Bytes32 := do
  c.sendStartingL2Output oracle agreedL2OutputRoot
  let outputPreimage ← c.getExactKeccak256 oracle agreedL2OutputRoot
  return b256 ((outputPreimage.drop 96).take 32)

def getInputsForPipeline (oracle : c.Oracle) : Except (RunError c)
    (BootInfo k.RollupConfig × Option (k.Cursor × c.L1Provider × c.L2Provider)) := do
  let boot ← (c.loadBootInfo oracle).mapError .loadBootInfo
  let safeHeadHash ← (fetchSafeHeadHash oracle boot.agreedL2OutputRoot).mapError .oracle
  let l1Provider := c.newL1Provider boot.l1Head oracle
  let l2Provider := c.newL2Provider safeHeadHash boot.rollupConfig oracle
  let safeHead ← (c.headerByHash l2Provider safeHeadHash).mapError .oracle
  -- A claimed block below the safe head is an invalid claim.
  require (k.headerNumber safeHead ≤ boot.claimedL2BlockNumber)
    (.claimedBelowSafeHead boot.claimedL2BlockNumber (k.headerNumber safeHead))
  let cursor ← (c.newOraclePipelineCursor boot.rollupConfig safeHead l1Provider
    l2Provider).mapError .oracle
  return (boot, some (cursor, l1Provider, c.setCursor l2Provider cursor))

/-- `Driver::new` over the executor of `run`. -/
def newDriver (boot : BootInfo k.RollupConfig) (pipeline : k.Pipeline) (cursor : k.Cursor)
    (l2Provider : c.L2Provider) : Driver k where
  cursor := cursor
  executor := c.newExecutor boot.rollupConfig l2Provider
  pipeline := pipeline

/-- The epilogue of `run`: the derived root has to be the claimed one. -/
def checkClaim (boot : BootInfo k.RollupConfig) :
    AdvanceResult k → Except (RunError c) (BootInfo k.RollupConfig)
  | .error e => .error (.driver e)
  | .ok (safeHead, outputRoot) =>
    if outputRoot ≠ boot.claimedL2OutputRoot then
      .error (.outputRootMismatch safeHead.blockInfo.number boot.claimedL2OutputRoot outputRoot)
    else .ok boot

/-- `WitnessExecutor::run`, within `fuel` turns of the derivation. -/
def run (fuel : Nat) (boot : BootInfo k.RollupConfig) (pipeline : k.Pipeline) (cursor : k.Cursor)
    (l2Provider : c.L2Provider) : Option (Except (RunError c) (BootInfo k.RollupConfig)) :=
  (advanceToTarget fuel (newDriver boot pipeline cursor l2Provider) boot.rollupConfig
    (some boot.claimedL2BlockNumber)).map (checkClaim boot)

/-- `run_range_program` on the oracle of the witness data: an error is a failed
`unwrap`, and the result is what the program commits. -/
def runRangeProgram (fuel : Nat) (oracle : c.Oracle) :
    Option (Except (RunError c) BootInfoStruct) :=
  let commit boot := BootInfoStruct.ofBootInfo (hashRollupConfig (c := c)) boot
  match getInputsForPipeline oracle with
  | .error e => some (.error e)
  | .ok (boot, none) => some (.ok (commit boot))
  | .ok (boot, some (cursor, l1Provider, l2Provider)) =>
    match c.createPipeline boot.rollupConfig cursor oracle l1Provider l2Provider with
    | .error e => some (.error (.oracle e))
    | .ok pipeline => (run fuel boot pipeline cursor l2Provider).map (·.map commit)

/-! ## The state of a derivation -/

/-- **What is assumed of kona.**  An executed payload gives the block numbered one above
the safe head it was executed on, the info of a block has the block's number, the
cursor's tip is the one it was last advanced to, and a new cursor is at the header
it was made from. -/
structure Sequential (c : Client k) : Prop where
  executed_number : ∀ executor safeHead attributes header executor',
    k.executePayload (k.updateSafeHead executor safeHead) attributes = (.ok header, executor') →
      (k.headerNumber header).toNat = (k.headerNumber safeHead).toNat + 1
  info_number : ∀ block config info, k.fromBlockAndGenesis block config = .ok info →
    info.blockInfo.number = k.headerNumber block.header
  tip_advance : ∀ cursor origin tip, k.tip (k.advance cursor origin tip) = tip
  newCursor_tip : ∀ config header l1Provider l2Provider cursor,
    c.newOraclePipelineCursor config header l1Provider l2Provider = .ok cursor →
      (k.tip cursor).l2SafeHeadHeader = header ∧
        (k.tip cursor).number = k.headerNumber header

/-- The loop of `run` before its first turn. -/
def start (boot : BootInfo k.RollupConfig) (pipeline : k.Pipeline) (cursor : k.Cursor)
    (l2Provider : c.L2Provider) : Advance k :=
  ⟨newDriver boot pipeline cursor l2Provider, some boot.claimedL2BlockNumber⟩

variable {cfg : k.RollupConfig} {s s₀ t : Advance k} {tr : List (Event k)} {claimed : UInt64}

theorem reached_iff (h : s.target = some claimed) :
    s.reached = true ↔ claimed.toNat ≤ s.driver.tip.number.toNat := by
  simp [Advance.reached, h, UInt64.le_iff_toNat_le]

/-- **The invariant of the derivation** of block `claimed` from `s₀`: its tip is the
starting one or the one advanced to last, at most at the claimed number, and the
target is the claimed number until the data source is exhausted. -/
structure OnTrack (cfg : k.RollupConfig) (s₀ : Advance k) (claimed : UInt64)
    (tr : List (Event k)) (s : Advance k) : Prop where
  header_number : k.headerNumber s.driver.tip.l2SafeHeadHeader = s.driver.tip.number
  tip_from : s.driver.tip = s₀.driver.tip ∨ .advanced s.driver.tip ∈ tr
  start_le : s₀.driver.tip.number.toNat ≤ s.driver.tip.number.toNat
  le_claimed : s.driver.tip.number.toNat ≤ claimed.toNat
  advanced_le : ∀ tip, .advanced tip ∈ tr → tip.number.toNat ≤ s.driver.tip.number.toNat
  target : s.target = some claimed ∨ s.target = some s.driver.tip.number ∧
    ∃ tr' s', Run (Turns (advanceTurn cfg)) s₀ tr' s' ∧ Exhausted cfg s' ∧
      s'.driver.tip = s.driver.tip

/-- Before the target is reached it is the claimed number, above the safe head. -/
theorem OnTrack.not_reached (h : OnTrack cfg s₀ claimed tr s) (hs : s.reached = false) :
    s.target = some claimed ∧ s.driver.tip.number.toNat < claimed.toNat := by
  obtain htarget | ⟨htarget, -⟩ := h.target
  · refine ⟨htarget, ?_⟩
    by_contra hle
    have hreached := (reached_iff htarget).mpr (by omega)
    rw [hs] at hreached
    cases hreached
  · have hreached := (reached_iff htarget).mpr (Nat.le_refl _)
    rw [hs] at hreached
    cases hreached

/-- A turn that leaves the cursor and the target in place keeps the invariant. -/
theorem OnTrack.stay {event : Event k} (h : OnTrack cfg s₀ claimed tr s)
    (hcursor : t.driver.cursor = s.driver.cursor)
    (hevent : ∀ tip, event ≠ .advanced tip)
    (htarget : t.target = some claimed ∨ t.target = some s.driver.tip.number ∧
      ∃ tr' s', Run (Turns (advanceTurn cfg)) s₀ tr' s' ∧ Exhausted cfg s' ∧
        s'.driver.tip = s.driver.tip) :
    OnTrack cfg s₀ claimed (tr ++ [event]) t := by
  have htip : t.driver.tip = s.driver.tip := by rw [Driver.tip, hcursor]
  have hmem : ∀ tip, .advanced tip ∈ tr ++ [event] ↔ .advanced tip ∈ tr := by
    intro tip
    simp [(hevent tip).symm]
  refine ⟨?_, ?_, ?_, ?_, ?_, ?_⟩
  · rw [htip]
    exact h.header_number
  · rw [htip, hmem]
    exact h.tip_from
  · rw [htip]
    exact h.start_le
  · rw [htip]
    exact h.le_claimed
  · intro tip htr
    rw [htip]
    exact h.advanced_le tip ((hmem tip).mp htr)
  · rw [htip]
    exact htarget

/-- Advancing to the tip of an executed block keeps the invariant. -/
theorem OnTrack.advance (hk : Sequential c) (h : OnTrack cfg s₀ claimed tr s)
    {tip : TipCursor k.Header} {attributes : OpPayloadAttributes} {header : k.Header} {d : Driver k}
    (hs : s.reached = false) (htarget : t.target = s.target)
    (hexec : Executed s.driver attributes header d)
    (htip : TipOf d header attributes tip t.driver) :
    OnTrack cfg s₀ claimed (tr ++ [.advanced tip]) t := by
  obtain ⟨-, executor, hexec⟩ := hexec
  obtain ⟨⟨transactions, -, hinfo⟩, hheader, -, origin, -, hcursor⟩ := htip
  obtain ⟨hclaimed, hlt⟩ := h.not_reached hs
  have hnew : t.driver.tip = tip := by rw [Driver.tip, hcursor, hk.tip_advance]
  have hnumber : k.headerNumber tip.l2SafeHeadHeader = tip.number := by
    rw [hheader]
    exact (hk.info_number _ _ _ hinfo).symm
  have hsucc : tip.number.toNat = s.driver.tip.number.toNat + 1 := by
    rw [← hnumber, hheader, hk.executed_number _ _ _ _ _ hexec, h.header_number]
  have hstart := h.start_le
  refine ⟨?_, ?_, ?_, ?_, ?_, .inl (htarget.trans hclaimed)⟩
  · rw [hnew]
    exact hnumber
  · rw [hnew]
    exact .inr (by simp)
  · rw [hnew]
    omega
  · rw [hnew]
    omega
  · intro tip' htr
    rw [hnew]
    rcases List.mem_append.mp htr with htr | htr
    · have hle := h.advanced_le tip' htr
      omega
    · cases List.mem_singleton.mp htr
      exact Nat.le_refl _

/-- **One turn keeps the invariant.** -/
theorem OnTrack.turn (hk : Sequential c) {event : Event k}
    (hrun : Run (Turns (advanceTurn cfg)) s₀ tr s)
    (h : OnTrack cfg s₀ claimed tr s) (hnext : advanceTurn cfg s = .next event t) :
    OnTrack cfg s₀ claimed (tr ++ [event]) t := by
  obtain ⟨rfl, hend, hcursor, htarget⟩ | ⟨rfl, hs, hcursor, htarget⟩ |
    ⟨tip, attributes, header, d, rfl, hs, htarget, hexec, htip⟩ := advanceTurn_next hnext
  · have hclaimed := (h.not_reached hend.not_reached).1
    refine h.stay hcursor (by simp) (.inr ⟨?_, tr, s, hrun, hend, rfl⟩)
    rw [htarget, hclaimed]
    rfl
  · exact h.stay hcursor (by simp) (.inl (htarget.trans (h.not_reached hs).1))
  · exact h.advance hk hs htarget hexec htip

/-- Every derivation of block `claimed` that starts at most there stays on track. -/
theorem onTrack_of_run (hk : Sequential c) (htarget : s₀.target = some claimed)
    (hle : s₀.driver.tip.number.toNat ≤ claimed.toNat)
    (hheader : k.headerNumber s₀.driver.tip.l2SafeHeadHeader = s₀.driver.tip.number)
    (hrun : Run (Turns (advanceTurn cfg)) s₀ tr s) : OnTrack cfg s₀ claimed tr s := by
  have hboth : Run (Turns (advanceTurn cfg)) s₀ tr s ∧ OnTrack cfg s₀ claimed tr s := by
    refine hrun.traceInvariant
      (I := fun tr s => Run (Turns (advanceTurn cfg)) s₀ tr s ∧ OnTrack cfg s₀ claimed tr s)
      (fun tr a l b h hs => ⟨h.1.snoc hs, h.2.turn hk h.1 hs⟩) ⟨.nil, ?_⟩
    exact ⟨hheader, .inl rfl, Nat.le_refl _, hle, by simp, .inl htarget⟩
  exact hboth.2

/-! ## The claimed block -/

/-- **A block is proven** by the derivation from `s₀`: it was derived under this number
with this output root, or it is the agreed block. -/
def BlockProven (boot : BootInfo k.RollupConfig) (s₀ : Advance k) (number : UInt64)
    (root : Bytes32) : Prop :=
  (∃ tr t tip, Run (Turns (advanceTurn boot.rollupConfig)) s₀ tr t ∧ .advanced tip ∈ tr ∧
    tip.number = number ∧ tip.l2SafeHeadOutputRoot = root) ∨
  (number = s₀.driver.tip.number ∧ root = boot.agreedL2OutputRoot)

/-- Whenever `run` returns `Ok`, the claimed block is proven, and so is the block the
program commits to. -/
def ClaimProven (boot : BootInfo k.RollupConfig) (pipeline : k.Pipeline) (cursor : k.Cursor)
    (l2Provider : c.L2Provider) : Prop :=
  ∀ fuel boot', run fuel boot pipeline cursor l2Provider = some (.ok boot') →
    let committed := BootInfoStruct.ofBootInfo (hashRollupConfig (c := c)) boot'
    BlockProven boot (start boot pipeline cursor l2Provider) boot.claimedL2BlockNumber
      boot.claimedL2OutputRoot ∧
    BlockProven boot (start boot pipeline cursor l2Provider) committed.l2BlockNumber
      committed.l2PostRoot

/-- The derivation halts, for want of data, below the claimed block at a safe head
whose output root is the claimed one. -/
def HaltsOnClaimedRoot (boot : BootInfo k.RollupConfig) (s₀ : Advance k) : Prop :=
  ∃ tr s, Run (Turns (advanceTurn boot.rollupConfig)) s₀ tr s ∧ Exhausted boot.rollupConfig s ∧
    s.driver.tip.number < boot.claimedL2BlockNumber ∧
    s.driver.tip.l2SafeHeadOutputRoot = boot.claimedL2OutputRoot

/-- The agreed block is claimed, with the output root the new cursor has for it but not
the agreed one. -/
def ClaimsCursorRoot (boot : BootInfo k.RollupConfig) (s₀ : Advance k) : Prop :=
  s₀.driver.tip.number = boot.claimedL2BlockNumber ∧
    s₀.driver.tip.l2SafeHeadOutputRoot = boot.claimedL2OutputRoot ∧
    boot.claimedL2OutputRoot ≠ boot.agreedL2OutputRoot

theorem checkClaim_ok_iff {boot boot' : BootInfo k.RollupConfig} {r : AdvanceResult k} :
    checkClaim (c := c) boot r = .ok boot' ↔
      boot' = boot ∧ ∃ info, r = .ok (info, boot.claimedL2OutputRoot) := by
  cases r with
  | error e => simp [checkClaim]
  | ok result =>
    obtain ⟨info, root⟩ := result
    by_cases h : root = boot.claimedL2OutputRoot
    · simp [checkClaim, h, eq_comm]
    · simp [checkClaim, h]

variable {boot : BootInfo k.RollupConfig} {pipeline : k.Pipeline} {cursor : k.Cursor}
  {l2Provider : c.L2Provider}

/-- **`run` returns `Ok`** exactly when its derivation reaches its target at a tip with
the claimed root; it returns the boot info it was given. -/
theorem run_ok_iff {boot' : BootInfo k.RollupConfig} :
    (∃ fuel, run fuel boot pipeline cursor l2Provider = some (.ok boot')) ↔
      boot' = boot ∧ ∃ tr t, Run (Turns (advanceTurn boot.rollupConfig))
        (start boot pipeline cursor l2Provider) tr t ∧ t.reached = true ∧
          t.driver.tip.l2SafeHeadOutputRoot = boot.claimedL2OutputRoot := by
  constructor
  · rintro ⟨fuel, h⟩
    obtain ⟨r, hloop, hcheck⟩ := Option.map_eq_some_iff.mp h
    obtain ⟨rfl, info, rfl⟩ := checkClaim_ok_iff.mp hcheck
    obtain ⟨tr, t, hrun, hdone⟩ := loop_returns_iff.mp ⟨fuel, hloop⟩
    obtain ⟨hreached, -, hroot⟩ := advanceTurn_done_ok hdone
    exact ⟨rfl, tr, t, hrun, hreached, hroot.symm⟩
  · rintro ⟨rfl, tr, t, hrun, hreached, hroot⟩
    obtain ⟨fuel, hloop⟩ := loop_returns_iff.mpr ⟨tr, t, hrun, advanceTurn_of_reached hreached⟩
    rw [hroot] at hloop
    exact ⟨fuel, Option.map_eq_some_iff.mpr ⟨_, hloop, checkClaim_ok_iff.mpr ⟨rfl, _, rfl⟩⟩⟩

/-- `run` only ever returns its boot info, so what is committed is what was claimed. -/
theorem claimProven_of_blockProven
    (h : ∀ tr t, Run (Turns (advanceTurn boot.rollupConfig))
      (start boot pipeline cursor l2Provider) tr t → t.reached = true →
        t.driver.tip.l2SafeHeadOutputRoot = boot.claimedL2OutputRoot →
          BlockProven boot (start boot pipeline cursor l2Provider) boot.claimedL2BlockNumber
            boot.claimedL2OutputRoot) :
    ClaimProven boot pipeline cursor l2Provider := by
  intro fuel boot' hok
  obtain ⟨rfl, tr, t, hrun, hreached, hroot⟩ := run_ok_iff.mp ⟨fuel, hok⟩
  exact ⟨h tr t hrun hreached hroot, h tr t hrun hreached hroot⟩

/-- A claim that no derivation halts on is proven. -/
theorem claimProven_of_not_halts (hk : Sequential c)
    (hle : (k.tip cursor).number.toNat ≤ boot.claimedL2BlockNumber.toNat)
    (hheader : k.headerNumber (k.tip cursor).l2SafeHeadHeader = (k.tip cursor).number)
    (hhalts : ¬ HaltsOnClaimedRoot boot (start boot pipeline cursor l2Provider))
    (hcursor : ¬ ClaimsCursorRoot boot (start boot pipeline cursor l2Provider)) :
    ClaimProven boot pipeline cursor l2Provider := by
  apply claimProven_of_blockProven
  intro tr t hrun hreached hroot
  have h := onTrack_of_run hk rfl hle hheader hrun
  have hnumber : t.driver.tip.number = boot.claimedL2BlockNumber := by
    apply UInt64.toNat_inj.mp
    obtain htarget | ⟨htarget, tr', s', hrun', hend, htip⟩ := h.target
    · exact Nat.le_antisymm h.le_claimed ((reached_iff htarget).mp hreached)
    · -- The derivation halted at `s'`, below the claimed block.
      have hlt := ((onTrack_of_run hk rfl hle hheader hrun').not_reached hend.not_reached).2
      exact absurd ⟨tr', s', hrun', hend, UInt64.lt_iff_toNat_lt.mpr hlt, htip ▸ hroot⟩ hhalts
  obtain htip | htip := h.tip_from
  · rw [htip] at hnumber hroot
    refine .inr ⟨hnumber.symm, ?_⟩
    by_contra hne
    exact hcursor ⟨hnumber, hroot, hne⟩
  · exact .inl ⟨tr, t, _, hrun, htip, hnumber, hroot⟩

/-- **The defect**: a derivation that halts below the claimed block on the claimed root
is accepted, and the claimed block is not proven. -/
theorem not_claimProven_of_halts (hk : Sequential c)
    (hle : (k.tip cursor).number.toNat ≤ boot.claimedL2BlockNumber.toNat)
    (hheader : k.headerNumber (k.tip cursor).l2SafeHeadHeader = (k.tip cursor).number)
    (hhalts : HaltsOnClaimedRoot boot (start boot pipeline cursor l2Provider)) :
    ¬ ClaimProven boot pipeline cursor l2Provider := by
  obtain ⟨tr, s, hrun, hend, hlt, hroot⟩ := hhalts
  rw [UInt64.lt_iff_toNat_lt] at hlt
  have h := onTrack_of_run hk rfl hle hheader hrun
  obtain ⟨t, hnext, hcursor, htarget⟩ := advanceTurn_of_exhausted hend
  have htip : t.driver.tip = s.driver.tip := by rw [Driver.tip, hcursor]
  have hrun' := hrun.snoc hnext
  have hreached : t.reached = true := by
    rw [(h.not_reached hend.not_reached).1] at htarget
    exact (reached_iff htarget).mpr (by rw [htip])
  obtain ⟨fuel, hok⟩ := run_ok_iff.mpr ⟨rfl, _, t, hrun', hreached, htip ▸ hroot⟩
  intro hproven
  obtain ⟨tr₂, t₂, tip, hrun₂, hmem, hnumber, -⟩ | ⟨hnumber, -⟩ := (hproven fuel boot hok).1
  · -- Every tip the derivation advances to is at most where it halted.
    have hend₂ : ∃ tr'', tr ++ [.halted] = tr₂ ++ tr'' := by
      obtain ⟨tr'', rfl, hrest⟩ | ⟨tr'', heq, -⟩ := turns_total hrun' hrun₂
      · obtain ⟨rfl, -⟩ | ⟨_, _, _, -, hmore, -⟩ := hrest.cases_head
        · exact ⟨[], by simp⟩
        · rw [Turns, advanceTurn_of_reached hreached] at hmore
          cases hmore
      · exact ⟨tr'', heq⟩
    obtain ⟨tr'', heq⟩ := hend₂
    have hmem' : .advanced tip ∈ tr ++ [.halted] := by
      rw [heq]
      exact List.mem_append_left _ hmem
    have hle' := h.advanced_le tip (by simpa using hmem')
    rw [hnumber] at hle'
    omega
  · have hstart := h.start_le
    rw [← hnumber] at hstart
    omega

/-- Nothing is derived when the agreed block is claimed, and the root compared is the
cursor's. -/
theorem not_claimProven_of_claimsCursorRoot
    (hclaims : ClaimsCursorRoot boot (start boot pipeline cursor l2Provider)) :
    ¬ ClaimProven boot pipeline cursor l2Provider := by
  obtain ⟨hnumber, hroot, hne⟩ := hclaims
  have hreached : (start boot pipeline cursor l2Provider).reached = true :=
    (reached_iff rfl).mpr (Nat.le_of_eq (congrArg UInt64.toNat hnumber.symm))
  obtain ⟨fuel, hok⟩ := run_ok_iff.mpr ⟨rfl, [], _, .nil, hreached, hroot⟩
  intro hproven
  obtain ⟨tr, t, tip, hrun, hmem, -⟩ | ⟨-, hagreed⟩ := (hproven fuel boot hok).1
  · obtain ⟨rfl, -⟩ | ⟨_, _, _, -, hmore, -⟩ := hrun.cases_head
    · cases hmem
    · rw [Turns, advanceTurn_of_reached hreached] at hmore
      cases hmore
  · exact hne hagreed

theorem getInputsForPipeline_ok {oracle : c.Oracle} {l1Provider : c.L1Provider}
    (h : getInputsForPipeline oracle = .ok (boot, some (cursor, l1Provider, l2Provider))) :
    ∃ safeHead l2Provider', k.headerNumber safeHead ≤ boot.claimedL2BlockNumber ∧
      c.newOraclePipelineCursor boot.rollupConfig safeHead l1Provider l2Provider' = .ok cursor := by
  simp only [getInputsForPipeline, bind_ok_iff, mapError_ok_iff, require_ok_iff, pure_ok_iff] at h
  obtain ⟨boot', -, hash, -, safeHead, -, _, hle, cursor', hcursor, h⟩ := h
  cases h
  exact ⟨safeHead, _, hle, hcursor⟩

/-- **When the claimed block number is proven.**  For a boot info that passed
`get_inputs_for_pipeline` and any derivation pipeline: whenever `run` returns `Ok`
the claimed block was derived with the claimed root (or is the agreed block), if and
only if the derivation does not halt below the claimed block at a block with the
claimed root, and the agreed block is not claimed with another root the cursor has
for it. -/
theorem claimed_block_proven_iff (hk : Sequential c) {oracle : c.Oracle}
    {l1Provider : c.L1Provider}
    (hinputs : getInputsForPipeline oracle =
      .ok (boot, some (cursor, l1Provider, l2Provider))) :
    ClaimProven boot pipeline cursor l2Provider ↔
      ¬ HaltsOnClaimedRoot boot (start boot pipeline cursor l2Provider) ∧
      ¬ ClaimsCursorRoot boot (start boot pipeline cursor l2Provider) := by
  obtain ⟨safeHead, l2Provider', hle, hcursor⟩ := getInputsForPipeline_ok hinputs
  obtain ⟨hheader, hnumber⟩ := hk.newCursor_tip _ _ _ _ _ hcursor
  rw [UInt64.le_iff_toNat_le, ← hnumber] at hle
  have hheader' : k.headerNumber (k.tip cursor).l2SafeHeadHeader = (k.tip cursor).number := by
    rw [hheader, hnumber]
  constructor
  · intro hproven
    exact ⟨fun h => not_claimProven_of_halts hk hle hheader' h hproven,
      fun h => not_claimProven_of_claimsCursorRoot h hproven⟩
  · rintro ⟨hhalts, hclaims⟩
    exact claimProven_of_not_halts hk hle hheader' hhalts hclaims

/-! ### A derivation that runs out of data

Block 1 is agreed, each payload derives the next block, and the root of block `n` is
`1000 + n`. -/

def exampleRoot (number : UInt64) : Bytes32 := BitVec.ofNat 256 (1000 + number.toNat)

def exampleInfo (number : UInt64) : L2BlockInfo where
  blockInfo := ⟨exampleRoot number, number, 0, number⟩
  l1OriginNumber := 0
  l1OriginHash := 0
  seqNum := 0

/-- A pipeline holds the number of payloads it can still derive. -/
def exampleKona : Kona where
  Pipeline := Nat
  Executor := UInt64
  ExecutorError := Unit
  Cursor := TipCursor UInt64
  Header := UInt64
  Tx := Bytes
  RlpError := Unit
  FromBlockError := Unit
  RollupConfig := Unit
  headerNumber := id
  isInteropActive := fun _ _ => false
  isHoloceneActive := fun _ _ => true
  producePayload
    | 0, _ => (.error (.critical .endOfSource), 0)
    | n + 1, safeHead => (.ok ⟨safeHead.blockInfo.timestamp + 1, none, []⟩, n)
  signalFlushChannel := fun n => (.ok (), n)
  origin := fun _ => some ⟨0, 0, 0, 0⟩
  pipelineRollupConfig := fun _ => ()
  updateSafeHead := fun _ header => header
  executePayload := fun safeHead _ =>
    if safeHead.toNat + 1 < UInt64.size then (.ok (safeHead + 1), safeHead + 1)
    else (.error (), safeHead)
  computeOutputRoot := fun executor => (.ok (exampleRoot executor), executor)
  tip := id
  advance := fun _ _ tip => tip
  decodeTx := .ok
  fromBlockAndGenesis := fun block _ => .ok (exampleInfo block.header)

/-- Block `claimed` is claimed with the root of block 2. -/
def exampleBoot (claimed : UInt64) : BootInfo Unit where
  l1Head := 7
  agreedL2OutputRoot := exampleRoot 1
  claimedL2OutputRoot := exampleRoot 2
  claimedL2BlockNumber := claimed
  chainId := 10
  rollupConfig := ()

/-- A client whose host supplies that claim. -/
def exampleClient (claimed : UInt64) : Client exampleKona where
  Oracle := Unit
  L1Provider := Unit
  L2Provider := Unit
  OracleError := Unit
  loadBootInfo := fun _ => .ok (exampleBoot claimed)
  sendStartingL2Output := fun _ _ => .ok ()
  getExactKeccak256 := fun _ root => .ok (toBytesBE 128 root.toNat)
  newL1Provider := fun _ _ => ()
  newL2Provider := fun _ _ _ => ()
  headerByHash := fun _ _ => .ok (1 : UInt64)
  newOraclePipelineCursor := fun _ header _ _ => .ok ⟨exampleInfo header, header, 0⟩
  setCursor := fun l2Provider _ => l2Provider
  newExecutor := fun _ _ => (0 : UInt64)
  createPipeline := fun _ _ _ _ _ => .ok (1 : Nat)
  toStringPretty := fun _ => []
  sha256 := b256

def exampleCursor : TipCursor UInt64 := ⟨exampleInfo 1, 1, 0⟩

theorem sequential_exampleClient (claimed : UInt64) : Sequential (exampleClient claimed) where
  executed_number := by
    intro executor (safeHead : UInt64) attributes header executor' h
    simp only [exampleKona] at h
    split at h
    · rename_i hlt
      cases h
      show (safeHead + 1).toNat = safeHead.toNat + 1
      rw [UInt64.toNat_add]
      exact Nat.mod_eq_of_lt hlt
    · cases h
  info_number := by
    rintro block config info ⟨⟩
    rfl
  tip_advance := fun _ _ _ => rfl
  newCursor_tip := by
    rintro config header l1Provider l2Provider cursor ⟨⟩
    exact ⟨rfl, rfl⟩

/-- Block 2 claimed under its own number. -/
theorem claimed_block_proven_iff_example :
    ClaimProven (c := exampleClient 2) (exampleBoot 2) (1 : Nat) exampleCursor () ↔
      ¬ HaltsOnClaimedRoot (k := exampleKona) (exampleBoot 2)
        (start (c := exampleClient 2) (exampleBoot 2) (1 : Nat) exampleCursor ()) ∧
      ¬ ClaimsCursorRoot (k := exampleKona) (exampleBoot 2)
        (start (c := exampleClient 2) (exampleBoot 2) (1 : Nat) exampleCursor ()) :=
  claimed_block_proven_iff (c := exampleClient 2) (sequential_exampleClient 2)
    (show getInputsForPipeline (c := exampleClient 2) () =
      .ok (exampleBoot 2, some (exampleCursor, (), ())) from rfl)

/-- The tip of block 2. -/
def exampleTip : TipCursor UInt64 := ⟨exampleInfo 2, 2, exampleRoot 2⟩

/-- The loop after block 2 was derived, with no payload left. -/
def exhaustedAt (claimed : UInt64) : Advance exampleKona :=
  ⟨⟨exampleTip, (2 : UInt64), (0 : Nat)⟩, some claimed⟩

/-- **The failing input.**  The host claims block 5 with the root of block 2, and L1
data ends after block 2: the program commits to block 5, which was never derived. -/
theorem unproven_claim_accepted :
    Sequential (exampleClient 5) ∧
    getInputsForPipeline (c := exampleClient 5) () =
      .ok (exampleBoot 5, some (exampleCursor, (), ())) ∧
    runRangeProgram (c := exampleClient 5) 4 () = some (.ok
      { l1Head := 7, l2PreRoot := exampleRoot 1, l2PostRoot := exampleRoot 2, l2BlockNumber := 5,
        rollupConfigHash := 0 }) ∧
    ¬ ClaimProven (c := exampleClient 5) (exampleBoot 5) (1 : Nat) exampleCursor () := by
  refine ⟨sequential_exampleClient 5, rfl, rfl, ?_⟩
  apply not_claimProven_of_halts (c := exampleClient 5) (sequential_exampleClient 5)
  · decide
  · rfl
  · have hnext : advanceTurn () (start (c := exampleClient 5) (exampleBoot 5) (1 : Nat)
        exampleCursor ()) = .next (.advanced exampleTip) (exhaustedAt 5) := rfl
    exact ⟨_, exhaustedAt 5, .single hnext, ⟨rfl, rfl, rfl⟩, by decide, rfl⟩

end OpSuccinct.Range
