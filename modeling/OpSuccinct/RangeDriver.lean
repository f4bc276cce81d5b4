import OpSuccinct.CheckedArith
import OpSuccinct.Evm
import OpSuccinct.LoopRuns

/-! # The derivation driver of the range program

`advance_to_target` (`utils/client/src/client.rs`): the loop that derives a
payload from L1 data, executes it and moves the driver's cursor to the block it
gives, until the safe head reaches a target block.

The derivation pipeline, the executor, the cursor and the block formats are
kona's; the driver is written over them (`Kona`).  A turn of the loop is
`advanceTurn`, and its label says what the turn did to the cursor (`Event`).
-/
namespace OpSuccinct.Range

/-! ## What the driver works with -/

/-- Block numbers and hashes as the driver passes them around. -/
structure BlockInfo where
  hash : Bytes32
  number : UInt64
  parentHash : Bytes32
  timestamp : UInt64
  deriving DecidableEq

structure L2BlockInfo where
  blockInfo : BlockInfo
  l1OriginNumber : UInt64
  l1OriginHash : Bytes32
  seqNum : UInt64
  deriving DecidableEq

/-- The attributes of a payload; `rest` are those the driver only hands on. -/
structure OpPayloadAttributes where
  timestamp : UInt64
  transactions : Option (List Bytes)
  rest : Bytes

inductive PipelineError
  | endOfSource
  | missingOrigin
  | other (message : String)
  deriving DecidableEq

inductive PipelineErrorKind
  | temporary (error : PipelineError)
  | critical (error : PipelineError)
  | reset (message : String)
  deriving DecidableEq

/-- The tip of the cursor: the safe head, its header and its output root. -/
structure TipCursor (Header : Type) where
  l2SafeHead : L2BlockInfo
  l2SafeHeadHeader : Header
  l2SafeHeadOutputRoot : Bytes32

/-- The block built from an executed payload, with an empty list of ommers and no
withdrawals. -/
structure OpBlock (Header Tx : Type) where
  header : Header
  transactions : List Tx

/-- **kona, as the driver calls it.**  The pipeline and the executor are stateful, so
a call returns their next state with its result. -/
structure Kona where
  Pipeline : Type
  Executor : Type
  ExecutorError : Type
  Cursor : Type
  Header : Type
  Tx : Type
  RlpError : Type
  FromBlockError : Type
  RollupConfig : Type
  headerNumber : Header → UInt64
  isInteropActive : RollupConfig → UInt64 → Bool
  isHoloceneActive : RollupConfig → UInt64 → Bool
  producePayload : Pipeline → L2BlockInfo → Except PipelineErrorKind OpPayloadAttributes × Pipeline
  signalFlushChannel : Pipeline → Except PipelineErrorKind Unit × Pipeline
  origin : Pipeline → Option BlockInfo
  pipelineRollupConfig : Pipeline → RollupConfig
  updateSafeHead : Executor → Header → Executor
  executePayload : Executor → OpPayloadAttributes → Except ExecutorError Header × Executor
  computeOutputRoot : Executor → Except ExecutorError Bytes32 × Executor
  tip : Cursor → TipCursor Header
  advance : Cursor → BlockInfo → TipCursor Header → Cursor
  decodeTx : Bytes → Except RlpError Tx
  fromBlockAndGenesis : OpBlock Header Tx → RollupConfig → Except FromBlockError L2BlockInfo

variable (k : Kona)

/-- `DriverError`. -/
inductive DriverError
  | pipeline (error : PipelineErrorKind)
  | executor (error : k.ExecutorError)
  | rlp (error : k.RlpError)
  | fromBlock (error : k.FromBlockError)

/-- The driver: cursor, executor and pipeline. -/
structure Driver where
  cursor : k.Cursor
  executor : k.Executor
  pipeline : k.Pipeline

/-- The state of the loop: the driver and the target, which the loop adjusts. -/
structure Advance where
  driver : Driver k
  target : Option UInt64

/-- What a turn that goes on did. -/
inductive Event
  /-- The data source is exhausted; the target becomes the current safe head. -/
  | halted
  /-- A payload that failed to execute before Holocene was discarded. -/
  | discarded
  /-- A block was executed and the cursor advanced to this tip. -/
  | advanced (tip : TipCursor k.Header)

/-- The result of a turn that leaves the loop. -/
abbrev AdvanceResult := Except (DriverError k) (L2BlockInfo × Bytes32)

abbrev AdvanceTurn := Transition.Turn (Advance k) (Event k) (AdvanceResult k)

variable {k}

/-! ## One turn of `advance_to_target` -/

/-- The safe head the cursor is at. -/
abbrev Driver.tip (d : Driver k) : TipCursor k.Header := k.tip d.cursor

/-- The number of a tip's block. -/
abbrev TipCursor.number {Header : Type} (tip : TipCursor Header) : UInt64 :=
  tip.l2SafeHead.blockInfo.number

/-- `OpTxType::Deposit as u8`. -/
def depositTxType : UInt8 := 126

def isDeposit : Bytes → Bool
  | [] => false
  | byte :: _ => byte == depositTxType

/-- The attributes with all transactions stripped out that are not deposits. -/
def OpPayloadAttributes.depositsOnly (attributes : OpPayloadAttributes) : OpPayloadAttributes :=
  { attributes with transactions := attributes.transactions.map (·.filter isDeposit) }

/-- Execution of a payload on top of the tip. -/
def executeOnTip (d : Driver k) (attributes : OpPayloadAttributes) :
    Except k.ExecutorError k.Header × Driver k :=
  let (result, executor) :=
    k.executePayload (k.updateSafeHead d.executor d.tip.l2SafeHeadHeader) attributes
  (result, { d with executor })

/-- Execution of the deposits alone, after the current channel was flushed. -/
def retryDepositsOnly (d : Driver k) (attributes : OpPayloadAttributes) :
    Except (DriverError k) (k.Header × OpPayloadAttributes × Driver k) :=
  match k.signalFlushChannel d.pipeline with
  | (.error e, _) => .error (.pipeline e)
  | (.ok (), pipeline) =>
    match executeOnTip { d with pipeline } attributes.depositsOnly with
    | (.error e, _) => .error (.executor e)
    | (.ok header, d) => .ok (header, attributes.depositsOnly, d)

/-- Execution of a payload with the retry of Holocene: the header of the block and the
attributes it was executed from, or nothing when the block is discarded. -/
def executeAttributes (cfg : k.RollupConfig) (d : Driver k) (attributes : OpPayloadAttributes) :
    Except (DriverError k) (Option (k.Header × OpPayloadAttributes) × Driver k) :=
  match executeOnTip d attributes with
  | (.ok header, d) => .ok (some (header, attributes), d)
  | (.error _, d) =>
    if k.isHoloceneActive cfg attributes.timestamp then
      match retryDepositsOnly d attributes with
      | .error e => .error e
      | .ok (header, attributes, d) => .ok (some (header, attributes), d)
    else
      -- Pre-Holocene, discard the block if execution fails.
      .ok (none, d)

def decodeTransactions (attributes : OpPayloadAttributes) : Except (DriverError k) (List k.Tx) :=
  (attributes.transactions.getD []).mapM fun tx => (k.decodeTx tx).mapError .rlp

/-- `driver.pipeline.origin().ok_or(PipelineError::MissingOrigin.crit())`. -/
def pipelineOrigin (d : Driver k) : Except (DriverError k) BlockInfo :=
  match k.origin d.pipeline with
  | none => .error (.pipeline (.critical .missingOrigin))
  | some origin => .ok origin

/-- Construction of the block and of the tip it gives, which the cursor advances to. -/
def advanceCursor (d : Driver k) (header : k.Header) (attributes : OpPayloadAttributes) :
    Except (DriverError k) (TipCursor k.Header × Driver k) := do
  let transactions ← decodeTransactions attributes
  let origin ← pipelineOrigin d
  let l2Info ← (k.fromBlockAndGenesis ⟨header, transactions⟩
    (k.pipelineRollupConfig d.pipeline)).mapError .fromBlock
  match k.computeOutputRoot d.executor with
  | (.error e, _) => throw (.executor e)
  | (.ok outputRoot, executor) =>
    let tip := ⟨l2Info, header, outputRoot⟩
    return (tip, { d with executor, cursor := k.advance d.cursor origin tip })

/-- Whether the safe head reached the target. -/
def Advance.reached (s : Advance k) : Bool := s.target.any (· ≤ s.driver.tip.number)

/-- **One turn of the loop** of `advance_to_target`. -/
def advanceTurn (cfg : k.RollupConfig) (s : Advance k) : AdvanceTurn k :=
  if s.reached then
    .done (.ok (s.driver.tip.l2SafeHead, s.driver.tip.l2SafeHeadOutputRoot))
  else
    match k.producePayload s.driver.pipeline s.driver.tip.l2SafeHead with
    | (.error (.critical .endOfSource), pipeline) =>
      if k.isInteropActive cfg s.driver.tip.number then
        .done (.error (.pipeline (.critical .endOfSource)))
      else
        -- No more blocks can be produced: the target becomes the current safe head.
        .next .halted
          { driver := { s.driver with pipeline }
            target := s.target.map fun _ => s.driver.tip.number }
    | (.error e, _) => .done (.error (.pipeline e))
    | (.ok attributes, pipeline) =>
      match executeAttributes cfg { s.driver with pipeline } attributes with
      | .error e => .done (.error e)
      | .ok (none, driver) => .next .discarded { s with driver }
      | .ok (some (header, attributes), driver) =>
        match advanceCursor driver header attributes with
        | .error e => .done (.error e)
        | .ok (tip, driver) => .next (.advanced tip) { s with driver }

/-- `advance_to_target`, within `fuel` turns. -/
def advanceToTarget (fuel : Nat) (d : Driver k) (cfg : k.RollupConfig) (target : Option UInt64) :
    Option (AdvanceResult k) :=
  Transition.loop (advanceTurn cfg) fuel ⟨d, target⟩

/-! ## What a turn does -/

variable {cfg : k.RollupConfig} {s t : Advance k} {d d' : Driver k}
  {attributes attributes' : OpPayloadAttributes} {header : k.Header} {tip : TipCursor k.Header}

theorem cursor_executeOnTip (d : Driver k) (attributes : OpPayloadAttributes) :
    (executeOnTip d attributes).2.cursor = d.cursor := rfl

/-- **A successful execution**: the header is the executor's result for the attributes
on top of the tip, and the cursor stays. -/
def Executed (d : Driver k) (attributes : OpPayloadAttributes) (header : k.Header)
    (d' : Driver k) : Prop :=
  d'.cursor = d.cursor ∧ ∃ executor,
    k.executePayload (k.updateSafeHead executor d.tip.l2SafeHeadHeader) attributes =
      (.ok header, d'.executor)

theorem executed_of_executeOnTip (h : executeOnTip d attributes = (.ok header, d')) :
    Executed d attributes header d' := by
  simp only [executeOnTip, Prod.mk.injEq] at h
  obtain ⟨hresult, rfl⟩ := h
  exact ⟨rfl, d.executor, Prod.ext hresult rfl⟩

theorem retryDepositsOnly_ok
    (h : retryDepositsOnly d attributes = .ok (header, attributes', d')) :
    attributes' = attributes.depositsOnly ∧ Executed d attributes' header d' := by
  unfold retryDepositsOnly at h
  split at h
  · cases h
  · split at h
    · cases h
    · rename_i hexec
      cases h
      obtain ⟨hcursor, executor, hresult⟩ := executed_of_executeOnTip hexec
      exact ⟨rfl, hcursor, executor, hresult⟩

/-- An executed payload was executed as derived, or with its deposits alone. -/
theorem executeAttributes_some
    (h : executeAttributes cfg d attributes = .ok (some (header, attributes'), d')) :
    (attributes' = attributes ∨ attributes' = attributes.depositsOnly) ∧
      Executed d attributes' header d' := by
  unfold executeAttributes at h
  split at h
  · rename_i hexec
    cases h
    exact ⟨.inl rfl, executed_of_executeOnTip hexec⟩
  · rename_i hfailed
    split at h
    · split at h
      · cases h
      · rename_i hretry
        cases h
        obtain ⟨hattrs, hcursor, hresult⟩ := retryDepositsOnly_ok hretry
        -- The failed attempt left the cursor in place.
        have hstay := cursor_executeOnTip d attributes
        rw [hfailed] at hstay
        refine ⟨.inr hattrs, hcursor.trans hstay, ?_⟩
        rwa [Driver.tip, hstay] at hresult
    · cases h

theorem executeAttributes_none (h : executeAttributes cfg d attributes = .ok (none, d')) :
    d'.cursor = d.cursor := by
  unfold executeAttributes at h
  split at h
  · cases h
  · rename_i hfailed
    have hstay := cursor_executeOnTip d attributes
    rw [hfailed] at hstay
    split at h
    · split at h <;> cases h
    · cases h
      exact hstay

/-- **The tip of an executed block**: its info comes from the block with the header
and the transactions of the executed attributes, and its output root is the one the
executor computed next. -/
structure TipOf (d : Driver k) (header : k.Header) (attributes : OpPayloadAttributes)
    (tip : TipCursor k.Header) (d' : Driver k) : Prop where
  info : ∃ transactions, decodeTransactions attributes = .ok transactions ∧
    k.fromBlockAndGenesis ⟨header, transactions⟩ (k.pipelineRollupConfig d.pipeline) =
      .ok tip.l2SafeHead
  header_eq : tip.l2SafeHeadHeader = header
  outputRoot : k.computeOutputRoot d.executor = (.ok tip.l2SafeHeadOutputRoot, d'.executor)
  cursor : ∃ origin, k.origin d.pipeline = some origin ∧ d'.cursor = k.advance d.cursor origin tip

theorem pipelineOrigin_ok_iff {origin : BlockInfo} :
    pipelineOrigin d = .ok origin ↔ k.origin d.pipeline = some origin := by
  unfold pipelineOrigin
  split <;> simp_all

theorem advanceCursor_ok (h : advanceCursor d header attributes = .ok (tip, d')) :
    TipOf d header attributes tip d' := by
  simp only [advanceCursor, bind_ok_iff] at h
  obtain ⟨transactions, hdecode, origin, horigin, l2Info, hinfo, h⟩ := h
  split at h
  · cases h
  · rename_i hroot
    cases h
    exact ⟨⟨transactions, hdecode, mapError_ok_iff.mp hinfo⟩, rfl, hroot, origin,
      pipelineOrigin_ok_iff.mp horigin, rfl⟩

/-- The data source has no payload for the current safe head, outside interop, and the
target is not reached. -/
structure Exhausted (cfg : k.RollupConfig) (s : Advance k) : Prop where
  not_reached : s.reached = false
  endOfSource : (k.producePayload s.driver.pipeline s.driver.tip.l2SafeHead).1 =
    .error (.critical .endOfSource)
  no_interop : k.isInteropActive cfg s.driver.tip.number = false

/-- A turn that leaves the loop with a tip reached the target there. -/
theorem advanceTurn_done_ok {info : L2BlockInfo} {root : Bytes32}
    (h : advanceTurn cfg s = .done (.ok (info, root))) :
    s.reached = true ∧ info = s.driver.tip.l2SafeHead ∧
      root = s.driver.tip.l2SafeHeadOutputRoot := by
  unfold advanceTurn at h
  split at h
  · rename_i hreached
    cases h
    exact ⟨hreached, rfl, rfl⟩
  · split at h
    · split at h <;> cases h
    · cases h
    · split at h
      · cases h
      · cases h
      · split at h <;> cases h

theorem advanceTurn_of_reached (h : s.reached = true) : advanceTurn cfg s =
    .done (.ok (s.driver.tip.l2SafeHead, s.driver.tip.l2SafeHeadOutputRoot)) := by
  rw [advanceTurn, if_pos h]

/-- **Every turn that goes on** halts at the current safe head, discards a block, or
advances the cursor to the tip of a block executed on top of the old tip. -/
theorem advanceTurn_next {event : Event k} (h : advanceTurn cfg s = .next event t) :
    (event = .halted ∧ Exhausted cfg s ∧ t.driver.cursor = s.driver.cursor ∧
      t.target = s.target.map fun _ => s.driver.tip.number) ∨
    (event = .discarded ∧ s.reached = false ∧ t.driver.cursor = s.driver.cursor ∧
      t.target = s.target) ∨
    (∃ tip attributes header d, event = .advanced tip ∧ s.reached = false ∧ t.target = s.target ∧
      Executed s.driver attributes header d ∧ TipOf d header attributes tip t.driver) := by
  unfold advanceTurn at h
  split at h
  · cases h
  · rename_i hreached
    have hnot : s.reached = false := by simpa using hreached
    split at h
    · rename_i hpayload
      split at h
      · cases h
      · rename_i hinterop
        cases h
        exact .inl ⟨rfl, ⟨hnot, by rw [hpayload], by simpa using hinterop⟩, rfl, rfl⟩
    · cases h
    · split at h
      · cases h
      · rename_i hdiscard
        cases h
        have hstay := executeAttributes_none hdiscard
        exact .inr (.inl ⟨rfl, hnot, hstay, rfl⟩)
      · rename_i hexec
        split at h
        · cases h
        · rename_i hadvance
          cases h
          have hexecuted := (executeAttributes_some hexec).2
          exact .inr (.inr ⟨_, _, _, _, rfl, hnot, rfl, hexecuted, advanceCursor_ok hadvance⟩)

/-- An exhausted data source halts the derivation at the current safe head. -/
theorem advanceTurn_of_exhausted (h : Exhausted cfg s) :
    ∃ t, advanceTurn cfg s = .next .halted t ∧ t.driver.cursor = s.driver.cursor ∧
      t.target = s.target.map fun _ => s.driver.tip.number := by
  obtain ⟨hreached, hpayload, hinterop⟩ := h
  unfold advanceTurn
  rw [if_neg (by simp [hreached])]
  split
  · rw [if_neg (by simp [hinterop])]
    exact ⟨_, rfl, rfl, rfl⟩
  · rename_i hother hother'
    rw [hother'] at hpayload
    exact absurd (Except.error.inj hpayload) (by simpa using hother)
  · rename_i hok
    rw [hok] at hpayload
    cases hpayload

end OpSuccinct.Range
