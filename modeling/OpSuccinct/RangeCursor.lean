import OpSuccinct.RangeProgram

/-! # The cursor of the range program

A turn of `advance_to_target` may execute a payload twice: as it was derived, and, after a
failure under Holocene, its deposits alone.  `recordTurn` is the turn with its attempts and
with the cursor it leaves, also where the loop ends; forgetting them gives back the turn of
the driver (`recordTurn_turn`).

Every attempt runs on top of the header the cursor is at.  The cursor only moves after a
last attempt that succeeded, to a tip made of that attempt's header, of its transactions and
of the output root computed right after it (`cursor_consistent`).
-/
namespace OpSuccinct.Range

open Transition

variable {k : Kona}

/-! ## Turns with their attempts -/

/-- A call of `execute_payload`: the executor it was made on, and what it gave. -/
structure Attempt (k : Kona) where
  executor : k.Executor
  attributes : OpPayloadAttributes
  result : Except k.ExecutorError k.Header
  after : k.Executor

/-- The attempts of a turn, the cursor it leaves and what it does. -/
structure TurnRecord (k : Kona) where
  attempts : List (Attempt k)
  cursor : k.Cursor
  turn : AdvanceTurn k

/-- The attempt to execute a payload on top of the tip. -/
def attemptOnTip (d : Driver k) (attributes : OpPayloadAttributes) : Attempt k :=
  let executor := k.updateSafeHead d.executor d.tip.l2SafeHeadHeader
  ⟨executor, attributes, (k.executePayload executor attributes).1,
    (k.executePayload executor attributes).2⟩

/-- The rest of a turn whose last attempt gave a header. -/
def recordBlock (s : Advance k) (attempts : List (Attempt k)) (d : Driver k) (header : k.Header)
    (attributes : OpPayloadAttributes) : TurnRecord k :=
  match advanceCursor d header attributes with
  | .error e => ⟨attempts, d.cursor, .done (.error e)⟩
  | .ok (tip, driver) => ⟨attempts, driver.cursor, .next (.advanced tip) { s with driver }⟩

/-- The rest of a turn whose first attempt failed. -/
def recordRetry (cfg : k.RollupConfig) (s : Advance k) (first : Attempt k) (d : Driver k)
    (attributes : OpPayloadAttributes) : TurnRecord k :=
  if k.isHoloceneActive cfg attributes.timestamp then
    match k.signalFlushChannel d.pipeline with
    | (.error e, _) => ⟨[first], d.cursor, .done (.error (.pipeline e))⟩
    | (.ok (), pipeline) =>
      let second := attemptOnTip { d with pipeline } attributes.depositsOnly
      match second.result with
      | .error e => ⟨[first, second], d.cursor, .done (.error (.executor e))⟩
      | .ok header =>
        recordBlock s [first, second] { d with pipeline, executor := second.after } header
          attributes.depositsOnly
  else
    ⟨[first], d.cursor, .next .discarded { s with driver := d }⟩

/-- **One turn of the loop, with its attempts.** -/
def recordTurn (cfg : k.RollupConfig) (s : Advance k) : TurnRecord k :=
  if s.reached then
    ⟨[], s.driver.cursor, .done (.ok (s.driver.tip.l2SafeHead, s.driver.tip.l2SafeHeadOutputRoot))⟩
  else
    match k.producePayload s.driver.pipeline s.driver.tip.l2SafeHead with
    | (.error (.critical .endOfSource), pipeline) =>
      if k.isInteropActive cfg s.driver.tip.number then
        ⟨[], s.driver.cursor, .done (.error (.pipeline (.critical .endOfSource)))⟩
      else
        ⟨[], s.driver.cursor, .next .halted
          { driver := { s.driver with pipeline }
            target := s.target.map fun _ => s.driver.tip.number }⟩
    | (.error e, _) => ⟨[], s.driver.cursor, .done (.error (.pipeline e))⟩
    | (.ok attributes, pipeline) =>
      let first := attemptOnTip { s.driver with pipeline } attributes
      let driver := { s.driver with pipeline, executor := first.after }
      match first.result with
      | .error _ => recordRetry cfg s first driver attributes
      | .ok header => recordBlock s [first] driver header attributes

variable {cfg : k.RollupConfig} {s t : Advance k} {d : Driver k} {tr : List (Event k)}
  {attributes : OpPayloadAttributes} {header : k.Header}

theorem executeOnTip_eq (d : Driver k) (attributes : OpPayloadAttributes) :
    executeOnTip d attributes = ((attemptOnTip d attributes).result,
      { d with executor := (attemptOnTip d attributes).after }) := rfl

/-- What the driver does with the result of `execute_payload`. -/
def turnOf (s : Advance k) :
    Except (DriverError k) (Option (k.Header × OpPayloadAttributes) × Driver k) → AdvanceTurn k
  | .error e => .done (.error e)
  | .ok (none, driver) => .next .discarded { s with driver }
  | .ok (some (header, attributes), driver) => (recordBlock s [] driver header attributes).turn

/-- The attempts of a record do not decide its turn. -/
theorem recordBlock_turn (s : Advance k) (attempts : List (Attempt k)) (d : Driver k)
    (header : k.Header) (attributes : OpPayloadAttributes) :
    (recordBlock s attempts d header attributes).turn =
      turnOf s (.ok (some (header, attributes), d)) := by
  simp only [turnOf, recordBlock]
  split <;> rfl

theorem advanceTurn_of_payload {pipeline : k.Pipeline} (hreached : s.reached = false)
    (hpayload : k.producePayload s.driver.pipeline s.driver.tip.l2SafeHead =
      (.ok attributes, pipeline)) :
    advanceTurn cfg s =
      turnOf s (executeAttributes cfg { s.driver with pipeline } attributes) := by
  unfold advanceTurn
  rw [if_neg (by simp [hreached]), hpayload]
  dsimp only
  split
  · rename_i hexec
    rw [hexec, turnOf]
  · rename_i hexec
    rw [hexec, turnOf]
  · rename_i header attributes driver hexec
    rw [hexec]
    cases hadvance : advanceCursor driver header attributes with
    | error e => simp only [turnOf, recordBlock, hadvance]
    | ok result => simp only [turnOf, recordBlock, hadvance]

theorem recordRetry_turn (cfg : k.RollupConfig) (s : Advance k) (d : Driver k)
    (attributes : OpPayloadAttributes) {e : k.ExecutorError}
    (hfailed : (attemptOnTip d attributes).result = .error e) :
    (recordRetry cfg s (attemptOnTip d attributes)
      { d with executor := (attemptOnTip d attributes).after } attributes).turn =
      turnOf s (executeAttributes cfg d attributes) := by
  unfold recordRetry executeAttributes retryDepositsOnly
  simp only [executeOnTip_eq, hfailed]
  split
  · cases k.signalFlushChannel d.pipeline with
    | mk flushed pipeline =>
      cases flushed with
      | error e => rfl
      | ok _ =>
        dsimp only
        split
        · rename_i hsecond
          rw [hsecond, turnOf]
        · rename_i hsecond
          rw [hsecond]
          exact recordBlock_turn s _ _ _ _
  · rfl

/-- **The records are those of the driver's turns.** -/
theorem recordTurn_turn (cfg : k.RollupConfig) (s : Advance k) :
    (recordTurn cfg s).turn = advanceTurn cfg s := by
  unfold recordTurn
  split
  · rename_i hreached
    rw [advanceTurn_of_reached hreached]
  · rename_i hreached
    split
    · rename_i hpayload
      unfold advanceTurn
      rw [if_neg hreached, hpayload]
      dsimp only
      split <;> rfl
    · rename_i hother hpayload
      unfold advanceTurn
      rw [if_neg hreached, hpayload]
      -- The error is not the end of the source.
      split
      · rename_i hsource
        cases hsource
        exact absurd rfl hother
      · rename_i hsource
        cases hsource
        rfl
      · rename_i hsource
        cases hsource
    · rename_i hpayload
      rw [advanceTurn_of_payload (by simpa using hreached) hpayload]
      dsimp only
      split
      · rename_i hfailed
        exact recordRetry_turn cfg s _ _ hfailed
      · rename_i hfirst
        rw [recordBlock_turn, executeAttributes, executeOnTip_eq, hfirst]

/-! ## Attempts and cursor in step -/

/-- A call of `execute_payload` whose safe head was set to the header the cursor is at. -/
structure Attempt.OnTip (s : Advance k) (a : Attempt k) : Prop where
  safeHead : ∃ executor, a.executor = k.updateSafeHead executor s.driver.tip.l2SafeHeadHeader
  made : k.executePayload a.executor a.attributes = (a.result, a.after)

/-- **The attempts on a derived payload**: none, the payload as derived, or after it failed
its deposits alone. -/
inductive AttemptsOn (derived : OpPayloadAttributes) : List (Attempt k) → Prop
  | once {a : Attempt k} : a.attributes = derived → AttemptsOn derived [a]
  | retried {a b : Attempt k} {e : k.ExecutorError} : a.attributes = derived →
      a.result = .error e → b.attributes = derived.depositsOnly → AttemptsOn derived [a, b]

/-- What a turn from `s` attempts: nothing, or the payload derived for the current tip. -/
def AttemptsFrom (s : Advance k) (attempts : List (Attempt k)) : Prop :=
  attempts = [] ∨ ∃ derived pipeline,
    k.producePayload s.driver.pipeline s.driver.tip.l2SafeHead = (.ok derived, pipeline) ∧
      AttemptsOn derived attempts

/-- The cursor advances to `tip` after an attempt that succeeded: the block has the
attempt's header and transactions, and the output root is computed right after it. -/
structure AdvancedBy (s : Advance k) (a : Attempt k) (tip : TipCursor k.Header) (t : Advance k) :
    Prop where
  result : a.result = .ok tip.l2SafeHeadHeader
  info : ∃ transactions, decodeTransactions a.attributes = .ok transactions ∧
    k.fromBlockAndGenesis ⟨tip.l2SafeHeadHeader, transactions⟩
      (k.pipelineRollupConfig t.driver.pipeline) = .ok tip.l2SafeHead
  outputRoot : k.computeOutputRoot a.after = (.ok tip.l2SafeHeadOutputRoot, t.driver.executor)
  cursor : ∃ origin, k.origin t.driver.pipeline = some origin ∧
    t.driver.cursor = k.advance s.driver.cursor origin tip

/-- **The record of a turn from `s` is consistent.** -/
structure Consistent (s : Advance k) (r : TurnRecord k) : Prop where
  derived : AttemptsFrom s r.attempts
  onTip : ∀ a ∈ r.attempts, a.OnTip s
  failed : (∀ a ∈ r.attempts, ∃ e, a.result = .error e) → r.cursor = s.driver.cursor
  left : ∀ event t, r.turn = .next event t → t.driver.cursor = r.cursor
  advanced : ∀ tip t, r.turn = .next (.advanced tip) t →
    ∃ init last, r.attempts = init ++ [last] ∧ AdvancedBy s last tip t
  unmoved : (∀ tip t, r.turn ≠ .next (.advanced tip) t) → r.cursor = s.driver.cursor
  ok : ∀ info root, r.turn = .done (.ok (info, root)) →
    info = s.driver.tip.l2SafeHead ∧ root = s.driver.tip.l2SafeHeadOutputRoot

theorem attemptOnTip_onTip (hcursor : d.cursor = s.driver.cursor) :
    (attemptOnTip d attributes).OnTip s :=
  ⟨⟨d.executor, by rw [Driver.tip, ← hcursor]; rfl⟩, rfl⟩

theorem pipeline_advanceCursor {tip : TipCursor k.Header} {d' : Driver k}
    (h : advanceCursor d header attributes = .ok (tip, d')) : d'.pipeline = d.pipeline := by
  simp only [advanceCursor, bind_ok_iff] at h
  obtain ⟨transactions, -, origin, -, l2Info, -, h⟩ := h
  split at h
  · cases h
  · cases h
    rfl

section
variable {derived : OpPayloadAttributes} {pipeline : k.Pipeline} {attempts : List (Attempt k)}
  {a : Attempt k} {cursor : k.Cursor}

/-- A record without a new tip that leaves the cursor in place. -/
theorem consistent_of_stay {turn : AdvanceTurn k} (hcursor : cursor = s.driver.cursor)
    (hderived : AttemptsFrom s attempts) (honTip : ∀ a ∈ attempts, a.OnTip s)
    (hleft : ∀ event t, turn = .next event t →
      t.driver.cursor = s.driver.cursor ∧ ∀ tip, event ≠ .advanced tip)
    (hok : ∀ info root, turn = .done (.ok (info, root)) →
      info = s.driver.tip.l2SafeHead ∧ root = s.driver.tip.l2SafeHeadOutputRoot) :
    Consistent s ⟨attempts, cursor, turn⟩ where
  derived := hderived
  onTip := honTip
  failed := fun _ => hcursor
  left := fun event t hturn => (hleft event t hturn).1.trans hcursor.symm
  advanced := fun tip t hturn => absurd rfl ((hleft _ t hturn).2 tip)
  unmoved := fun _ => hcursor
  ok := hok

/-- A record that ends with an error. -/
theorem consistent_of_error {e : DriverError k} (hcursor : cursor = s.driver.cursor)
    (hderived : AttemptsFrom s attempts) (honTip : ∀ a ∈ attempts, a.OnTip s) :
    Consistent s ⟨attempts, cursor, .done (.error e)⟩ :=
  consistent_of_stay hcursor hderived honTip (fun _ _ h => by cases h) (fun _ _ h => by cases h)

/-- A record whose last attempt gave a header. -/
theorem consistent_recordBlock (attempts : List (Attempt k)) (hcursor : d.cursor = s.driver.cursor)
    (hpayload : k.producePayload s.driver.pipeline s.driver.tip.l2SafeHead =
      (.ok derived, pipeline))
    (hattempts : AttemptsOn derived (attempts ++ [a])) (honTip : ∀ b ∈ attempts ++ [a], b.OnTip s)
    (hresult : a.result = .ok header) (hafter : d.executor = a.after) :
    Consistent s (recordBlock s (attempts ++ [a]) d header a.attributes) := by
  have hderived : AttemptsFrom s (attempts ++ [a]) := .inr ⟨derived, pipeline, hpayload, hattempts⟩
  unfold recordBlock
  split
  · exact consistent_of_error hcursor hderived honTip
  · rename_i tip driver hadvance
    obtain ⟨hinfo, rfl, hroot, origin, horigin, hmoved⟩ := advanceCursor_ok hadvance
    have hpipeline : driver.pipeline = d.pipeline := pipeline_advanceCursor hadvance
    refine ⟨hderived, honTip, ?_, ?_, ?_, ?_, ?_⟩
    · -- The last attempt did not fail.
      intro hall
      obtain ⟨e, he⟩ := hall a (by simp)
      rw [hresult] at he
      cases he
    · rintro event t ⟨⟩
      rfl
    · rintro tip' t ⟨⟩
      refine ⟨attempts, a, rfl, hresult, ?_, ?_, origin, ?_, ?_⟩
      · rw [hpipeline]
        exact hinfo
      · rw [← hafter]
        exact hroot
      · rw [hpipeline]
        exact horigin
      · rw [← hcursor]
        exact hmoved
    · intro hnot
      exact absurd rfl (hnot _ _)
    · rintro info root ⟨⟩

/-- A record whose first attempt failed. -/
theorem consistent_recordRetry (hcursor : d.cursor = s.driver.cursor)
    (hpayload : k.producePayload s.driver.pipeline s.driver.tip.l2SafeHead =
      (.ok derived, pipeline))
    (honTip : a.OnTip s) (hattributes : a.attributes = derived) {e : k.ExecutorError}
    (hfailed : a.result = .error e) :
    Consistent s (recordRetry cfg s a d derived) := by
  have honce : AttemptsOn derived [a] := .once hattributes
  have hone : ∀ b ∈ [a], b.OnTip s := by simpa using honTip
  unfold recordRetry
  split
  · split
    · exact consistent_of_error hcursor (.inr ⟨derived, pipeline, hpayload, honce⟩) hone
    · rename_i pipeline' hflush
      have htwo : ∀ b ∈ [a, attemptOnTip { d with pipeline := pipeline' } derived.depositsOnly],
          b.OnTip s := by
        simpa using ⟨honTip, attemptOnTip_onTip hcursor⟩
      have hretried : AttemptsOn derived
          [a, attemptOnTip { d with pipeline := pipeline' } derived.depositsOnly] :=
        .retried hattributes hfailed rfl
      dsimp only
      split
      · exact consistent_of_error hcursor (.inr ⟨derived, pipeline, hpayload, hretried⟩) htwo
      · rename_i hsecond
        exact consistent_recordBlock [a] hcursor hpayload hretried htwo hsecond rfl
  · refine consistent_of_stay hcursor (.inr ⟨derived, pipeline, hpayload, honce⟩) hone ?_ ?_
    · rintro event t ⟨⟩
      exact ⟨hcursor, by simp⟩
    · rintro info root ⟨⟩

/-- **Every record is consistent.** -/
theorem consistent_recordTurn (cfg : k.RollupConfig) (s : Advance k) :
    Consistent s (recordTurn cfg s) := by
  unfold recordTurn
  split
  · refine consistent_of_stay rfl (.inl rfl) (by simp) (fun _ _ h => by cases h) ?_
    rintro info root ⟨⟩
    exact ⟨rfl, rfl⟩
  · split
    · split
      · exact consistent_of_error rfl (.inl rfl) (by simp)
      · refine consistent_of_stay rfl (.inl rfl) (by simp) ?_ (fun _ _ h => by cases h)
        rintro event t ⟨⟩
        exact ⟨rfl, by simp⟩
    · exact consistent_of_error rfl (.inl rfl) (by simp)
    · rename_i derived pipeline hpayload
      have honTip : (attemptOnTip { s.driver with pipeline := pipeline } derived).OnTip s :=
        attemptOnTip_onTip rfl
      dsimp only
      split
      · rename_i hfailed
        exact consistent_recordRetry rfl hpayload honTip rfl hfailed
      · rename_i hfirst
        exact consistent_recordBlock [] rfl hpayload (.once rfl)
          (by simpa using honTip) hfirst rfl

end

/-! ## Runs -/

/-- The tip of an advanced cursor is the one it was advanced to. -/
def SetsTip (k : Kona) : Prop := ∀ cursor origin tip, k.tip (k.advance cursor origin tip) = tip

/-- The tip after a turn. -/
def Event.tipAfter (tip : TipCursor k.Header) : Event k → TipCursor k.Header
  | .advanced tip' => tip'
  | .halted | .discarded => tip

/-- The tip last advanced to, or the first one. -/
def lastTip (tip : TipCursor k.Header) (tr : List (Event k)) : TipCursor k.Header :=
  tr.foldl Event.tipAfter tip

/-- A turn that goes on leaves the cursor at the tip its event names, or where it was. -/
theorem tip_of_next (htip : SetsTip k) {event : Event k}
    (hnext : advanceTurn cfg s = .next event t) : t.driver.tip = event.tipAfter s.driver.tip := by
  have hrecord := (recordTurn_turn cfg s).trans hnext
  have hconsistent := consistent_recordTurn cfg s
  have hleft := hconsistent.left event t hrecord
  cases event with
  | advanced tip =>
    obtain ⟨init, last, -, hadvanced⟩ := hconsistent.advanced tip t hrecord
    obtain ⟨origin, -, hcursor⟩ := hadvanced.cursor
    rw [Driver.tip, hcursor, htip, Event.tipAfter]
  | halted =>
    have hstay := hconsistent.unmoved (by simp [hrecord])
    rw [Driver.tip, hleft, hstay, Event.tipAfter]
  | discarded =>
    have hstay := hconsistent.unmoved (by simp [hrecord])
    rw [Driver.tip, hleft, hstay, Event.tipAfter]

theorem tip_of_run (htip : SetsTip k) (hrun : Run (Turns (advanceTurn cfg)) s tr t) :
    t.driver.tip = lastTip s.driver.tip tr := by
  induction hrun with
  | nil => rfl
  | snoc _ hnext ih =>
    rw [tip_of_next htip hnext, ih, lastTip, lastTip, List.foldl_append]
    rfl

/-- **The cursor of `advance_to_target`.**  Whatever kona does and for every target, each
turn the loop takes is the one recorded, and its record is consistent; the tip is always
the last one advanced to.  An `Ok` result is the block info and the output root of the tip
it ends at. -/
theorem cursor_consistent (cfg : k.RollupConfig) (d : Driver k) (target : Option UInt64) :
    (∀ tr s, Run (Turns (advanceTurn cfg)) ⟨d, target⟩ tr s →
      (recordTurn cfg s).turn = advanceTurn cfg s ∧ Consistent s (recordTurn cfg s) ∧
        (SetsTip k → s.driver.tip = lastTip d.tip tr)) ∧
    ∀ fuel info root, advanceToTarget fuel d cfg target = some (.ok (info, root)) →
      ∃ tr s, Run (Turns (advanceTurn cfg)) ⟨d, target⟩ tr s ∧ s.reached = true ∧
        info = s.driver.tip.l2SafeHead ∧ root = s.driver.tip.l2SafeHeadOutputRoot := by
  constructor
  · intro tr s hrun
    exact ⟨recordTurn_turn cfg s, consistent_recordTurn cfg s, fun htip => tip_of_run htip hrun⟩
  · intro fuel info root hok
    obtain ⟨tr, s, hrun, hdone⟩ := loop_returns_iff.mp ⟨fuel, hok⟩
    exact ⟨tr, s, hrun, advanceTurn_done_ok hdone⟩

/-! ### A payload that executes with its deposits alone -/

/-- A pipeline that derives a deposit after another transaction, and an executor that only
executes deposits. -/
def depositsKona : Kona := { exampleKona with
  producePayload := fun (n : Nat) safeHead =>
    (.ok ⟨safeHead.blockInfo.timestamp + 1, some [[2, 7], [126, 7]], []⟩, n)
  executePayload := fun (safeHead : UInt64) attributes =>
    if (attributes.transactions.getD []).all isDeposit then
      (.ok (safeHead + 1 : UInt64), (safeHead + 1 : UInt64))
    else (.error (), safeHead) }

/-- The loop at block 1. -/
def depositsStart : Advance depositsKona := ⟨⟨exampleCursor, (0 : UInt64), (1 : Nat)⟩, some 5⟩

example : (recordTurn (k := depositsKona) () depositsStart).attempts.map
    (·.attributes.transactions) = [some [[2, 7], [126, 7]], some [[126, 7]]] := rfl

example : (recordTurn (k := depositsKona) () depositsStart).cursor = exampleTip := rfl

end OpSuccinct.Range
