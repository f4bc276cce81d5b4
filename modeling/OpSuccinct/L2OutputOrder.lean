import OpSuccinct.L2OutputChain

/-! # The order of the outputs

The stored outputs are searched by block number and aged by their timestamps, so
the oracle relies on both growing with the index.  The timestamps always do
(`Aged`).  The block numbers, and with them the L2 clock, depend on what the
owner and the proposers do (`Dated`): a proposal must bring a block above the
latest one that fits its `uint128`, and a new L2 block time must not move an
output's block to the time it was pushed or later (`KeepsDates`).  Every accepted
call keeps the order exactly when it meets that condition, so a run does too
(`monotone_outputs`).
-/
namespace OpSuccinct.OutputOracle

open Transition

variable {chain : Chain} {env : Env} {s s' : Oracle}

/-! ## What an accepted call does to the outputs -/

/-- The block number a proposal brings, in either mode. -/
def Call.proposedBlock : Call → Option Nat
  | .proposeL2Output _ _ block _ _ _ => some block
  | .proposeL2OutputOptimistic _ block _ _ => some block
  | _ => none

/-- **An accepted proposal of `block`**, in either mode. -/
structure Pushed (env : Env) (s : Oracle) (block : Nat) (s' : Oracle) : Prop where
  pushed : ∃ root, s' = s.push ⟨root, toUint128 env.msg.timestamp, toUint128 block⟩
  next : latestBlockNumber s + s.submissionInterval ≤ block
  past : ∃ t, computeL2Timestamp s block = .ok t ∧ t < env.msg.timestamp
  live : s.optimisticMode = true ∨ 0 < s.l2OutputsLength

/-- The call left the outputs and the L2 clock alone; unless the owner made it, it
left the owner and the mode too. -/
structure Untouched (env : Env) (s s' : Oracle) : Prop where
  length : s'.l2OutputsLength = s.l2OutputsLength
  slot : s'.l2OutputsSlot = s.l2OutputsSlot
  blockTime : s'.l2BlockTime = s.l2BlockTime
  startingBlock : s'.startingBlockNumber = s.startingBlockNumber
  startingTime : s'.startingTimestamp = s.startingTimestamp
  authorized : env.msg.sender = s.owner ∨
    s'.owner = s.owner ∧ s'.optimisticMode = s.optimisticMode

theorem proposeL2Output_pushed {configName outputRoot : Bytes32} {block l1Block : Nat}
    {proof : Bytes} {prover : Address}
    (h : proposeL2Output env s configName outputRoot block l1Block proof prover = .ok s') :
    Pushed env s block s' := by
  simp only [proposeL2Output, nextBlockNumber, latestOutputIndex, bind_ok_iff, require_ok_iff,
    checkedAdd_ok_iff, checkedSub_ok_iff, pure_ok_iff] at h
  obtain ⟨_, -, _, -, _, ⟨-, rfl⟩, _, hnext, t, ht, _, hlt, _, -, _, -, _, -, _, ⟨hlen, -⟩, _, -,
    rfl⟩ := h
  exact ⟨⟨_, rfl⟩, hnext, ⟨t, ht, hlt⟩, .inr hlen⟩

theorem proposeL2OutputOptimistic_pushed {outputRoot l1Hash : Bytes32} {block l1Block : Nat}
    (h : proposeL2OutputOptimistic chain env s outputRoot block l1Hash l1Block = .ok s') :
    Pushed env s block s' := by
  simp only [proposeL2OutputOptimistic, whenOptimistic, nextBlockNumber, bind_ok_iff,
    require_ok_iff, checkedAdd_ok_iff, pure_ok_iff] at h
  obtain ⟨_, hmode, _, -, _, ⟨-, rfl⟩, _, hnext, t, ht, _, hlt, _, -, _, -, rfl⟩ := h
  exact ⟨⟨_, rfl⟩, Nat.le_of_eq hnext.symm, ⟨t, ht, hlt⟩, .inl hmode⟩

/-- The call neither initializes nor deletes. -/
def Call.keepsOutputs : Call → Bool
  | .initializeOracle _ _ | .deleteL2Outputs _ => false
  | _ => true

theorem Call.ne_initialize {call : Call} (h : call.keepsOutputs = true) (version : Nat)
    (params : InitParams) : call ≠ .initializeOracle version params := by
  rintro rfl
  cases h

theorem Call.ne_delete {call : Call} (h : call.keepsOutputs = true) (i : Nat) :
    call ≠ .deleteL2Outputs i := by
  rintro rfl
  cases h

/-- Every accepted call initializes, deletes, proposes a block, or leaves the outputs. -/
theorem effect_cases {call : Call} (h : dispatch chain env s call = .ok s') :
    (∃ version params, call = .initializeOracle version params ∧
      initializeOracle chain env s version params = .ok s') ∨
    (∃ i, call = .deleteL2Outputs i ∧ deleteL2Outputs env s i = .ok s') ∨
    (∃ block, call.proposedBlock = some block ∧ (∀ v p, call ≠ .initializeOracle v p) ∧
      (∀ i, call ≠ .deleteL2Outputs i) ∧ Pushed env s block s') ∨
    (call.proposedBlock = none ∧ (∀ v p, call ≠ .initializeOracle v p) ∧
      (∀ i, call ≠ .deleteL2Outputs i) ∧ Untouched env s s') := by
  cases call with
  | initializeOracle version params => exact .inl ⟨_, _, rfl, h⟩
  | deleteL2Outputs i => exact .inr (.inl ⟨_, rfl, h⟩)
  | proposeL2Output configName outputRoot block l1Block proof prover =>
    exact .inr (.inr (.inl ⟨block, rfl, Call.ne_initialize rfl, Call.ne_delete rfl,
      proposeL2Output_pushed h⟩))
  | proposeL2OutputOptimistic outputRoot block l1Hash l1Block =>
    exact .inr (.inr (.inl ⟨block, rfl, Call.ne_initialize rfl, Call.ne_delete rfl,
      proposeL2OutputOptimistic_pushed h⟩))
  | checkpointBlockHash n =>
    obtain ⟨-, rfl⟩ := checkpointBlockHash_ok_iff.mp h
    exact .inr (.inr (.inr ⟨rfl, Call.ne_initialize rfl, Call.ne_delete rfl,
      rfl, rfl, rfl, rfl, rfl, .inr ⟨rfl, rfl⟩⟩))
  | updateSubmissionInterval _ | deleteOpSuccinctConfig _ | transferOwnership _ | addProposer _
  | removeProposer _ =>
    obtain ⟨hsender, rfl⟩ := asOwner_ok_iff.mp h
    exact .inr (.inr (.inr ⟨rfl, Call.ne_initialize rfl, Call.ne_delete rfl,
      rfl, rfl, rfl, rfl, rfl, .inl hsender⟩))
  | addOpSuccinctConfig _ _ _ _ =>
    simp only [dispatch, addOpSuccinctConfig, onlyOwner, bind_ok_iff, require_ok_iff,
      pure_ok_iff] at h
    obtain ⟨_, hsender, _, -, _, -, _, -, rfl⟩ := h
    exact .inr (.inr (.inr ⟨rfl, Call.ne_initialize rfl, Call.ne_delete rfl,
      rfl, rfl, rfl, rfl, rfl, .inl hsender⟩))
  | enableOptimisticMode _ | disableOptimisticMode _ =>
    simp only [dispatch, enableOptimisticMode, disableOptimisticMode, onlyOwner, bind_ok_iff,
      require_ok_iff, pure_ok_iff] at h
    obtain ⟨_, hsender, _, -, rfl⟩ := h
    exact .inr (.inr (.inr ⟨rfl, Call.ne_initialize rfl, Call.ne_delete rfl,
      rfl, rfl, rfl, rfl, rfl, .inl hsender⟩))

theorem pushStarting_of_empty {params : InitParams} (h : s.l2OutputsLength = 0) :
    pushStarting s params = { s.push ⟨params.startingOutputRoot,
      toUint128 params.startingTimestamp, toUint128 params.startingBlockNumber⟩ with
      startingBlockNumber := params.startingBlockNumber
      startingTimestamp := params.startingTimestamp } := by
  rw [pushStarting, if_pos h]

theorem pushStarting_of_nonempty {params : InitParams} (h : s.l2OutputsLength ≠ 0) :
    pushStarting s params = s := by
  rw [pushStarting, if_neg h]

/-! ## Timestamps -/

/-- Nobody owns the contract before its L2 clock runs, and it has no output. -/
def Dormant (s : Oracle) : Prop :=
  s.owner = zeroAddress ∧ s.optimisticMode = false ∧ s.l2OutputsLength = 0

/-- **The outputs are of age**: pushed in the order of their timestamps, none of them in
the future.  Whatever is called keeps this. -/
structure Aged (s : Oracle) (now : Nat) : Prop where
  startingTime : s.startingTimestamp ≤ now
  past : ∀ i < s.l2OutputsLength, (s.l2OutputsSlot i).timestamp ≤ now
  sorted : ∀ i j, i < j → j < s.l2OutputsLength →
    (s.l2OutputsSlot i).timestamp ≤ (s.l2OutputsSlot j).timestamp
  clock : 0 < s.l2BlockTime ∨ Dormant s

theorem aged_fresh : Aged Oracle.fresh 0 where
  startingTime := Nat.le_refl 0
  past i hi := by cases hi
  sorted i j _ hj := by cases hj
  clock := .inr ⟨rfl, rfl, rfl⟩

theorem Aged.mono {now now' : Nat} (h : Aged s now) (hle : now ≤ now') : Aged s now' where
  startingTime := Nat.le_trans h.startingTime hle
  past i hi := Nat.le_trans (h.past i hi) hle
  sorted := h.sorted
  clock := h.clock

/-- An output on top: the ones below are older, and it is the present one. -/
theorem Aged.push {now : Nat} (h : Aged s now) {output : OutputProposal}
    (htime : output.timestamp ≤ now)
    (hlast : ∀ i < s.l2OutputsLength, (s.l2OutputsSlot i).timestamp ≤ output.timestamp)
    (hclock : 0 < s.l2BlockTime) : Aged (s.push output) now where
  startingTime := h.startingTime
  past i hi := by
    by_cases htop : i = s.l2OutputsLength
    · simpa [Oracle.push, htop] using htime
    · have hi' : i < s.l2OutputsLength := by
        simp only [Oracle.push] at hi
        omega
      simpa [Oracle.push, htop] using h.past i hi'
  sorted i j hij hj := by
    have hi' : i < s.l2OutputsLength := by
      simp only [Oracle.push] at hj
      omega
    have hi : i ≠ s.l2OutputsLength := by omega
    by_cases htop : j = s.l2OutputsLength
    · simpa [Oracle.push, htop, hi] using hlast i hi'
    · have hj' : j < s.l2OutputsLength := by
        simp only [Oracle.push] at hj
        omega
      simpa [Oracle.push, htop, hi] using h.sorted i j hij hj'
  clock := .inl hclock

/-- A shorter list, or the same one. -/
theorem Aged.truncate {now : Nat} (h : Aged s now) (hlen : s'.l2OutputsLength ≤ s.l2OutputsLength)
    (hslot : s'.l2OutputsSlot = s.l2OutputsSlot)
    (hstart : s'.startingTimestamp = s.startingTimestamp)
    (hclock : 0 < s'.l2BlockTime ∨ Dormant s') : Aged s' now where
  startingTime := hstart ▸ h.startingTime
  past i hi := by
    rw [hslot]
    exact h.past i (by omega)
  sorted i j hij hj := by
    rw [hslot]
    exact h.sorted i j hij (by omega)
  clock := hclock

/-- Only an initialization wakes a dormant contract. -/
theorem Pushed.clock {block now : Nat} (h : Pushed env s block s') (hs : Aged s now) :
    0 < s.l2BlockTime := by
  rcases hs.clock with hclock | ⟨-, hmode, hlen⟩
  · exact hclock
  · rcases h.live with hlive | hlive
    · rw [hmode] at hlive
      cases hlive
    · omega

theorem Untouched.clock {now : Nat} (h : Untouched env s s') (hs : Aged s now) :
    0 < s'.l2BlockTime ∨ Dormant s' := by
  rcases hs.clock with hclock | ⟨howner, hmode, hlen⟩
  · exact .inl (h.blockTime ▸ hclock)
  · rcases h.authorized with hsender | ⟨howner', hmode'⟩
    · exact absurd (hsender.trans howner) env.msg.sender_ne_zero
    · exact .inr ⟨howner'.trans howner, hmode'.trans hmode, h.length.trans hlen⟩

/-- **Every accepted call keeps the outputs of age**, at the time it is made. -/
theorem Aged.step {call : Call} (h : Aged s env.msg.timestamp)
    (hnow : env.msg.timestamp < 2 ^ 64) (hstep : dispatch chain env s call = .ok s') :
    Aged s' env.msg.timestamp := by
  have hcast : toUint128 env.msg.timestamp = env.msg.timestamp := toUint128_of_lt (by omega)
  rcases effect_cases hstep with ⟨version, params, -, hi⟩ | ⟨i, -, hd⟩ | ⟨block, -, -, -, hp⟩ |
    ⟨-, -, -, hu⟩
  · obtain ⟨-, -, htime, hstart, rfl⟩ := initializeOracle_ok_iff.mp hi
    by_cases hempty : s.l2OutputsLength = 0
    · -- the starting output is the only one
      have hpush : pushStarting s params = _ := pushStarting_of_empty hempty
      have hmod : toUint128 params.startingTimestamp ≤ params.startingTimestamp := Nat.mod_le _ _
      refine ⟨?_, fun i hi => ?_, fun i j hij hj => ?_, .inl htime⟩
      · simpa [hpush] using hstart
      · simp only [hpush, Oracle.push, hempty] at hi
        obtain rfl : i = 0 := by omega
        simp only [hpush, Oracle.push, hempty, Function.update_self]
        omega
      · simp only [hpush, Oracle.push, hempty] at hj
        omega
    · have hsame : pushStarting s params = s := pushStarting_of_nonempty hempty
      exact h.truncate (by simp [hsame]) (by simp [hsame]) (by simp [hsame]) (.inl htime)
  · obtain ⟨-, hi, -, -, rfl⟩ := deleteL2Outputs_ok_iff.mp hd
    refine h.truncate (Nat.le_of_lt hi) rfl rfl (h.clock.imp_right fun hdormant => ?_)
    rw [hdormant.2.2] at hi
    cases hi
  · obtain ⟨root, rfl⟩ := hp.pushed
    refine h.push (Nat.le_of_eq hcast) (fun i hi => ?_) (hp.clock h)
    rw [hcast]
    exact h.past i hi
  · exact h.truncate (Nat.le_of_eq hu.length) hu.slot hu.startingTime (hu.clock h)

/-! ## Block numbers and the L2 clock -/

/-- **The outputs are dated**: their block numbers increase, and each block after the
first is in the past, by the L2 clock, of the time its output was pushed. -/
structure Dated (s : Oracle) : Prop where
  increasing : ∀ i j, i < j → j < s.l2OutputsLength →
    (s.l2OutputsSlot i).l2BlockNumber < (s.l2OutputsSlot j).l2BlockNumber
  clock : ∀ i, 1 ≤ i → i < s.l2OutputsLength →
    ∃ t, computeL2Timestamp s (s.l2OutputsSlot i).l2BlockNumber = .ok t ∧
      t < (s.l2OutputsSlot i).timestamp

/-- A proposed block is above the latest one and fits the `uint128` it is stored in.
Only a zero submission interval lets the latest block be proposed again. -/
def Advances (s : Oracle) (block : Nat) : Prop :=
  s.l2OutputsLength = 0 ∨ block ≠ latestBlockNumber s ∧ block < 2 ^ 128

/-- Under a new block time every block after the first stays in the past of its push. -/
def Redates (s : Oracle) (l2BlockTime : Nat) : Prop :=
  ∀ i, 1 ≤ i → i < s.l2OutputsLength →
    s.startingTimestamp + ((s.l2OutputsSlot i).l2BlockNumber - s.startingBlockNumber) *
      l2BlockTime < (s.l2OutputsSlot i).timestamp

/-- **The condition on one call**: a proposal advances, and an initialization that finds
outputs redates them. -/
def KeepsDates (s : Oracle) (call : Call) : Prop :=
  (∀ block, call.proposedBlock = some block → Advances s block) ∧
    ∀ version params, call = .initializeOracle version params → Redates s params.l2BlockTime

theorem dated_fresh : Dated Oracle.fresh where
  increasing i j _ hj := by cases hj
  clock i _ hi := by cases hi

/-- A shorter list under the same clock. -/
theorem Dated.truncate (h : Dated s) (hlen : s'.l2OutputsLength ≤ s.l2OutputsLength)
    (hslot : s'.l2OutputsSlot = s.l2OutputsSlot) (htime : s'.l2BlockTime = s.l2BlockTime)
    (hblock : s'.startingBlockNumber = s.startingBlockNumber)
    (hstart : s'.startingTimestamp = s.startingTimestamp) : Dated s' where
  increasing i j hij hj := by
    rw [hslot]
    exact h.increasing i j hij (by omega)
  clock i hi hlt := by
    obtain ⟨t, ht, hpast⟩ := h.clock i hi (by omega)
    refine ⟨t, ?_, hslot ▸ hpast⟩
    rw [hslot, computeL2Timestamp, htime, hblock, hstart]
    exact ht

/-- A list of at most one output has nothing to keep. -/
theorem dated_of_length_le_one (h : s.l2OutputsLength ≤ 1) : Dated s where
  increasing i j hij hj := by omega
  clock i hi hlt := by omega

/-- **A proposal on an empty list** keeps the dates, whatever its block. -/
theorem dated_push_of_empty {output : OutputProposal} (h : s.l2OutputsLength = 0) :
    Dated (s.push output) :=
  dated_of_length_le_one (by simp [Oracle.push, h])

/-- **A proposal on top** keeps the dates exactly when its output is above the latest one
and in the past. -/
theorem dated_push_iff {output : OutputProposal} (h : Dated s) (hlen : s.l2OutputsLength ≠ 0) :
    Dated (s.push output) ↔ latestBlockNumber s < output.l2BlockNumber ∧
      ∃ t, computeL2Timestamp s output.l2BlockNumber = .ok t ∧ t < output.timestamp := by
  have hlatest : latestBlockNumber s =
      (s.l2OutputsSlot (s.l2OutputsLength - 1)).l2BlockNumber := by
    rw [latestBlockNumber, if_neg hlen]
  have hbelow : ∀ i < s.l2OutputsLength, (s.push output).l2OutputsSlot i = s.l2OutputsSlot i := by
    intro i hi
    have hne : i ≠ s.l2OutputsLength := by omega
    simp [Oracle.push, hne]
  have htop : (s.push output).l2OutputsSlot s.l2OutputsLength = output := by simp [Oracle.push]
  have hlength : (s.push output).l2OutputsLength = s.l2OutputsLength + 1 := rfl
  constructor
  · intro hpush
    have hlt := hpush.increasing (s.l2OutputsLength - 1) s.l2OutputsLength (by omega) (by omega)
    have hclock := hpush.clock s.l2OutputsLength (by omega) (by omega)
    rw [hbelow _ (by omega), htop] at hlt
    rw [htop] at hclock
    exact ⟨hlatest ▸ hlt, hclock⟩
  · rintro ⟨hlt, hclock⟩
    refine ⟨fun i j hij hj => ?_, fun i hi hlt' => ?_⟩
    · rw [hbelow i (by omega)]
      by_cases hj' : j = s.l2OutputsLength
      · rw [hj', htop]
        by_cases hi' : i = s.l2OutputsLength - 1
        · rw [hi', ← hlatest]
          exact hlt
        · have h' := h.increasing i (s.l2OutputsLength - 1) (by omega) (by omega)
          omega
      · rw [hbelow j (by omega)]
        exact h.increasing i j hij (by omega)
    · by_cases hi' : i = s.l2OutputsLength
      · rw [hi', htop]
        exact hclock
      · rw [hbelow i (by omega)]
        exact h.clock i hi (by omega)

/-- A block past the `uint128` is stored below the starting block: the L2 clock reaches
less than `2 ^ 64` blocks beyond it. -/
theorem wrapped_lt_startingBlock {block t : Nat} (hclock : 0 < s.l2BlockTime)
    (ht : computeL2Timestamp s block = .ok t) (hlt : t < 2 ^ 64) (hbig : 2 ^ 128 ≤ block) :
    toUint128 block < s.startingBlockNumber := by
  obtain ⟨hstart, -, -, heq⟩ := computeL2Timestamp_ok_iff.mp ht
  have hblocks : block - s.startingBlockNumber ≤
      (block - s.startingBlockNumber) * s.l2BlockTime := Nat.le_mul_of_pos_right _ hclock
  have hmod : toUint128 block ≤ block - 2 ^ 128 := by
    rw [toUint128, Nat.mod_eq_sub_mod hbig]
    exact Nat.mod_le _ _
  omega

/-- **An accepted proposal keeps the dates exactly when it advances.** -/
theorem Pushed.dated_iff {block : Nat} (h : Pushed env s block s')
    (haged : Aged s env.msg.timestamp) (hnow : env.msg.timestamp < 2 ^ 64) (hs : Dated s) :
    Dated s' ↔ Advances s block := by
  have hcast : toUint128 env.msg.timestamp = env.msg.timestamp := toUint128_of_lt (by omega)
  obtain ⟨t, ht, hpast⟩ := h.past
  have hnext := h.next
  obtain ⟨root, rfl⟩ := h.pushed
  by_cases hlen : s.l2OutputsLength = 0
  · exact iff_of_true (dated_push_of_empty hlen) (.inl hlen)
  · rw [dated_push_iff hs hlen]
    constructor
    · rintro ⟨hlt, t', ht', -⟩
      have hmod : toUint128 block ≤ block := Nat.mod_le _ _
      dsimp only at hlt ht'
      refine .inr ⟨by omega, ?_⟩
      by_contra hbig
      have hwrapped := wrapped_lt_startingBlock (h.clock haged) ht (by omega)
        (Nat.le_of_not_lt hbig)
      have hstart := (computeL2Timestamp_ok_iff.mp ht').1
      omega
    · rintro (hempty | ⟨hne, hfits⟩)
      · exact absurd hempty hlen
      · dsimp only
        rw [hcast, toUint128_of_lt hfits]
        exact ⟨by omega, t, ht, hpast⟩

/-- **An initialization that finds outputs keeps the dates exactly when it redates them.** -/
theorem initialize_dated_iff {version : Nat} {params : InitParams}
    (haged : Aged s env.msg.timestamp) (hnow : env.msg.timestamp < 2 ^ 64) (hs : Dated s)
    (h : initializeOracle chain env s version params = .ok s') :
    Dated s' ↔ Redates s params.l2BlockTime := by
  obtain ⟨-, -, -, -, rfl⟩ := initializeOracle_ok_iff.mp h
  by_cases hlen : s.l2OutputsLength = 0
  · rw [pushStarting_of_empty hlen]
    refine iff_of_true (dated_of_length_le_one ?_) fun i _ hi => ?_
    · simp [Oracle.push, hlen]
    · omega
  · rw [pushStarting_of_nonempty hlen]
    constructor
    · intro hdated i hi hlt
      obtain ⟨t, ht, hpast⟩ := hdated.clock i hi hlt
      obtain ⟨-, -, -, rfl⟩ := computeL2Timestamp_ok_iff.mp ht
      exact hpast
    · intro hredates
      refine ⟨hs.increasing, fun i hi hlt => ?_⟩
      obtain ⟨t, ht, -⟩ := hs.clock i hi hlt
      have hstart := (computeL2Timestamp_ok_iff.mp ht).1
      have hpast := hredates i hi hlt
      have hage := haged.past i hlt
      refine ⟨_, computeL2Timestamp_ok_iff.mpr ⟨hstart, ?_, ?_, rfl⟩, hpast⟩
      · show ((s.l2OutputsSlot i).l2BlockNumber - s.startingBlockNumber) * params.l2BlockTime <
          2 ^ 256
        omega
      · show s.startingTimestamp +
          ((s.l2OutputsSlot i).l2BlockNumber - s.startingBlockNumber) * params.l2BlockTime < 2 ^ 256
        omega

/-- **One accepted call** keeps the dates exactly when it meets the condition. -/
theorem dated_step_iff {call : Call} (haged : Aged s env.msg.timestamp)
    (hnow : env.msg.timestamp < 2 ^ 64) (hs : Dated s)
    (hstep : dispatch chain env s call = .ok s') : Dated s' ↔ KeepsDates s call := by
  rcases effect_cases hstep with ⟨version, params, rfl, hi⟩ | ⟨i, rfl, hd⟩ |
    ⟨block, hblock, hinit, -, hp⟩ | ⟨hblock, hinit, -, hu⟩
  · rw [initialize_dated_iff haged hnow hs hi]
    constructor
    · refine fun hredates => ⟨fun _ hblock => ?_, fun _ _ hcall => ?_⟩
      · cases hblock
      · cases hcall
        exact hredates
    · exact fun hkeeps => hkeeps.2 version params rfl
  · obtain ⟨-, hi, -, -, rfl⟩ := deleteL2Outputs_ok_iff.mp hd
    refine iff_of_true (hs.truncate (Nat.le_of_lt hi) rfl rfl rfl rfl)
      ⟨fun _ hblock => ?_, fun _ _ hcall => ?_⟩
    · cases hblock
    · cases hcall
  · rw [hp.dated_iff haged hnow hs]
    constructor
    · intro hadvances
      refine ⟨fun b hb => ?_, fun v p hcall => absurd hcall (hinit v p)⟩
      obtain rfl : block = b := Option.some.inj (hblock.symm.trans hb)
      exact hadvances
    · exact fun hkeeps => hkeeps.1 block hblock
  · refine iff_of_true (hs.truncate (Nat.le_of_eq hu.length) hu.slot hu.blockTime hu.startingBlock
      hu.startingTime) ⟨fun b hb => ?_, fun v p hcall => absurd hcall (hinit v p)⟩
    rw [hblock] at hb
    cases hb

/-! ## Runs -/

/-- The time of an event. -/
def Event.now (e : Event) : Nat := e.env.msg.timestamp

/-- Blocks come in the order of their timestamps, which fit 64 bits. -/
def Timely (tr : List Event) : Prop :=
  tr.Pairwise (fun a b => a.now ≤ b.now) ∧ ∀ e ∈ tr, e.now < 2 ^ 64

theorem OracleStep.dispatched {e : Event} (h : OracleStep chain s e s') :
    e.pre = s ∧ e.post = s' ∧ dispatch chain e.env s e.call = .ok s' := by
  obtain ⟨hpre, hpost, hexec⟩ := h
  simp only [execute, bind_ok_iff, require_ok_iff] at hexec
  obtain ⟨_, -, hdispatch⟩ := hexec
  exact ⟨hpre, hpost, hdispatch⟩

theorem Timely.init {tr : List Event} {e : Event} (h : Timely (tr ++ [e])) :
    Timely tr ∧ (∀ e' ∈ tr, e'.now ≤ e.now) ∧ e.now < 2 ^ 64 := by
  obtain ⟨hpairs, hsmall⟩ := h
  rw [List.pairwise_append] at hpairs
  exact ⟨⟨hpairs.1, fun e' he' => hsmall e' (List.mem_append_left _ he')⟩,
    fun e' he' => hpairs.2.2 e' he' e (by simp), hsmall e (by simp)⟩

theorem Timely.snoc {tr : List Event} {e : Event} (h : Timely tr) (hle : ∀ e' ∈ tr, e'.now ≤ e.now)
    (hsmall : e.now < 2 ^ 64) : Timely (tr ++ [e]) := by
  refine ⟨List.pairwise_append.mpr ⟨h.1, List.pairwise_singleton _ _, ?_⟩, ?_⟩
  · intro e' he' e'' he''
    rw [List.mem_singleton.mp he'']
    exact hle e' he'
  · intro e' he'
    rcases List.mem_append.mp he' with he' | he'
    · exact h.2 e' he'
    · rw [List.mem_singleton.mp he']
      exact hsmall

/-- **The outputs are of age in every reachable state**, from its time on. -/
theorem aged_of_run {tr : List Event} (hrun : Run (OracleStep chain) Oracle.fresh tr s)
    (htimes : Timely tr) : ∀ now, (∀ e ∈ tr, e.now ≤ now) → Aged s now := by
  refine hrun.traceInvariant
    (I := fun tr s => Timely tr → ∀ now, (∀ e ∈ tr, e.now ≤ now) → Aged s now) ?_ ?_ htimes
  · intro tr s e s' ih hstep htimes now hnow
    obtain ⟨hbefore, hlast, hsmall⟩ := htimes.init
    obtain ⟨-, -, hdispatch⟩ := hstep.dispatched
    exact ((ih hbefore e.now hlast).step hsmall hdispatch).mono (hnow e (by simp))
  · exact fun _ now _ => aged_fresh.mono (Nat.zero_le now)

/-- **The dates of a run**: every state it reaches is dated exactly when every call in it
keeps the dates. -/
theorem dated_of_run {tr : List Event} (hrun : Run (OracleStep chain) Oracle.fresh tr s)
    (htimes : Timely tr) :
    ((∀ e ∈ tr, Dated e.post) ↔ ∀ e ∈ tr, KeepsDates e.pre e.call) ∧
      ((∀ e ∈ tr, KeepsDates e.pre e.call) → Dated s) := by
  induction hrun with
  | nil => exact ⟨by simp, fun _ => dated_fresh⟩
  | snoc hrun hstep ih =>
    rename_i s s' tr e
    obtain ⟨hbefore, hlast, hsmall⟩ := htimes.init
    obtain ⟨hpre, hpost, hdispatch⟩ := hstep.dispatched
    obtain ⟨hiff, hdated⟩ := ih hbefore
    have haged : Aged s e.now := aged_of_run hrun hbefore e.now hlast
    have hone : Dated s → (Dated s' ↔ KeepsDates s e.call) :=
      fun hs => dated_step_iff haged hsmall hs hdispatch
    simp only [List.forall_mem_append, List.forall_mem_singleton]
    rw [hpre, hpost]
    refine ⟨⟨fun h => ?_, fun h => ?_⟩, fun h => ?_⟩
    · have hkeeps := hiff.mp h.1
      exact ⟨hkeeps, (hone (hdated hkeeps)).mp h.2⟩
    · exact ⟨hiff.mpr h.1, (hone (hdated h.1)).mpr h.2⟩
    · exact (hone (hdated h.1)).mpr h.2

/-! ## The order of the outputs -/

/-- **The outputs are in order** at a time: their block numbers increase, their
timestamps do not decrease and are not in the future, every block after the first was
in the past of its push, and the two ages the guards compute exist. -/
structure InOrder (s : Oracle) (now : Nat) : Prop where
  increasing : ∀ i j, i < j → j < s.l2OutputsLength →
    (s.l2OutputsSlot i).l2BlockNumber < (s.l2OutputsSlot j).l2BlockNumber
  sorted : ∀ i j, i < j → j < s.l2OutputsLength →
    (s.l2OutputsSlot i).timestamp ≤ (s.l2OutputsSlot j).timestamp
  past : ∀ i < s.l2OutputsLength, (s.l2OutputsSlot i).timestamp ≤ now
  clock : ∀ i, 1 ≤ i → i < s.l2OutputsLength →
    ∃ t, computeL2Timestamp s (s.l2OutputsSlot i).l2BlockNumber = .ok t ∧
      t < (s.l2OutputsSlot i).timestamp
  age : ∀ i < s.l2OutputsLength,
    ∃ age, checkedSub OracleError.panic now (s.l2OutputsSlot i).timestamp = .ok age
  elapsed : ∃ elapsed, checkedSub OracleError.panic now (lastProposalTimestamp s) = .ok elapsed

theorem Aged.inOrder_iff {now : Nat} (h : Aged s now) : InOrder s now ↔ Dated s := by
  constructor
  · exact fun ho => ⟨ho.increasing, ho.clock⟩
  · intro hd
    refine ⟨hd.increasing, h.sorted, h.past, hd.clock, fun i hi => ?_, ?_⟩
    · exact ⟨_, checkedSub_ok_iff.mpr ⟨h.past i hi, rfl⟩⟩
    · refine ⟨_, checkedSub_ok_iff.mpr ⟨?_, rfl⟩⟩
      by_cases hempty : s.l2OutputsLength = 0
      · rw [lastProposalTimestamp, if_pos hempty]
        exact h.startingTime
      · rw [lastProposalTimestamp, if_neg hempty]
        exact h.past _ (by omega)

/-- The time of an event is the latest in the run up to it. -/
theorem aged_post {tr : List Event} (hrun : Run (OracleStep chain) Oracle.fresh tr s)
    (htimes : Timely tr) : ∀ e ∈ tr, Aged e.post e.now := by
  induction hrun with
  | nil => simp
  | snoc hrun hstep ih =>
    rename_i s s' tr e
    obtain ⟨hbefore, hlast, hsmall⟩ := htimes.init
    obtain ⟨-, hpost, hdispatch⟩ := hstep.dispatched
    have haged : Aged s e.now := aged_of_run hrun hbefore e.now hlast
    simp only [List.forall_mem_append, List.forall_mem_singleton]
    exact ⟨ih hbefore, hpost ▸ haged.step hsmall hdispatch⟩

/-- **The order of the outputs.**  A run reaches only states in order exactly when each of
its calls keeps the dates; and then the outputs stay in order at every later time. -/
theorem monotone_outputs {tr : List Event} (hrun : Run (OracleStep chain) Oracle.fresh tr s)
    (htimes : Timely tr) :
    ((∀ e ∈ tr, InOrder e.post e.now) ↔ ∀ e ∈ tr, KeepsDates e.pre e.call) ∧
      ((∀ e ∈ tr, KeepsDates e.pre e.call) →
        ∀ now, (∀ e ∈ tr, e.now ≤ now) → InOrder s now) := by
  obtain ⟨hiff, hdated⟩ := dated_of_run hrun htimes
  have hpost : (∀ e ∈ tr, InOrder e.post e.now) ↔ ∀ e ∈ tr, Dated e.post :=
    forall₂_congr fun e he => (aged_post hrun htimes e he).inOrder_iff
  refine ⟨hpost.trans hiff, fun hkeeps now hnow => ?_⟩
  exact (aged_of_run hrun htimes now hnow).inOrder_iff.mpr (hdated hkeeps)

theorem timely_exampleEvents : Timely exampleEvents := by
  refine ⟨by decide, ?_⟩
  simp only [exampleEvents, List.forall_mem_cons, List.not_mem_nil, false_implies, implies_true,
    and_true]
  decide

theorem monotone_outputs_example : InOrder exampleProposed 2020 := by
  refine (monotone_outputs exampleProposed_reached timely_exampleEvents).2 ?_ 2020 (by decide)
  simp only [exampleEvents, List.forall_mem_cons, List.not_mem_nil, false_implies, implies_true,
    and_true]
  refine ⟨⟨fun _ hblock => ?_, fun v p _ i _ hi => ?_⟩, ⟨fun _ hblock => ?_, fun _ _ hcall => ?_⟩,
    fun block hblock => .inr ?_, fun _ _ hcall => ?_⟩
  · cases hblock
  · cases hi
  · cases hblock
  · cases hcall
  · obtain rfl : 120 = block := Option.some.inj hblock
    exact ⟨by decide, by decide⟩
  · cases hcall

/-! ### A block proposed again

The owner turns the optimistic mode on and sets the submission interval to zero; the
proposer then proposes the starting block once more. -/

theorem exampleOwner_ne_zero : (0x0A1 : Address) ≠ zeroAddress := by decide

/-- A call by the owner. -/
def exampleOwnerEnv (timestamp : Nat) : Env :=
  { exampleEnv timestamp with msg := ⟨0x0A1, 0, timestamp, exampleOwner_ne_zero⟩ }

def exampleOptimistic : Oracle :=
  { exampleInitialized with finalizationPeriodSeconds := 3600, optimisticMode := true }

def exampleZeroInterval : Oracle := { exampleOptimistic with submissionInterval := 0 }

def exampleRepeated : Oracle := exampleZeroInterval.push ⟨0x9007, 2020, 100⟩

def exampleRepeatEvents : List Event :=
  [⟨Oracle.fresh, exampleEnv 2000, .initializeOracle initializerVersion exampleParams,
      exampleInitialized⟩,
    ⟨exampleInitialized, exampleOwnerEnv 2010, .enableOptimisticMode 3600, exampleOptimistic⟩,
    ⟨exampleOptimistic, exampleOwnerEnv 2015, .updateSubmissionInterval 0, exampleZeroInterval⟩,
    ⟨exampleZeroInterval, exampleEnv 2020, .proposeL2OutputOptimistic 0x9007 100 0 0,
      exampleRepeated⟩]

/-- Two stored outputs have the same block number. -/
theorem latest_block_proposed_again :
    Run (OracleStep exampleChain) Oracle.fresh exampleRepeatEvents exampleRepeated ∧
      Timely exampleRepeatEvents ∧ ¬ InOrder exampleRepeated 2020 := by
  refine ⟨.cons ⟨rfl, rfl, rfl⟩ (.cons ⟨rfl, rfl, rfl⟩ (.cons ⟨rfl, rfl, rfl⟩
    (.single ⟨rfl, rfl, rfl⟩))), ⟨by decide, ?_⟩, fun horder => ?_⟩
  · simp only [exampleRepeatEvents, List.forall_mem_cons, List.not_mem_nil, false_implies,
      implies_true, and_true]
    decide
  · exact absurd (horder.increasing 0 1 (by decide) (by decide)) (by decide)

end OpSuccinct.OutputOracle
