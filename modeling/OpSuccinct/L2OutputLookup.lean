import OpSuccinct.L2OutputDeletion

/-! # Lookup by block

`getL2OutputIndexAfter` searches the outputs by bisection, so it relies on their block
numbers not to decrease.  No operation of the owner changes that, not even a submission
interval of zero, for a proposal is never below the latest block.  But its number is cut to
128 bits when it is stored, and the cut number may be below (`lookup_after_cut_block`).
While no proposal is cut below the latest block, every block up to the latest is looked up
in every state a run reaches (`blocks_looked_up`).
-/
namespace OpSuccinct.OutputOracle

open Transition

variable {chain : Chain} {env : Env} {s s' : Oracle} {tr : List Event} {e : Event}

/-! ## Bisection -/

/-- The block numbers do not decrease. -/
def Ascending (s : Oracle) : Prop :=
  ∀ i j, i ≤ j → j < s.l2OutputsLength →
    (s.l2OutputsSlot i).l2BlockNumber ≤ (s.l2OutputsSlot j).l2BlockNumber

/-- **Between `lo` and `hi` lies the boundary**: all outputs before `lo` are below the
block, and all from `hi` on are not. -/
structure Bounds (s : Oracle) (n lo hi : Nat) : Prop where
  le : lo ≤ hi
  inside : hi ≤ s.l2OutputsLength
  below : ∀ j < lo, (s.l2OutputsSlot j).l2BlockNumber < n
  above : ∀ j, hi ≤ j → j < s.l2OutputsLength → n ≤ (s.l2OutputsSlot j).l2BlockNumber

theorem Bounds.raise {n lo hi : Nat} (h : Bounds s n lo hi) (hs : Ascending s) (hlt : lo < hi)
    (hmid : (s.l2OutputsSlot ((lo + hi) / 2)).l2BlockNumber < n) :
    Bounds s n ((lo + hi) / 2 + 1) hi where
  le := by omega
  inside := h.inside
  below j hj := by
    have hinside := h.inside
    have hle := hs j ((lo + hi) / 2) (by omega) (by omega)
    omega
  above := h.above

theorem Bounds.lower {n lo hi : Nat} (h : Bounds s n lo hi) (hs : Ascending s) (hlt : lo < hi)
    (hmid : n ≤ (s.l2OutputsSlot ((lo + hi) / 2)).l2BlockNumber) :
    Bounds s n lo ((lo + hi) / 2) where
  le := by omega
  inside := by
    have hinside := h.inside
    omega
  below := h.below
  above j hj hlen := Nat.le_trans hmid (hs ((lo + hi) / 2) j hj hlen)

/-- One round of the loop that reads the list below its end. -/
theorem searchOutput_of_lt {n lo hi : Nat} (hlt : lo < hi) (hsum : lo + hi < 2 ^ 256)
    (hmid : (lo + hi) / 2 < s.l2OutputsLength) :
    searchOutput s n lo hi =
      if (s.l2OutputsSlot ((lo + hi) / 2)).l2BlockNumber < n then
        searchOutput s n ((lo + hi) / 2 + 1) hi
      else searchOutput s n lo ((lo + hi) / 2) := by
  rw [searchOutput, if_pos hlt, require, if_pos hsum, getL2Output_of_lt hmid]
  rfl

theorem searchOutput_self (s : Oracle) (n lo : Nat) : searchOutput s n lo lo = .ok lo := by
  rw [searchOutput, if_neg (Nat.lt_irrefl lo)]
  rfl

/-- **The loop ends at the boundary**: no read is out of bounds and no sum overflows. -/
theorem searchOutput_ok {n lo hi : Nat} (hs : Ascending s) (hlen : s.l2OutputsLength ≤ 2 ^ 255)
    (h : Bounds s n lo hi) : ∃ i, searchOutput s n lo hi = .ok i ∧ Bounds s n i i := by
  induction lo, hi using searchOutput.induct with
  | case1 lo hi hlt ihabove ihbelow =>
    have hinside := h.inside
    rw [searchOutput_of_lt hlt (by omega) (by omega)]
    by_cases hmid : (s.l2OutputsSlot ((lo + hi) / 2)).l2BlockNumber < n
    · rw [if_pos hmid]
      exact ihabove (h.raise hs hlt hmid)
    · rw [if_neg hmid]
      exact ihbelow (h.lower hs hlt (Nat.not_lt.mp hmid))
  | case2 lo hi hge =>
    have hle := h.le
    obtain rfl : lo = hi := by omega
    exact ⟨lo, searchOutput_self s n lo, h⟩

/-! ## The order a run keeps -/

/-- **The condition on one call**: a proposal is stored with a block number not below the
latest one, and finds fewer than `2 ^ 255` outputs. -/
def KeepsLookup (e : Event) : Prop :=
  ∀ block, e.call.proposedBlock = some block →
    (e.pre.l2OutputsLength = 0 ∨ latestBlockNumber e.pre ≤ toUint128 block) ∧
      e.pre.l2OutputsLength < 2 ^ 255

/-- The list can be searched: in ascending order, and short enough for the sums. -/
structure Searchable (s : Oracle) : Prop where
  ascending : Ascending s
  short : s.l2OutputsLength ≤ 2 ^ 255

theorem searchable_fresh : Searchable Oracle.fresh where
  ascending i j _ hj := by cases hj
  short := Nat.zero_le _

/-- A shorter list, or the same one. -/
theorem Searchable.truncate (h : Searchable s) (hlen : s'.l2OutputsLength ≤ s.l2OutputsLength)
    (hslot : s'.l2OutputsSlot = s.l2OutputsSlot) : Searchable s' where
  ascending i j hij hj := by
    rw [hslot]
    exact h.ascending i j hij (by omega)
  short := Nat.le_trans hlen h.short

/-- The latest output has the greatest block number. -/
theorem Searchable.le_latest (h : Searchable s) {i : Nat} (hi : i < s.l2OutputsLength) :
    (s.l2OutputsSlot i).l2BlockNumber ≤ latestBlockNumber s := by
  rw [latestBlockNumber, if_neg (by omega)]
  exact h.ascending i (s.l2OutputsLength - 1) (by omega) (by omega)

/-- An output on top that is not below the latest one. -/
theorem Searchable.push (h : Searchable s) {output : OutputProposal}
    (htop : s.l2OutputsLength = 0 ∨ latestBlockNumber s ≤ output.l2BlockNumber)
    (hlen : s.l2OutputsLength < 2 ^ 255) : Searchable (s.push output) where
  ascending i j hij hj := by
    have hj' : j ≤ s.l2OutputsLength := Nat.le_of_lt_succ hj
    by_cases hjtop : j = s.l2OutputsLength
    · by_cases hitop : i = s.l2OutputsLength
      · rw [hjtop, hitop]
      · have hi : i < s.l2OutputsLength := by omega
        have hle := h.le_latest hi
        rcases htop with hempty | htop
        · omega
        · simpa [Oracle.push, hjtop, hitop] using Nat.le_trans hle htop
    · have hitop : i ≠ s.l2OutputsLength := by omega
      simpa [Oracle.push, hjtop, hitop] using h.ascending i j hij (by omega)
  short := hlen

theorem Searchable.step (h : Searchable s) (hkeeps : KeepsLookup e)
    (hstep : OracleStep chain s e s') : Searchable s' := by
  obtain ⟨hpre, -, hdispatch⟩ := hstep.dispatched
  rcases effect_cases hdispatch with ⟨version, params, -, hi⟩ | ⟨i, -, hd⟩ |
    ⟨block, hblock, -, -, hp⟩ | ⟨-, -, -, hu⟩
  · obtain ⟨-, -, -, -, rfl⟩ := initializeOracle_ok_iff.mp hi
    by_cases hempty : s.l2OutputsLength = 0
    · rw [pushStarting_of_empty hempty]
      have hpush : Searchable (s.push params.startingOutput) := h.push (.inl hempty) (by omega)
      exact ⟨hpush.ascending, hpush.short⟩
    · rw [pushStarting_of_nonempty hempty]
      exact ⟨h.ascending, h.short⟩
  · obtain ⟨-, hlt, -, -, rfl⟩ := deleteL2Outputs_ok_iff.mp hd
    exact h.truncate (Nat.le_of_lt hlt) rfl
  · obtain ⟨hlatest, hlen⟩ := hkeeps block hblock
    obtain ⟨root, rfl⟩ := hp.pushed
    rw [hpre] at hlatest hlen
    exact h.push hlatest hlen
  · exact h.truncate (Nat.le_of_eq hu.length) hu.slot

/-! ## Lookups -/

/-- The output at `i` is the first one not below block `n`. -/
structure FirstFrom (s : Oracle) (n i : Nat) : Prop where
  stored : i < s.l2OutputsLength
  reached : n ≤ (s.l2OutputsSlot i).l2BlockNumber
  below : ∀ j < i, (s.l2OutputsSlot j).l2BlockNumber < n

/-- **Block `n` is looked up**: one output is the first not below it, and both functions
return that one. -/
def FindsOutput (s : Oracle) (n : Nat) : Prop :=
  (∃! i, FirstFrom s n i) ∧
    ∀ i, FirstFrom s n i →
      getL2OutputIndexAfter s n = .ok i ∧ getL2OutputAfter s n = .ok (s.l2OutputsSlot i)

theorem FirstFrom.unique {n i j : Nat} (hi : FirstFrom s n i) (hj : FirstFrom s n j) : i = j := by
  rcases Nat.lt_trichotomy i j with hlt | heq | hgt
  · exact absurd hi.reached (Nat.not_le.mpr (hj.below i hlt))
  · exact heq
  · exact absurd hj.reached (Nat.not_le.mpr (hi.below j hgt))

theorem Searchable.findsOutput (h : Searchable s) (hlen : 0 < s.l2OutputsLength) {n : Nat}
    (hn : n ≤ latestBlockNumber s) : FindsOutput s n := by
  have hall : Bounds s n 0 s.l2OutputsLength := by
    refine ⟨Nat.zero_le _, Nat.le_refl _, fun j hj => ?_, fun j hj hlt => ?_⟩
    · cases hj
    · omega
  obtain ⟨i, hsearch, hi⟩ := searchOutput_ok h.ascending h.short hall
  -- the latest output is not below the block, so the boundary is an output
  have hstored : i < s.l2OutputsLength := by
    by_contra hend
    have hlast := hi.below (s.l2OutputsLength - 1) (by omega)
    rw [latestBlockNumber, if_neg (by omega)] at hn
    omega
  have hfirst : FirstFrom s n i := ⟨hstored, hi.above i (Nat.le_refl i) hstored, hi.below⟩
  have hindex : getL2OutputIndexAfter s n = .ok i := by
    rw [getL2OutputIndexAfter, require, if_pos hn, require, if_pos hlen]
    exact hsearch
  have houtput : getL2OutputAfter s n = .ok (s.l2OutputsSlot i) := by
    rw [getL2OutputAfter, hindex]
    exact getL2Output_of_lt hstored
  refine ⟨⟨i, hfirst, fun j hj => hj.unique hfirst⟩, fun j hj => ?_⟩
  obtain rfl := hj.unique hfirst
  exact ⟨hindex, houtput⟩

/-- **Lookup by block.**  In every state reached by a run whose proposals keep the lookup,
every block up to the latest is looked up. -/
theorem blocks_looked_up (hrun : Run (OracleStep chain) Oracle.fresh tr s)
    (hkeeps : ∀ e ∈ tr, KeepsLookup e) :
    0 < s.l2OutputsLength → ∀ n, n ≤ latestBlockNumber s → FindsOutput s n := by
  have hsearchable : Searchable s := by
    refine hrun.traceInvariant
      (I := fun tr s => (∀ e ∈ tr, KeepsLookup e) → Searchable s) ?_ ?_ hkeeps
    · intro tr s e s' ih hstep hkeeps
      have hs := ih fun e' he' => hkeeps e' (List.mem_append_left _ he')
      exact hs.step (hkeeps e (by simp)) hstep
    · exact fun _ => searchable_fresh
  exact fun hlen n hn => hsearchable.findsOutput hlen hn

theorem blocks_looked_up_example : FindsOutput exampleProposed 110 := by
  refine blocks_looked_up exampleProposed_reached ?_ (by decide) 110 (by decide)
  simp only [exampleEvents, List.forall_mem_cons, List.not_mem_nil, false_implies, implies_true,
    and_true]
  refine ⟨fun _ hblock => ?_, fun _ hblock => ?_, fun block hblock => ?_⟩
  · cases hblock
  · cases hblock
  · obtain rfl : 120 = block := Option.some.inj hblock
    exact ⟨.inr (by decide), by decide⟩

/-! ### A block cut to 128 bits

The contract starts at the last block number of 128 bits.  The next two proposals are
stored as blocks 9 and 19. -/

def exampleLateParams : InitParams := { exampleParams with startingBlockNumber := 2 ^ 128 - 1 }

def exampleLate : Oracle :=
  { exampleInitialized with
    startingBlockNumber := 2 ^ 128 - 1
    l2OutputsSlot := Function.update (fun _ => ⟨0, 0, 0⟩) 0 ⟨0x5007, 1000, 2 ^ 128 - 1⟩ }

def exampleLateCheckpointed : Oracle :=
  { exampleLate with historicBlockHashes := Function.update (fun _ => 0) 40 41 }

def exampleCut : Oracle := exampleLateCheckpointed.push ⟨0x9007, 2020, 9⟩

def exampleCutTwice : Oracle := exampleCut.push ⟨0x9008, 2040, 19⟩

def exampleCutEvents : List Event :=
  [⟨Oracle.fresh, exampleEnv 2000, .initializeOracle initializerVersion exampleLateParams,
      exampleLate⟩,
    ⟨exampleLate, exampleEnv 2010, .checkpointBlockHash 40, exampleLateCheckpointed⟩,
    ⟨exampleLateCheckpointed, exampleEnv 2020,
      .proposeL2Output 0x6E 0x9007 (2 ^ 128 + 9) 40 [] 0xB0B, exampleCut⟩,
    ⟨exampleCut, exampleEnv 2040,
      .proposeL2Output 0x6E 0x9008 (2 ^ 128 + 19) 40 [] 0xB0B, exampleCutTwice⟩]

/-- The first output not below block 15 is the starting one, but the search ends at the
last. -/
theorem lookup_after_cut_block :
    Run (OracleStep exampleChain) Oracle.fresh exampleCutEvents exampleCutTwice ∧
      0 < exampleCutTwice.l2OutputsLength ∧ 15 ≤ latestBlockNumber exampleCutTwice ∧
      FirstFrom exampleCutTwice 15 0 ∧ getL2OutputIndexAfter exampleCutTwice 15 = .ok 2 ∧
      ¬ FindsOutput exampleCutTwice 15 := by
  have hfirst : FirstFrom exampleCutTwice 15 0 := by
    refine ⟨by decide, by decide, fun j hj => ?_⟩
    cases hj
  have hindex : getL2OutputIndexAfter exampleCutTwice 15 = .ok 2 := by
    -- the middle output is below the block, the last one is not
    rw [getL2OutputIndexAfter, require, if_pos (by decide), require, if_pos (by decide)]
    calc searchOutput exampleCutTwice 15 0 3
      _ = searchOutput exampleCutTwice 15 2 3 := by
        rw [searchOutput_of_lt (by decide) (by decide) (by decide), if_pos (by decide)]
      _ = searchOutput exampleCutTwice 15 2 2 := by
        rw [searchOutput_of_lt (by decide) (by decide) (by decide), if_neg (by decide)]
      _ = .ok 2 := searchOutput_self _ _ _
  refine ⟨.cons ⟨rfl, rfl, rfl⟩ (.cons ⟨rfl, rfl, rfl⟩ (.cons ⟨rfl, rfl, rfl⟩
    (.single ⟨rfl, rfl, rfl⟩))), by decide, by decide, hfirst, hindex, fun hfinds => ?_⟩
  have hzero := (hfinds.2 0 hfirst).1
  rw [hindex] at hzero
  cases hzero

end OpSuccinct.OutputOracle
