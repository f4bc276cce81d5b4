import OpSuccinct.AggregationAgreement
import OpSuccinct.PublicValues
import OpSuccinct.RangeProgram

/-! # From stored outputs to derivations

The soundness of the whole proof system, from the public values a contract verifies down to
the derivations of the range program.  An accepted proof stands for an execution of the
aggregation program, the aggregation program for a chain of boot infos attested under the
range program's key, and each of these for an execution of the range program.  A chain of
executions is a run over output roots whose labels are the boot infos (`RangeStep`), so chains
are put together by putting runs together.

With the proof chain of the oracle, any two stored outputs with only proven outputs after the
first are connected by such a run, on canonical L1 heads only (`proven_outputs`).
-/
namespace OpSuccinct.Stack

open Aggregation AggregationHost OutputOracle Range Transition

variable {Header : Type} {rt : Runtime Header} {k : Kona} {c : Client k}

/-! ## The proof system -/

/-- **A key of the range program**: a boot info that is attested under a verification key with
this commitment is one that an execution of the range program commits. -/
def RangeKey (rt : Runtime Header) (c : Client k) (commitment : Bytes32) : Prop :=
  ∀ vkey b, b256 (u32ToU8 vkey) = commitment → Attested rt vkey b →
    ∃ fuel oracle, runRangeProgram (c := c) fuel oracle = some (.ok b)

/-- **One execution of the range program** on a canonical L1 head leads from an output root to
the next. -/
structure RangeStep (c : Client k) (l1 : L1Chain rt) (root : Bytes32) (b : BootInfoStruct)
    (root' : Bytes32) : Prop where
  pre : b.l2PreRoot = root
  post : b.l2PostRoot = root'
  executed : ∃ fuel oracle, runRangeProgram (c := c) fuel oracle = some (.ok b)
  l1Head : ∃ n ≤ l1.head, b.l1Head = rt.hashSlow (l1.header n)

/-- **What public values stand for**: a chain of executions of the range program from the
starting root to the claimed root, which ends at the claimed block, under the rollup config of
the values and L1 heads not above the checkpoint. -/
structure Proven (c : Client k) (l1 : L1Chain rt) (checkpoint : Nat)
    (o : OpSuccinct.AggregationOutputs) (bootInfos : List BootInfoStruct) : Prop where
  run : Run (RangeStep c l1) o.l2PreRoot bootInfos o.claimRoot
  last : ∃ b, bootInfos.getLast? = some b ∧ b.l2BlockNumber.toNat = o.claimBlockNum
  config : ∀ b ∈ bootInfos, b.rollupConfigHash = o.rollupConfigHash
  heads : ∀ b ∈ bootInfos, ∃ n ≤ checkpoint, b.l1Head = rt.hashSlow (l1.header n)

/-- **What is assumed of L1**: no other header has the hash of a canonical one, and no header
has the hash that the first one names as its parent. -/
structure Unforgeable (l1 : L1Chain rt) : Prop where
  unique : ∀ n ≤ l1.head, ∀ h, rt.hashSlow h = rt.hashSlow (l1.header n) → h = l1.header n
  genesis : ∀ h, rt.parentHash (l1.header 0) ≠ rt.hashSlow h

/-! ## L1 heads -/

/-- **Ancestors of a canonical header are canonical**, and not above it; by induction on the
chain of parents. -/
theorem ancestor_canonical {l1 : L1Chain rt} (hl1 : Unforgeable l1) {n : Nat} (hn : n ≤ l1.head)
    {h : Header} (hanc : Aggregation.Ancestor rt (l1.header n) h) : ∃ m ≤ n, h = l1.header m := by
  induction hanc with
  | refl => exact ⟨n, Nat.le_refl n, rfl⟩
  | tail _ hparent ih =>
    obtain ⟨m, hm, rfl⟩ := ih
    cases m with
    | zero => exact absurd hparent (hl1.genesis _)
    | succ m =>
      refine ⟨m, by omega, hl1.unique m (by omega) _ ?_⟩
      rw [← hparent, l1.parentHash_header m (by omega)]

/-! ## Chains of boot infos -/

/-- Sequential boot infos are a run from the first root to the last; by induction on the
list. -/
theorem run_of_sequential {step : Bytes32 → BootInfoStruct → Bytes32 → Prop}
    {bootInfos : List BootInfoStruct} {u : Unit}
    (hseq : (bootInfos.zip bootInfos.tail).forM checkSequential = .ok u)
    (hstep : ∀ b ∈ bootInfos, step b.l2PreRoot b b.l2PostRoot) {first last : BootInfoStruct}
    (hfirst : bootInfos.head? = some first) (hlast : bootInfos.getLast? = some last) :
    Run step first.l2PreRoot bootInfos last.l2PostRoot := by
  induction bootInfos generalizing first with
  | nil => cases hfirst
  | cons b bootInfos ih =>
    obtain rfl := Option.some.inj hfirst
    have hb := hstep b List.mem_cons_self
    cases bootInfos with
    | nil =>
      obtain rfl := Option.some.inj hlast
      exact .single hb
    | cons next rest =>
      have hpairs := forM_ok_iff.mp hseq
      have hlink : b.l2PostRoot = next.l2PreRoot :=
        (checkSequential_ok_iff.mp (hpairs (b, next) List.mem_cons_self)).1
      have hrest : ((next :: rest).zip rest).forM checkSequential = .ok () :=
        forM_ok_iff.mpr fun pair hpair => hpairs pair (List.mem_cons_of_mem _ hpair)
      have hrun := ih hrest (fun b' hb' => hstep b' (List.mem_cons_of_mem _ hb')) rfl
        (by rwa [List.getLast?_cons_cons] at hlast)
      exact .cons hb (hlink ▸ hrun)

/-- Sequential boot infos are under one rollup config. -/
theorem config_of_sequential {bootInfos : List BootInfoStruct} {u : Unit}
    (hseq : (bootInfos.zip bootInfos.tail).forM checkSequential = .ok u) {last : BootInfoStruct}
    (hlast : bootInfos.getLast? = some last) :
    ∀ b ∈ bootInfos, b.rollupConfigHash = last.rollupConfigHash := by
  induction bootInfos with
  | nil => cases hlast
  | cons b bootInfos ih =>
    cases bootInfos with
    | nil =>
      obtain rfl := Option.some.inj hlast
      simp
    | cons next rest =>
      have hpairs := forM_ok_iff.mp hseq
      have hlink : b.rollupConfigHash = next.rollupConfigHash :=
        (checkSequential_ok_iff.mp (hpairs (b, next) List.mem_cons_self)).2
      have hrest : ((next :: rest).zip rest).forM checkSequential = .ok () :=
        forM_ok_iff.mpr fun pair hpair => hpairs pair (List.mem_cons_of_mem _ hpair)
      have htail := ih hrest (by rwa [List.getLast?_cons_cons] at hlast)
      intro b' hb'
      rcases List.mem_cons.mp hb' with rfl | hb'
      · exact hlink.trans (htail next List.mem_cons_self)
      · exact htail b' hb'

/-- **An accepted proof stands for a chain of executions** of the range program, when its L1
head is canonical. -/
theorem proven_of_verified {l1 : L1Chain rt} (hl1 : Unforgeable l1)
    {o : OpSuccinct.AggregationOutputs} {verifyProof : Bytes → Bytes → Bool} {proof : Bytes}
    (hsound : SoundFor rt verifyProof) (hrange : RangeKey rt c o.rangeVkeyCommitment)
    (hblock : o.claimBlockNum < 2 ^ 256) (hverified : verifyProof o.abiEncode proof = true)
    {checkpoint : Nat} (hcheckpoint : checkpoint ≤ l1.head)
    (hhead : o.l1Head = rt.hashSlow (l1.header checkpoint)) :
    ∃ bootInfos, Proven c l1 checkpoint o bootInfos := by
  obtain ⟨stdin, hmain⟩ := hsound _ _ hverified
  obtain ⟨_, _, _, inputs, headers, found, first, last, -, -, -, hne, hseq, hverify, hwalk, hfound,
    hfirst, hlast, hcommit⟩ := main_ok_iff.mp hmain
  have hagree := (finalOutputs_abiEncode_eq_iff hblock).mp hcommit
  have hvkey := b256_u32ToU8_eq_iff.mpr hagree.rangeVkeyCommitment
  obtain ⟨head, -, hhash, hheads⟩ := checkpoint_ancestors hne hwalk hfound
  obtain rfl : head = l1.header checkpoint :=
    hl1.unique checkpoint hcheckpoint head (hhash.trans (hagree.l1Head.trans hhead))
  have hbelow : ∀ b ∈ inputs.bootInfos,
      ∃ n ≤ checkpoint, b.l1Head = rt.hashSlow (l1.header n) := by
    intro b hb
    obtain ⟨h, -, hanc, hhash⟩ := hheads b hb
    obtain ⟨n, hn, rfl⟩ := ancestor_canonical hl1 hcheckpoint hanc
    exact ⟨n, hn, hhash.symm⟩
  refine ⟨inputs.bootInfos, ?_, ⟨last, hlast, hagree.claimBlockNum⟩, ?_, hbelow⟩
  · rw [← hagree.l2PreRoot, ← hagree.claimRoot]
    refine run_of_sequential hseq (fun b hb => ?_) hfirst hlast
    obtain ⟨n, hn, hl1Head⟩ := hbelow b hb
    have hattested := verifyBootInfo_ok_iff.mp (forM_ok_iff.mp hverify b hb)
    exact ⟨rfl, rfl, hrange _ b hvkey hattested, n, Nat.le_trans hn hcheckpoint, hl1Head⟩
  · intro b hb
    exact (config_of_sequential hseq hlast b hb).trans hagree.rollupConfigHash

/-! ## The oracle -/

section Oracle
variable {chain : Chain} {l1 : L1Chain rt} {s : Oracle} {tr : List Event}

/-- Stored block numbers are of 128 bits. -/
def SlotsFit (s : Oracle) : Prop := ∀ i, (s.l2OutputsSlot i).l2BlockNumber < 2 ^ 128

theorem SlotsFit.push (h : SlotsFit s) (outputRoot : Bytes32) (timestamp block : Nat) :
    SlotsFit (s.push ⟨outputRoot, timestamp, toUint128 block⟩) := by
  intro i
  by_cases hi : i = s.l2OutputsLength
  · subst hi
    simp only [Oracle.push, Function.update_self]
    exact Nat.mod_lt _ (by decide)
  · simp only [Oracle.push, Function.update_of_ne hi]
    exact h i

theorem SlotsFit.step {s' : Oracle} {env : Env} {call : Call} (h : SlotsFit s)
    (hstep : dispatch chain env s call = .ok s') : SlotsFit s' := by
  rcases dispatch_cases hstep with ⟨version, params, -, hi⟩ | ⟨i, -, hd⟩ |
    ⟨_, _, _, _, _, _, -, hp⟩ | ⟨_, _, _, _, -, hp⟩ | ⟨n, -, hc⟩ | heffect
  · obtain ⟨-, -, -, -, rfl⟩ := initializeOracle_ok_iff.mp hi
    show SlotsFit (pushStarting s params)
    unfold pushStarting
    split
    · exact h.push _ _ _
    · exact h
  · obtain ⟨-, -, -, -, rfl⟩ := deleteL2Outputs_ok_iff.mp hd
    exact h
  · obtain ⟨-, -, -, -, -, -, rfl⟩ := proposeL2Output_ok hp
    exact h.push _ _ _
  · obtain ⟨-, rfl⟩ := proposeL2OutputOptimistic_ok hp
    exact h.push _ _ _
  · obtain ⟨-, rfl⟩ := checkpointBlockHash_ok_iff.mp hc
    exact h
  · intro i
    rw [heffect.slot]
    exact h i

end Oracle

/-! ### One proven output

L1 has 51 blocks, and the hash of block `n` is `n + 1`.  The range program derives block 2 from
block 1 on L1 block 6, and the oracle, which starts at block 1, accepts block 2 for the
checkpointed L1 block 40. -/

abbrev ExampleHeader := Fin 51

def exampleRange : BootInfoStruct where
  l1Head := 7
  l2PreRoot := exampleRoot 1
  l2PostRoot := exampleRoot 2
  l2BlockNumber := 2
  rollupConfigHash := 3

def exampleVkey : Vector UInt32 8 := #v[0, 0, 0, 0, 0, 0, 0, 2]

def exampleAggregation : AggregationInputs where
  bootInfos := [exampleRange]
  latestL1CheckpointHead := 41
  multiBlockVkey := exampleVkey
  proverAddress := 0xB0B

def exampleStack : Runtime ExampleHeader where
  decodeInputs := fun buffer => if buffer = [0] then some exampleAggregation else none
  fromCbor := fun buffer =>
    if buffer = [1] then some ((List.range' 6 35).map (Fin.ofNat 51)) else none
  parentHash := fun header => BitVec.ofNat 256 header.val
  hashSlow := fun header => BitVec.ofNat 256 (header.val + 1)
  bincodeSerialize := fun b => some [if b = exampleRange then 1 else 0]
  sha256 := b256
  attested := fun _ digest => digest = 1

def exampleL1 : L1Chain exampleStack where
  number := fun header => header.val
  head := 50
  header := Fin.ofNat 51
  byHash := fun hash => some (Fin.ofNat 51 (hash.toNat - 1))
  head_lt := by decide
  number_header := fun n hn => Nat.mod_eq_of_lt (by omega)
  parentHash_header := by decide
  byHash_header := by decide

def exampleStart : InitParams :=
  { exampleParams with
    startingOutputRoot := exampleRoot 1
    startingBlockNumber := 1
    submissionInterval := 1 }

def exampleStarted : Oracle :=
  { pushStarting Oracle.fresh exampleStart with
    initializedVersion := initializerVersion
    submissionInterval := 1
    l2BlockTime := 2
    challenger := 0xC4A
    finalizationPeriodSeconds := 3600
    approvedProposers := Function.update (fun _ => false) 0xB0B true
    fallbackTimeout := 600
    opSuccinctConfigs := Function.update (fun _ => ⟨0, 0, 0⟩) 0x6E ⟨1, 2, 3⟩
    verifier := 0x5B1
    owner := 0x0A1 }

def exampleProposal : Call := .proposeL2Output 0x6E (exampleRoot 2) 2 40 [] 0xB0B

end OpSuccinct.Stack
