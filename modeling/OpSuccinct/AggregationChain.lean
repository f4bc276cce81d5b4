import Mathlib.Data.List.Chain
import Mathlib.Data.List.Pairwise
import OpSuccinct.IntervalTilings
import OpSuccinct.ProposerRanges

/-! # What an aggregation request covers

`create_aggregation_proofs` walks through the completed ranges from the first one on
(`get_highest_proven_contiguous_block`), inserts a request from the latest proposed block
to the end of the walk, and later the completed ranges between the two are read again
and validated.  When the ranges share no block, the walk ends at the greatest end of a
chain from its first range, and the ranges inside a chain validate (`chain_validates`).

But the first range need not start at the latest proposed block: a hole there is not
looked at, and the request that is inserted can then not validate
(`hole_after_proposed_block`).  So a request stands for a chain from the latest proposed
block exactly when a completed range starts there, or the function returns earlier
(`aggregation_from_contract_iff`).
-/
namespace OpSuccinct.Validity

open Intervals Transition

/-- The blocks of a completed range request within the scope, from a block on. -/
def CompletedRange (cfg : Config) (db : Db) (start : Int) (range : BlockRange) : Prop :=
  ∃ id r, db.rows id = some r ∧ r.InScope cfg.scope ∧ r.reqType = .range ∧ r.status = .complete ∧
    start ≤ r.startBlock ∧ r.blocks = range

/-- **Completed ranges from a block on** are non-empty, and those of different requests
share no block. -/
structure CompletedApart (cfg : Config) (db : Db) (start : Int) : Prop where
  nonempty : ∀ range, CompletedRange cfg db start range → range.1 < range.2
  apart : ∀ id id' r r', db.rows id = some r → db.rows id' = some r' → id ≠ id' →
    r.InScope cfg.scope → r'.InScope cfg.scope → r.reqType = .range → r'.reqType = .range →
    r.status = .complete → r'.status = .complete → start ≤ r.startBlock → start ≤ r'.startBlock →
    Apart r.blocks r'.blocks

variable {cfg : Config} {db : Db} {start : Int}

/-! ## Completed ranges as rows -/

/-- The rows with a completed range from a block on that have a property. -/
def completedRows (cfg : Config) (db : Db) (start : Int) (p : Request → Bool) : List Request :=
  db.inStatus cfg.scope .range .complete fun r => decide (start ≤ r.startBlock) && p r

theorem mem_completedRows {p : Request → Bool} {r : Request} :
    r ∈ completedRows cfg db start p ↔ db.rows r.id = some r ∧ r.InScope cfg.scope ∧
      r.reqType = .range ∧ r.status = .complete ∧ start ≤ r.startBlock ∧ p r = true := by
  simp only [completedRows, Db.inStatus, Db.mem_select, Bool.and_eq_true, decide_eq_true_eq,
    beq_iff_eq, and_assoc]

theorem completedRange_iff {range : BlockRange} :
    CompletedRange cfg db start range ↔
      ∃ r ∈ completedRows cfg db start fun _ => true, r.blocks = range := by
  constructor
  · rintro ⟨id, r, hr, hscope, htype, hstatus, hstart, hblocks⟩
    have hid := db.id_eq id r hr
    exact ⟨r, mem_completedRows.mpr ⟨hid ▸ hr, hscope, htype, hstatus, hstart, rfl⟩, hblocks⟩
  · rintro ⟨r, hr, hblocks⟩
    obtain ⟨hrow, hscope, htype, hstatus, hstart, -⟩ := mem_completedRows.mp hr
    exact ⟨r.id, r, hrow, hscope, htype, hstatus, hstart, hblocks⟩

theorem completedRows_apart (h : CompletedApart cfg db start) (p : Request → Bool) :
    ((completedRows cfg db start p).map Request.blocks).Pairwise Apart := by
  have hids := List.pairwise_map.mp (db.nodup_select fun r => r.InScope cfg.scope &&
    r.reqType == .range && r.status == .complete && (decide (start ≤ r.startBlock) && p r))
  refine List.pairwise_map.mpr (hids.imp_of_mem fun {r r'} hr hr' hne => ?_)
  obtain ⟨hrow, hscope, htype, hstatus, hstart, -⟩ := mem_completedRows.mp hr
  obtain ⟨hrow', hscope', htype', hstatus', hstart', -⟩ := mem_completedRows.mp hr'
  exact h.apart _ _ r r' hrow hrow' hne hscope hscope' htype htype' hstatus hstatus' hstart hstart'

/-- Intervals that share no block come, in the order of their start, in the order of
their ends. -/
theorem ordered_of_sorted {xs ys : List BlockRange} (hapart : xs.Pairwise Apart)
    (hne : ∀ x ∈ xs, x.1 < x.2) (hperm : ys.Perm xs) (hsorted : ys.Pairwise fun a b => a.1 ≤ b.1) :
    ys.Pairwise fun x y => x.2 ≤ y.1 := by
  have hapart : ys.Pairwise Apart := hperm.symm.pairwise hapart fun hxy => hxy.symm
  refine (hsorted.and hapart).imp_of_mem fun {x y} hx hy hboth => ?_
  obtain ⟨hle, hends⟩ := hboth
  have hlt := hne x (hperm.mem_iff.mp hx)
  have hlt' := hne y (hperm.mem_iff.mp hy)
  rcases hends with hend | hend <;> omega

/-! ## The walk -/

variable {ranges : List BlockRange} {highest : Int}

/-- The walk follows the ranges that touch, and ends where none starts. -/
theorem contiguousEnd_spec (currentEnd : Int) (hne : ∀ range ∈ ranges, range.1 < range.2)
    (hordered : ranges.Pairwise fun x y => x.2 ≤ y.1)
    (hfrom : ∀ range ∈ ranges, currentEnd ≤ range.1) :
    Relation.ReflTransGen (fun x y => (x, y) ∈ ranges) currentEnd
        (contiguousEnd currentEnd ranges) ∧
      currentEnd ≤ contiguousEnd currentEnd ranges ∧
      ∀ y, (contiguousEnd currentEnd ranges, y) ∉ ranges := by
  induction ranges generalizing currentEnd with
  | nil => exact ⟨.refl, Int.le_refl _, fun _ h => by cases h⟩
  | cons range ranges ih =>
    obtain ⟨hafter, hordered⟩ := List.pairwise_cons.mp hordered
    have hlt := hne range List.mem_cons_self
    by_cases hgap : range.1 ≠ currentEnd
    · rw [contiguousEnd, if_pos hgap]
      have hbehind := hfrom range List.mem_cons_self
      refine ⟨.refl, Int.le_refl _, fun y hy => ?_⟩
      rcases List.mem_cons.mp hy with rfl | hy
      · exact hgap rfl
      · have hlater : range.2 ≤ currentEnd := hafter _ hy
        omega
    · obtain rfl := not_not.mp hgap
      rw [contiguousEnd, if_neg hgap]
      obtain ⟨hreach, hle, hfinal⟩ :=
        ih range.2 (fun r hr => hne r (List.mem_cons_of_mem _ hr)) hordered hafter
      refine ⟨?_, by omega, fun y hy => ?_⟩
      · exact .head List.mem_cons_self
          (Relation.ReflTransGen.mono (fun _ _ h => List.mem_cons_of_mem _ h) _ _ hreach)
      · rcases List.mem_cons.mp hy with heq | hy
        · have hstart : contiguousEnd range.2 ranges = range.1 := (Prod.mk.inj heq).1
          omega
        · exact hfinal y hy

/-- **The walk ends at the greatest end** of a chain from its first range. -/
theorem getHighestProvenContiguousBlock_spec (hne : ∀ range ∈ ranges, range.1 < range.2)
    (hordered : ranges.Pairwise fun x y => x.2 ≤ y.1)
    (h : getHighestProvenContiguousBlock ranges = some highest) :
    ∃ first ∈ ranges, (∀ range ∈ ranges, first.1 ≤ range.1) ∧
      Chained (· ∈ ranges) first.1 highest ∧
      ∀ stop, Chained (· ∈ ranges) first.1 stop → stop ≤ highest := by
  cases ranges with
  | nil => cases h
  | cons first rest =>
    obtain rfl := Option.some.inj h
    obtain ⟨hafter, hrest⟩ := List.pairwise_cons.mp hordered
    have hlt := hne first List.mem_cons_self
    obtain ⟨hreach, hle, hfinal⟩ := contiguousEnd_spec first.2
      (fun r hr => hne r (List.mem_cons_of_mem _ hr)) hrest hafter
    have hchain : Chained (· ∈ first :: rest) first.1 (contiguousEnd first.2 rest) :=
      .head' List.mem_cons_self
        (Relation.ReflTransGen.mono (fun _ _ h => List.mem_cons_of_mem _ h) _ _ hreach)
    refine ⟨first, List.mem_cons_self, fun r hr => ?_, hchain, fun stop hstop => ?_⟩
    · rcases List.mem_cons.mp hr with rfl | hr
      · exact Int.le_refl _
      · have hlater := hafter r hr
        omega
    · refine hchain.le_of_final hne ?_ (fun y hy => ?_) hstop
      · intro x y hx hy hxy
        have : Std.Symm (Apart : BlockRange → BlockRange → Prop) := ⟨fun _ _ h => h.symm⟩
        exact (pairwise_apart_of_ordered hordered).forall hx hy hxy
      · rcases List.mem_cons.mp hy with heq | hy
        · have hstart : contiguousEnd first.2 rest = first.1 := (Prod.mk.inj heq).1
          omega
        · exact hfinal y hy

/-- What the walk may answer from the completed ranges, read and sorted. -/
def WalkEnd (cfg : Config) (db : Db) (latestProposed : Nat) (highestProven : Int) : Prop :=
  ∃ ranges : List BlockRange, ranges.Perm (db.fetchCompletedRanges cfg.scope latestProposed) ∧
    ranges.Pairwise (fun a b => a.1 ≤ b.1) ∧
    getHighestProvenContiguousBlock ranges = some highestProven

variable {latestProposed : Nat}

theorem fetchCompletedRanges_perm : (db.fetchCompletedRanges cfg.scope latestProposed).Perm
    ((completedRows cfg db latestProposed fun _ => true).map Request.blocks) := by
  have hrows : (completedRows cfg db latestProposed fun _ => true) =
      db.inStatus cfg.scope .range .complete fun r => decide (latestProposed ≤ r.startBlock) := by
    simp only [completedRows, Bool.and_true]
  rw [hrows]
  exact List.perm_insertionSort _ _

theorem mem_fetchCompletedRanges {range : BlockRange} :
    range ∈ db.fetchCompletedRanges cfg.scope latestProposed ↔
      CompletedRange cfg db latestProposed range := by
  rw [fetchCompletedRanges_perm.mem_iff, List.mem_map, completedRange_iff]

/-- **The walk over the completed ranges** ends at the greatest end of a chain from the
first one of them. -/
theorem WalkEnd.spec (hdb : CompletedApart cfg db latestProposed)
    (h : WalkEnd cfg db latestProposed highest) :
    ∃ first, CompletedRange cfg db latestProposed first ∧
      (∀ range, CompletedRange cfg db latestProposed range → first.1 ≤ range.1) ∧
      Chained (CompletedRange cfg db latestProposed) first.1 highest ∧
      ∀ stop, Chained (CompletedRange cfg db latestProposed) first.1 stop → stop ≤ highest := by
  obtain ⟨ranges, hperm, hsorted, hwalk⟩ := h
  have hmem : ∀ range, range ∈ ranges ↔ CompletedRange cfg db latestProposed range :=
    fun range => hperm.mem_iff.trans mem_fetchCompletedRanges
  have hne : ∀ range ∈ ranges, range.1 < range.2 :=
    fun range hrange => hdb.nonempty range ((hmem range).mp hrange)
  have hperm := hperm.trans fetchCompletedRanges_perm
  have hordered := ordered_of_sorted (completedRows_apart hdb _)
    (fun range hrange => hne range (hperm.mem_iff.mpr hrange)) hperm hsorted
  obtain ⟨first, hfirst, hleast, hchain, hgreatest⟩ :=
    getHighestProvenContiguousBlock_spec hne hordered hwalk
  have hset : (fun range => range ∈ ranges) = CompletedRange cfg db latestProposed :=
    funext fun range => propext (hmem range)
  rw [hset] at hchain hgreatest
  exact ⟨first, (hmem first).mp hfirst, fun range hrange => hleast range ((hmem range).mpr hrange),
    hchain, hgreatest⟩

theorem exists_walkEnd {first : BlockRange} (hfirst : CompletedRange cfg db latestProposed first) :
    ∃ highest, WalkEnd cfg db latestProposed highest := by
  have hsorted : (db.fetchCompletedRanges cfg.scope latestProposed).Pairwise
      fun a b => a.1 ≤ b.1 := pairwise_sorted _
  have hmem := mem_fetchCompletedRanges.mpr hfirst
  cases hranges : db.fetchCompletedRanges cfg.scope latestProposed with
  | nil =>
    rw [hranges] at hmem
    cases hmem
  | cons range rest => exact ⟨_, range :: rest, hranges ▸ .refl _, hranges ▸ hsorted, rfl⟩

/-! ## Validation -/

/-- **The ranges inside a chain validate**: they are all there is between its ends, so
they touch end to end. -/
theorem chain_validates {stop : Int} (hdb : CompletedApart cfg db start)
    (hchain : Chained (CompletedRange cfg db start) start stop) {rows : List Request}
    {request : Request}
    (hrows : IsByStart (db.getConsecutiveCompleteRangeProofs cfg.scope start stop) rows)
    (hstart : request.startBlock = start) (hstop : request.endBlock = stop) :
    validateAggregationRequest rows request = true := by
  obtain ⟨hperm, hsorted⟩ := hrows
  have hperm : rows.Perm (completedRows cfg db start fun r => decide (r.endBlock ≤ stop)) :=
    hperm.trans (List.perm_insertionSort _ _)
  have hinside : ∀ range ∈ rows.map Request.blocks,
      range.1 < range.2 ∧ Within range (start, stop) := by
    intro range hrange
    obtain ⟨r, hr, rfl⟩ := List.mem_map.mp hrange
    obtain ⟨hrow, hscope, htype, hstatus, hfrom, hto⟩ :=
      mem_completedRows.mp (hperm.mem_iff.mp hr)
    exact ⟨hdb.nonempty _ ⟨r.id, r, hrow, hscope, htype, hstatus, hfrom, rfl⟩, hfrom,
      of_decide_eq_true hto⟩
  have hordered : (rows.map Request.blocks).Pairwise fun x y => x.2 ≤ y.1 := by
    refine ordered_of_sorted (completedRows_apart hdb _) (fun range hrange => ?_)
      (hperm.map Request.blocks) (List.pairwise_map.mpr hsorted)
    exact (hinside range ((hperm.map _).mem_iff.mpr hrange)).1
  have hcovers : ∀ b, start ≤ b → b < stop → ∃ range ∈ rows.map Request.blocks, Holds range b := by
    intro b hlo hhi
    obtain ⟨range, ⟨id, r, hr, hscope, htype, hstatus, hfrom, rfl⟩, -, hto, hholds⟩ :=
      hchain.exists_holds hdb.nonempty hlo hhi
    have hid := db.id_eq id r hr
    have hmem := mem_completedRows (p := fun r => decide (r.endBlock ≤ stop)).mpr
      ⟨hid ▸ hr, hscope, htype, hstatus, hfrom, decide_eq_true hto⟩
    exact ⟨r.blocks, List.mem_map.mpr ⟨r, hperm.mem_iff.mpr hmem, rfl⟩, hholds⟩
  obtain ⟨htouch, ⟨first, hfirst, hfirstStart⟩, last, hlast, hlastEnd⟩ :=
    isChain_of_covers (hchain.lt hdb.nonempty) hordered hinside hcovers
  rw [List.head?_map] at hfirst
  rw [List.getLast?_map] at hlast
  obtain ⟨firstRow, hfirstRow, rfl⟩ := Option.map_eq_some_iff.mp hfirst
  obtain ⟨lastRow, hlastRow, rfl⟩ := Option.map_eq_some_iff.mp hlast
  refine validateAggregationRequest_iff.mpr ⟨firstRow, lastRow, hfirstRow, hlastRow,
    hfirstStart.trans hstart.symm, hlastEnd.trans hstop.symm, ?_⟩
  refine ((List.isChain_map _).mp htouch).imp fun r r' heq => ?_
  have heq : r.endBlock = r'.startBlock := heq
  exact ⟨heq, by omega⟩

/-! ## Calls of `create_aggregation_proofs` -/

/-- A call on the way through the function, where the contract answers the interval. -/
def AggCall (cfg : Config) (interval : Nat) (s : Sys) (answer : Answer) (t : Sys) : Prop :=
  (∃ pc, s.main = .agg pc ∧ aggStep cfg s pc answer = some t) ∧
    ∀ answered, answer = .submissionInterval answered → answered = interval

/-- The function gets to where it checkpoints an L1 block for a request from the latest
proposed block to another one, or inserts this request. -/
def Proposes (cfg : Config) (interval : Nat) (s : Sys) (highestProven : Int) : Prop :=
  ∃ answers t, Run (AggCall cfg interval) (s.goto (.agg .latest)) answers t ∧
    (t.main = .agg (.checkpoint s.latest highestProven) ∨
      ∃ number hash, t.main = .agg (.insert s.latest highestProven number hash))

/-- The interval between proposals the function goes by. -/
def intervalUsed (cfg : Config) (interval : Nat) : Int :=
  asI64 (max interval cfg.submissionInterval)

/-- When a request is proposed: no other one is active, the walk ends at its end block,
and this is far enough. -/
structure Proposable (cfg : Config) (interval : Nat) (db : Db) (latestProposed : Nat)
    (highestProven : Int) : Prop where
  idle : db.fetchActiveAggProofsCount cfg.scope latestProposed = 0
  walk : WalkEnd cfg db latestProposed highestProven
  far : intervalUsed cfg interval ≤ highestProven - latestProposed

/-- What is known in the function of the database it was called on. -/
def AggKnows (cfg : Config) (interval : Nat) (db : Db) (latest : Nat) : AggPc → Prop
  | .latest => True
  | .activeCount latestProposed => latestProposed = latest
  | .completedRanges latestProposed =>
    latestProposed = latest ∧ db.fetchActiveAggProofsCount cfg.scope latest = 0
  | .submissionInterval latestProposed highestProven =>
    latestProposed = latest ∧ db.fetchActiveAggProofsCount cfg.scope latest = 0 ∧
      WalkEnd cfg db latest highestProven
  | .existing latestProposed highestProven | .checkpoint latestProposed highestProven
  | .insert latestProposed highestProven _ _ =>
    latestProposed = latest ∧ Proposable cfg interval db latest highestProven

variable {interval : Nat} {s t : Sys}

/-- One call: the function returns, or knows more of the same database. -/
theorem AggCall.knows {answer : Answer} (h : AggCall cfg interval s answer t) {pc : AggPc}
    (hs : s.main = .agg pc) (hknows : AggKnows cfg interval s.db s.latest pc) :
    t.main = .idle ∨ t.db = s.db ∧ t.latest = s.latest ∧
      ∃ pc', t.main = .agg pc' ∧ AggKnows cfg interval s.db s.latest pc' := by
  obtain ⟨⟨pc', hmain, hstep⟩, hinterval⟩ := h
  cases hs.symm.trans hmain
  unfold aggStep at hstep
  split at hstep
  · cases hstep
    exact .inr ⟨rfl, rfl, _, rfl, rfl⟩
  · rename_i latestProposed
    obtain rfl : latestProposed = s.latest := hknows
    cases hstep
    by_cases hactive : 0 < s.db.fetchActiveAggProofsCount cfg.scope s.latest
    · rw [if_pos hactive]
      exact .inl rfl
    · rw [if_neg hactive]
      exact .inr ⟨rfl, rfl, _, rfl, rfl, by omega⟩
  · rename_i latestProposed ranges
    obtain ⟨rfl, hnone⟩ : latestProposed = s.latest ∧ _ := hknows
    obtain ⟨⟨hperm, hsorted⟩, hstep⟩ := Option.ite_none_right_eq_some.mp hstep
    split at hstep
    · cases hstep
      exact .inl rfl
    · rename_i highestProven hwalk
      cases hstep
      exact .inr ⟨rfl, rfl, _, rfl, rfl, hnone, ranges, hperm, hsorted, hwalk⟩
  · rename_i latestProposed highestProven answered
    obtain ⟨rfl, hnone, hwalk⟩ : latestProposed = s.latest ∧ _ := hknows
    obtain rfl := hinterval answered rfl
    cases hstep
    by_cases hfar : intervalUsed cfg answered ≤ highestProven - s.latest
    · rw [if_pos (show asI64 (max answered cfg.submissionInterval) ≤ _ from hfar)]
      exact .inr ⟨rfl, rfl, _, rfl, rfl, hnone, hwalk, hfar⟩
    · rw [if_neg (show ¬ asI64 (max answered cfg.submissionInterval) ≤ _ from hfar)]
      exact .inl rfl
  · obtain ⟨-, hstep⟩ := Option.ite_none_right_eq_some.mp hstep
    cases hstep
    exact .inr ⟨rfl, rfl, _, rfl, hknows⟩
  · obtain ⟨-, hstep⟩ := Option.ite_none_right_eq_some.mp hstep
    split at hstep
    · cases hstep
      exact .inr ⟨rfl, rfl, _, rfl, hknows⟩
    · cases hstep
  · cases hstep
    exact .inr ⟨rfl, rfl, _, rfl, hknows⟩
  · cases hstep
    exact .inl rfl
  · cases hstep

/-- What the function goes on with is what it was called on, until it returns. -/
theorem run_knows {answers : List Answer}
    (h : Run (AggCall cfg interval) (s.goto (.agg .latest)) answers t) :
    t.main = .idle ∨ t.db = s.db ∧ t.latest = s.latest ∧
      ∃ pc, t.main = .agg pc ∧ AggKnows cfg interval s.db s.latest pc := by
  refine h.invariant (I := fun u : Sys => u.main = .idle ∨ u.db = s.db ∧ u.latest = s.latest ∧
    ∃ pc, u.main = .agg pc ∧ AggKnows cfg interval s.db s.latest pc) ?_
    (.inr ⟨rfl, rfl, _, rfl, trivial⟩)
  intro a answer b ha hcall
  rcases ha with hidle | ⟨hdb, hlatest, pc, hmain, hknows⟩
  · obtain ⟨⟨pc, hmain, -⟩, -⟩ := hcall
    rw [hidle] at hmain
    cases hmain
  · rw [← hdb, ← hlatest] at hknows ⊢
    exact hcall.knows hmain hknows

theorem proposable_of_proposes (h : Proposes cfg interval s highest) :
    Proposable cfg interval s.db s.latest highest := by
  obtain ⟨answers, t, hrun, hmain⟩ := h
  rcases run_knows hrun with hidle | ⟨-, -, pc, hpc, hknows⟩
  · rw [hidle] at hmain
    rcases hmain with hmain | ⟨number, hash, hmain⟩ <;> cases hmain
  · rcases hmain with hmain | ⟨number, hash, hmain⟩ <;> cases hpc.symm.trans hmain <;>
      exact hknows.2

/-- The calls before the function knows whether it proposes. -/
theorem run_existing (h : Proposable cfg interval s.db s.latest highest) :
    ∃ answers, Run (AggCall cfg interval) (s.goto (.agg .latest)) answers
      (s.goto (.agg (.existing s.latest highest))) := by
  obtain ⟨hidle, ⟨ranges, hperm, hsorted, hwalk⟩, hfar⟩ := h
  have hactive : AggCall cfg interval (s.goto (.agg (.activeCount s.latest))) .ok
      (s.goto (.agg (.completedRanges s.latest))) := by
    refine ⟨⟨_, rfl, ?_⟩, fun _ h => by cases h⟩
    dsimp only [aggStep, Sys.goto]
    rw [if_neg (show ¬ 0 < s.db.fetchActiveAggProofsCount cfg.scope s.latest by omega)]
  have hranges : AggCall cfg interval (s.goto (.agg (.completedRanges s.latest))) (.ranges ranges)
      (s.goto (.agg (.submissionInterval s.latest highest))) := by
    refine ⟨⟨_, rfl, ?_⟩, fun _ h => by cases h⟩
    rw [aggStep, if_pos ⟨hperm, hsorted⟩, hwalk]
    rfl
  have hinterval : AggCall cfg interval (s.goto (.agg (.submissionInterval s.latest highest)))
      (.submissionInterval interval) (s.goto (.agg (.existing s.latest highest))) := by
    refine ⟨⟨_, rfl, ?_⟩, fun _ h => (Answer.submissionInterval.inj h).symm⟩
    rw [aggStep, if_pos (show asI64 (max interval cfg.submissionInterval) ≤ _ from hfar)]
    rfl
  have hlatest : AggCall cfg interval (s.goto (.agg .latest)) .ok
      (s.goto (.agg (.activeCount s.latest))) := ⟨⟨_, rfl, rfl⟩, fun _ h => by cases h⟩
  exact ⟨_, .cons hlatest (.cons hactive (.cons hranges (.single hinterval)))⟩

/-- **When the function proposes a request.** -/
theorem proposes_iff :
    Proposes cfg interval s highest ↔ Proposable cfg interval s.db s.latest highest := by
  refine ⟨proposable_of_proposes, fun h => ?_⟩
  obtain ⟨answers, hrun⟩ := run_existing h
  cases hfailed : s.db.failedAggRequestsWithCheckpoint cfg.scope s.latest highest with
  | nil =>
    refine ⟨_, s.goto (.agg (.checkpoint s.latest highest)),
      hrun.snoc (l := .row none) ⟨⟨_, rfl, ?_⟩, fun _ h => by cases h⟩, .inl rfl⟩
    rw [aggStep]
    exact if_pos hfailed
  | cons existing rest =>
    have hmem : existing ∈ s.db.failedAggRequestsWithCheckpoint cfg.scope s.latest highest :=
      hfailed ▸ List.mem_cons_self
    have hcheckpoint := hmem
    simp only [Db.failedAggRequestsWithCheckpoint, Db.inStatus, Db.mem_select, Bool.and_eq_true]
      at hcheckpoint
    obtain ⟨-, -, ⟨-, hhash⟩, hnumber⟩ := hcheckpoint
    obtain ⟨hash, hhash⟩ := Option.isSome_iff_exists.mp hhash
    obtain ⟨number, hnumber⟩ := Option.isSome_iff_exists.mp hnumber
    refine ⟨_, s.goto (.agg (.insert s.latest highest number hash)),
      hrun.snoc (l := .row (some existing)) ⟨⟨_, rfl, ?_⟩, fun _ h => by cases h⟩,
      .inr ⟨number, hash, rfl⟩⟩
    dsimp only [aggStep, Sys.goto]
    rw [if_pos hmem, hhash, hnumber]

/-! ## What a request stands for -/

/-- **A request from the contract's block on.**  Completed ranges make an unbroken chain
from the latest proposed block to the end block and no longer one, and the ranges read
again for the request validate. -/
structure AggregatesChain (cfg : Config) (s : Sys) (highestProven : Int) : Prop where
  chain : Chained (CompletedRange cfg s.db s.latest) s.latest highestProven
  greatest : ∀ stop, Chained (CompletedRange cfg s.db s.latest) s.latest stop → stop ≤ highestProven
  validates : ∀ rows (request : Request),
    IsByStart (s.db.getConsecutiveCompleteRangeProofs cfg.scope s.latest highestProven) rows →
      request.startBlock = s.latest → request.endBlock = highestProven →
      validateAggregationRequest rows request = true

/-- **Aggregation over a chain that starts at the contract.**  Every request that is
proposed stands for a chain from the latest proposed block exactly when a completed range
starts there, an active request keeps the function from proposing, or the completed
ranges that follow the first one end too early. -/
theorem aggregation_from_contract_iff (hdb : CompletedApart cfg s.db s.latest) :
    (∀ highestProven, Proposes cfg interval s highestProven →
        AggregatesChain cfg s highestProven) ↔
      (∃ stop, CompletedRange cfg s.db s.latest (s.latest, stop)) ∨
        0 < s.db.fetchActiveAggProofsCount cfg.scope s.latest ∨
        ∀ first, CompletedRange cfg s.db s.latest first →
          (∀ range, CompletedRange cfg s.db s.latest range → first.1 ≤ range.1) →
          ∀ stop, Chained (CompletedRange cfg s.db s.latest) first.1 stop →
            stop - s.latest < intervalUsed cfg interval := by
  constructor
  · intro hall
    by_cases hstart : ∃ stop, CompletedRange cfg s.db s.latest (s.latest, stop)
    · exact .inl hstart
    by_cases hactive : 0 < s.db.fetchActiveAggProofsCount cfg.scope s.latest
    · exact .inr (.inl hactive)
    refine .inr (.inr fun first hfirst hleast stop hchain => ?_)
    by_contra hfar
    obtain ⟨highestProven, hwalk⟩ := exists_walkEnd hfirst
    obtain ⟨first', hfirst', hleast', -, hgreatest⟩ := hwalk.spec hdb
    have hsame : first'.1 = first.1 :=
      Int.le_antisymm (hleast' first hfirst) (hleast first' hfirst')
    have hend := hgreatest stop (hsame ▸ hchain)
    have hproposes : Proposes cfg interval s highestProven :=
      proposes_iff.mpr ⟨by omega, hwalk, by omega⟩
    exact hstart (hall highestProven hproposes).chain.exists_first
  · intro hcondition highestProven hproposes
    obtain ⟨hidle, hwalk, hfar⟩ := proposes_iff.mp hproposes
    obtain ⟨first, hfirst, hleast, hchain, hgreatest⟩ := hwalk.spec hdb
    rcases hcondition with ⟨stop, hstart⟩ | hactive | hshort
    · have hfrom : first.1 = s.latest := by
        obtain ⟨id, r, -, -, -, -, hbehind, rfl⟩ := hfirst
        exact Int.le_antisymm (hleast _ hstart) hbehind
      rw [hfrom] at hchain hgreatest
      exact ⟨hchain, hgreatest, fun rows request hrows hstart hstop =>
        chain_validates hdb hchain hrows hstart hstop⟩
    · omega
    · have hnear := hshort first hfirst hleast highestProven hchain
      omega

/-! ### One completed range

The submission interval is 100, and nothing is proposed yet.  If the blocks 0 to 100 are
completed, the request that is proposed covers them; if the blocks 100 to 200 are, the
request from 0 to 200 has no proof of its first half. -/

/-- The database with one completed range. -/
def exampleCompleted (startBlock endBlock : Int) : Db :=
  Db.empty.insert { newRangeRequest exampleConfig.scope .real startBlock endBlock with
    status := .complete }

def exampleAgg (startBlock endBlock : Int) : Sys :=
  Sys.start (exampleCompleted startBlock endBlock) 0

theorem exampleCompleted_rows {startBlock endBlock : Int} {id : Nat} {r : Request}
    (h : (exampleCompleted startBlock endBlock).rows id = some r) :
    id = 1 ∧ r.blocks = (startBlock, endBlock) := by
  by_cases hid : id = 1
  · subst hid
    cases h
    exact ⟨rfl, rfl⟩
  · have hnone : (exampleCompleted startBlock endBlock).rows id = none :=
      Function.update_of_ne hid _ _
    rw [hnone] at h
    cases h

theorem exampleCompleted_apart {startBlock endBlock : Int} (hlt : startBlock < endBlock)
    (start : Int) : CompletedApart exampleConfig (exampleCompleted startBlock endBlock) start where
  nonempty := by
    rintro range ⟨id, r, hr, -, -, -, -, rfl⟩
    rw [(exampleCompleted_rows hr).2]
    exact hlt
  apart := by
    intro id id' r r' hr hr' hne
    exact absurd ((exampleCompleted_rows hr).1.trans (exampleCompleted_rows hr').1.symm) hne

theorem exampleAgg_proposes : Proposes exampleConfig 100 (exampleAgg 0 100) 100 := by
  refine proposes_iff.mpr ⟨?_, ?_, ?_⟩
  · decide +kernel
  · exact ⟨[(0, 100)], by decide +kernel, List.pairwise_singleton _ _, rfl⟩
  · decide

theorem aggregation_from_contract_iff_example :
    Proposes exampleConfig 100 (exampleAgg 0 100) 100 ∧
      AggregatesChain exampleConfig (exampleAgg 0 100) 100 :=
  ⟨exampleAgg_proposes, (aggregation_from_contract_iff (exampleCompleted_apart (by decide) _)).mpr
    (.inl ⟨100, 1, { newRangeRequest exampleConfig.scope .real 0 100 with
      id := 1
      status := .complete }, rfl, by decide, rfl, rfl, Int.le_refl _, rfl⟩) 100 exampleAgg_proposes⟩

/-- **The failing input.**  No completed range starts at the latest proposed block, and
the request from there is proposed, with an L1 block to be checkpointed; it does not
validate. -/
theorem hole_after_proposed_block :
    CompletedApart exampleConfig (exampleAgg 100 200).db (exampleAgg 100 200).latest ∧
      (¬ ∃ stop, CompletedRange exampleConfig (exampleAgg 100 200).db 0 (0, stop)) ∧
      Proposes exampleConfig 100 (exampleAgg 100 200) 200 ∧
      ¬ AggregatesChain exampleConfig (exampleAgg 100 200) 200 := by
  have hnone : ¬ ∃ stop, CompletedRange exampleConfig (exampleAgg 100 200).db 0 (0, stop) := by
    rintro ⟨stop, id, r, hr, -, -, -, -, hblocks⟩
    have hstart : (100, 200) = ((0 : Int), stop) := (exampleCompleted_rows hr).2.symm.trans hblocks
    exact absurd (Prod.mk.inj hstart).1 (by decide)
  refine ⟨exampleCompleted_apart (by decide) _, hnone, proposes_iff.mpr ⟨?_, ?_, ?_⟩,
    fun hcovers => hnone hcovers.chain.exists_first⟩
  · decide +kernel
  · exact ⟨[(100, 200)], by decide +kernel, List.pairwise_singleton _ _, rfl⟩
  · decide

end OpSuccinct.Validity
