import OpSuccinct.ProposerLifeCycle

/-! # Active range requests

Two active range requests that start at or after the latest proposed block share no
block (`RangesApart`).  Steps other than insertions only take active requests away
(`Effect.active`), so this is kept if what is inserted fits (`Fits`).  The gaps that
`add_new_ranges` fills do.  A request that fails leaves its own place
(`LeavesPlace`), where its halves fit, as long as the request starts at or after the
block from which `add_new_ranges` last filled gaps, or neither of its halves does: a
second half may start after that block although the request it comes from, starting
before it, was not among the requests the gaps were left by (`halves_overlap`).
-/
namespace OpSuccinct.Validity

open Fleets Transition Intervals

def Request.blocks (r : Request) : BlockRange := (r.startBlock, r.endBlock)

/-- The blocks of an active range request within the scope. -/
def ActiveRange (cfg : Config) (db : Db) (id : Nat) (range : BlockRange) : Prop :=
  ∃ r, db.rows id = some r ∧ r.InScope cfg.scope ∧ r.reqType = .range ∧
    r.status.isActive = true ∧ r.blocks = range

/-- **Active ranges from a block on** are non-empty and share no block. -/
structure RangesApart (cfg : Config) (db : Db) (start : Int) : Prop where
  nonempty : ∀ id range, ActiveRange cfg db id range → start ≤ range.1 → range.1 < range.2
  apart : ∀ id id' range range', ActiveRange cfg db id range → ActiveRange cfg db id' range' →
    id ≠ id' → start ≤ range.1 → start ≤ range'.1 → Apart range range'

def Request.IsRangeFrom (r : Request) (start : Int) : Prop :=
  r.reqType = .range ∧ start ≤ r.startBlock

/-- The range requests among the given ones, from a block on, are non-empty, and share no
block with each other or with an active one. -/
structure Fits (cfg : Config) (db : Db) (start : Int) (requests : List Request) : Prop where
  nonempty : ∀ r ∈ requests, r.IsRangeFrom start → r.startBlock < r.endBlock
  pairwise : requests.Pairwise fun r r' =>
    r.IsRangeFrom start → r'.IsRangeFrom start → Apart r.blocks r'.blocks
  apart : ∀ r ∈ requests, r.IsRangeFrom start → ∀ id range, ActiveRange cfg db id range →
    start ≤ range.1 → Apart r.blocks range

/-- No active range, from a block on, shares a block with the request, if that is such a
range itself. -/
def LeavesPlace (cfg : Config) (db : Db) (start : Int) (request : Request) : Prop :=
  request.IsRangeFrom start →
    ∀ id range, ActiveRange cfg db id range → start ≤ range.1 → Apart request.blocks range

variable {cfg : Config} {v v' : View} {db db' : Db} {requests : List Request} {start start' : Int}

theorem activeRange_of_same {id : Nat} {r r' : Request} (hr : db.rows id = some r)
    (hsame : SameRequest r r') (hscope : r'.InScope cfg.scope) (htype : r'.reqType = .range)
    (hstatus : r.status.isActive = true) : ActiveRange cfg db id r'.blocks := by
  refine ⟨r, hr, hsame.inScope_iff.mp hscope, hsame.reqType ▸ htype, hstatus, ?_⟩
  rw [Request.blocks, Request.blocks, hsame.startBlock, hsame.endBlock]

/-- An active range after an insertion was one before, or is inserted. -/
theorem activeRange_insertAll {id : Nat} {range : BlockRange}
    (h : ActiveRange cfg (db.insertAll requests) id range) :
    ActiveRange cfg db id range ∨
      ∃ r, requests[id - db.nextId]? = some r ∧ db.nextId ≤ id ∧ r.reqType = .range ∧
        r.blocks = range := by
  obtain ⟨r', hr', hscope, htype, hstatus, rfl⟩ := h
  rw [Db.rows_insertAll] at hr'
  split at hr'
  · exact .inl ⟨r', hr', hscope, htype, hstatus, rfl⟩
  · obtain ⟨r, hr, rfl⟩ := Option.map_eq_some_iff.mp hr'
    exact .inr ⟨r, hr, by omega, htype, rfl⟩

/-- **A step takes active ranges away, or inserts requests.** -/
theorem Effect.active (hv : v.Ok cfg) (h : Effect cfg v requests v') {id : Nat} {range : BlockRange}
    (hactive : ActiveRange cfg v'.db id range) :
    ActiveRange cfg v.db id range ∨
      ∃ r, requests[id - v.db.nextId]? = some r ∧ v.db.nextId ≤ id ∧ r.reqType = .range ∧
        r.blocks = range := by
  obtain ⟨r', hr', hscope, htype, hstatus, rfl⟩ := hactive
  cases h with
  | none | forget _ | spawn _ | restart => exact .inl ⟨r', hr', hscope, htype, hstatus, rfl⟩
  | @task key task _ db pc htask hstep =>
    obtain ⟨hlive, g, hupdates, -⟩ := taskStep_spec hstep
    obtain ⟨r, hr, hsame, hnew⟩ := hupdates.back hr'
    refine .inl (activeRange_of_same hr hsame hscope htype ?_)
    by_cases hid : id = task.datum.id
    · subst hid
      obtain ⟨r₀, hr₀, -, hallows⟩ := hv.row_of_live htask hlive
      cases hr.symm.trans hr₀
      exact (hallows.inTask (hlive.ne_finished true)).isActive
    · rw [if_neg hid] at hnew
      exact hnew ▸ hstatus
  | @write id' g db _ hupdates hmoves =>
    obtain ⟨r, hr, hsame, hnew⟩ := hupdates.back hr'
    refine .inl (activeRange_of_same hr hsame hscope htype ?_)
    by_cases hid : id = id'
    · subst hid
      rw [if_pos rfl] at hnew
      -- The one status that is left for an active one is `Prove`.
      rcases hmoves r hr with hfailed | ⟨hold, -⟩ | ⟨-, hrelayed⟩
      · rw [hnew, hfailed] at hstatus
        cases hstatus
      · rw [hold]
        rfl
      · rw [hnew, hrelayed] at hstatus
        cases hstatus
    · rw [if_neg hid] at hnew
      exact hnew ▸ hstatus
  | insert requests => exact activeRange_insertAll ⟨r', hr', hscope, htype, hstatus, rfl⟩
  | clean _ hcleans =>
    obtain ⟨r, hr, hsame, hnew⟩ := hcleans.back id r' hr'
    refine .inl (activeRange_of_same hr hsame hscope htype ?_)
    rcases hnew with hnew | hnew
    · exact hnew ▸ hstatus
    · rw [hnew] at hstatus
      cases hstatus

/-- Without an insertion active ranges are only taken away. -/
theorem Effect.active_of_nil (hv : v.Ok cfg) (h : Effect cfg v [] v') {id : Nat}
    {range : BlockRange} (hactive : ActiveRange cfg v'.db id range) :
    ActiveRange cfg v.db id range := by
  rcases h.active hv hactive with hold | ⟨r, hr, -⟩
  · exact hold
  · cases hr

/-- Active ranges stay apart if all there are were there before, or are inserted and fit. -/
theorem RangesApart.of_back {nextId : Nat} (hranges : RangesApart cfg db start)
    (hle : start ≤ start') (hfits : Fits cfg db start' requests)
    (hback : ∀ id range, ActiveRange cfg db' id range → ActiveRange cfg db id range ∨
      ∃ r, requests[id - nextId]? = some r ∧ nextId ≤ id ∧ r.reqType = .range ∧ r.blocks = range) :
    RangesApart cfg db' start' where
  nonempty := by
    intro id range hactive hstart
    rcases hback id range hactive with hold | ⟨r, hr, -, htype, rfl⟩
    · exact hranges.nonempty id range hold (le_trans hle hstart)
    · exact hfits.nonempty r (List.mem_of_getElem? hr) ⟨htype, hstart⟩
  apart := by
    intro id id' range range' hactive hactive' hne hstart hstart'
    rcases hback id range hactive with hold | ⟨r, hr, hid, htype, rfl⟩
    · rcases hback id' range' hactive' with hold' | ⟨r', hr', -, htype', rfl⟩
      · exact hranges.apart id id' range range' hold hold' hne (le_trans hle hstart)
          (le_trans hle hstart')
      · exact (hfits.apart r' (List.mem_of_getElem? hr') ⟨htype', hstart'⟩
          id range hold hstart).symm
    · rcases hback id' range' hactive' with hold' | ⟨r', hr', hid', htype', rfl⟩
      · exact hfits.apart r (List.mem_of_getElem? hr) ⟨htype, hstart⟩ id' range' hold' hstart'
      · -- two inserted requests, in one order or the other
        have hpairs := List.pairwise_iff_getElem.mp hfits.pairwise
        obtain ⟨hi, rfl⟩ := List.getElem?_eq_some_iff.mp hr
        obtain ⟨hi', rfl⟩ := List.getElem?_eq_some_iff.mp hr'
        by_cases hlt : id < id'
        · exact hpairs _ _ hi hi' (by omega) ⟨htype, hstart⟩ ⟨htype', hstart'⟩
        · exact (hpairs _ _ hi' hi (by omega) ⟨htype', hstart'⟩ ⟨htype, hstart⟩).symm

/-- **Active ranges stay apart** if what is inserted fits. -/
theorem RangesApart.effect (hranges : RangesApart cfg v.db start) (hv : v.Ok cfg)
    (hle : start ≤ start') (h : Effect cfg v requests v') (hfits : Fits cfg v.db start' requests) :
    RangesApart cfg v'.db start' :=
  hranges.of_back hle hfits fun _ _ hactive => h.active hv hactive

theorem fits_of_not_range (hnot : ∀ r ∈ requests, r.reqType ≠ .range) :
    Fits cfg db start requests where
  nonempty := fun r hr hfrom => absurd hfrom.1 (hnot r hr)
  pairwise := List.pairwise_iff_forall_sublist.mpr fun hsub hfrom =>
    absurd hfrom.1 (hnot _ (hsub.subset List.mem_cons_self))
  apart := fun r hr hfrom => absurd hfrom.1 (hnot r hr)

theorem Fits.anti (h : Fits cfg db start requests)
    (hdb : ∀ id range, ActiveRange cfg db' id range → ActiveRange cfg db id range) :
    Fits cfg db' start requests :=
  ⟨h.nonempty, h.pairwise, fun r hr hfrom id range hactive =>
    h.apart r hr hfrom id range (hdb id range hactive)⟩

theorem LeavesPlace.anti {request : Request} (h : LeavesPlace cfg db start request)
    (hdb : ∀ id range, ActiveRange cfg db' id range → ActiveRange cfg db id range) :
    LeavesPlace cfg db' start request :=
  fun hfrom id range hactive => h hfrom id range (hdb id range hactive)

/-! ## What is inserted fits -/

/-- The rows `add_new_ranges` reads are the active ranges. -/
theorem mem_fetchRangesAfterBlock {range : BlockRange} :
    range ∈ db.fetchRangesAfterBlock cfg.scope start ↔
      start ≤ range.1 ∧ ∃ id, ActiveRange cfg db id range := by
  simp only [Db.fetchRangesAfterBlock, List.mem_map, Db.mem_select, Bool.and_eq_true,
    decide_eq_true_eq, beq_iff_eq]
  constructor
  · rintro ⟨r, ⟨hr, ⟨⟨hscope, hstatus⟩, htype⟩, hstart⟩, rfl⟩
    exact ⟨hstart, r.id, r, hr, hscope, htype, hstatus, rfl⟩
  · rintro ⟨hstart, id, r, hr, hscope, htype, hstatus, rfl⟩
    have hid := db.id_eq id r hr
    exact ⟨r, ⟨hid ▸ hr, ⟨⟨hscope, hstatus⟩, htype⟩, hstart⟩, rfl⟩

/-- The answer, sorted. -/
theorem mem_sorted_iff {found : List BlockRange} {range : BlockRange}
    (hperm : found.Perm (db.fetchRangesAfterBlock cfg.scope start)) :
    range ∈ found.insertionSort (fun a b => a.1 ≤ b.1) ↔
      start ≤ range.1 ∧ ∃ id, ActiveRange cfg db id range :=
  (List.mem_insertionSort _).trans (hperm.mem_iff.trans mem_fetchRangesAfterBlock)

theorem pairwise_sorted (found : List BlockRange) :
    (found.insertionSort fun a b => a.1 ≤ b.1).Pairwise fun a b => a.1 ≤ b.1 :=
  have : Std.Total fun a b : BlockRange => a.1 ≤ b.1 := ⟨fun a b => Int.le_total a.1 b.1⟩
  have : IsTrans BlockRange fun a b => a.1 ≤ b.1 := ⟨fun _ _ _ => Int.le_trans⟩
  List.pairwise_insertionSort _ found

/-- The gaps between active ranges come in order. -/
theorem gaps_ordered {found : List BlockRange} (finalizedBlock : Int)
    (hranges : RangesApart cfg db start)
    (hperm : found.Perm (db.fetchRangesAfterBlock cfg.scope start)) :
    (findGaps start finalizedBlock (found.insertionSort fun a b => a.1 ≤ b.1)).Pairwise
      fun x y => x.2 ≤ y.1 := by
  refine findGapsFrom_ordered start finalizedBlock fun range hrange => ?_
  obtain ⟨hstart, id, hactive⟩ := (mem_sorted_iff hperm).mp hrange
  exact Int.le_of_lt (hranges.nonempty id range hactive hstart)

/-- **Ranges in the gaps fit.** -/
theorem fits_gaps {found ranges : List BlockRange} {finalizedBlock interval : Int}
    (mode : RequestMode) (hranges : RangesApart cfg db start)
    (hperm : found.Perm (db.fetchRangesAfterBlock cfg.scope start))
    (h : getRangesToProve (findGaps start finalizedBlock (found.insertionSort fun a b => a.1 ≤ b.1))
      interval = some ranges) :
    Fits cfg db start (ranges.map fun range => newRangeRequest cfg.scope mode range.1 range.2) := by
  obtain ⟨hpairwise, hinside⟩ :=
    getRangesToProve_spec (pairwise_apart_of_ordered (gaps_ordered _ hranges hperm)) h
  refine ⟨fun r hr _ => ?_, List.pairwise_map.mpr (hpairwise.imp fun hapart _ _ => hapart),
    fun r hr _ id range hactive hstart => ?_⟩
  · obtain ⟨range, hrange, rfl⟩ := List.mem_map.mp hr
    exact (hinside range hrange).1
  · obtain ⟨new, hnew, rfl⟩ := List.mem_map.mp hr
    obtain ⟨-, gap, hgap, hwithin⟩ := hinside new hnew
    have hrange := (mem_sorted_iff hperm).mpr ⟨hstart, id, hactive⟩
    exact (findGapsFrom_apart (pairwise_sorted found) hgap hrange).of_within hwithin

theorem midBlock_between {request : Request} (h : 1 < request.endBlock - request.startBlock) :
    request.startBlock < midBlock request ∧ midBlock request < request.endBlock := by
  rw [midBlock, Int.tdiv_eq_ediv]
  split
  · omega
  · rw [show Int.sign 2 = 1 from rfl]
    omega

/-- **The halves of a failed request fit**, unless the block from which gaps were filled
is after its start and not after its middle. -/
theorem fits_halves {request : Request} (hplace : LeavesPlace cfg db start request)
    (htype : request.reqType = .range) (hlength : 1 < request.endBlock - request.startBlock)
    (hacross : ¬ (request.startBlock < start ∧ start ≤ midBlock request)) :
    Fits cfg db start (halves cfg request) := by
  obtain ⟨hleft, hright⟩ := midBlock_between hlength
  refine ⟨fun r hr _ => ?_, ?_, fun r hr hfrom id range hactive hstart => ?_⟩
  · rcases List.mem_pair.mp hr with rfl | rfl
    · exact hleft
    · exact hright
  · exact List.pairwise_pair.mpr fun _ _ => .inl (Int.le_refl _)
  · -- A half that starts late enough belongs to a request that does.
    have hrequest : start ≤ request.startBlock := by
      rcases List.mem_pair.mp hr with rfl | rfl
      · exact hfrom.2
      · have hmid : start ≤ midBlock request := hfrom.2
        by_contra hlt
        exact hacross ⟨by omega, hmid⟩
    have hwithin : Within r.blocks request.blocks := by
      rcases List.mem_pair.mp hr with rfl | rfl
      · exact ⟨Int.le_refl _, Int.le_of_lt hright⟩
      · exact ⟨Int.le_of_lt hleft, Int.le_refl _⟩
    exact (hplace ⟨htype, hrequest⟩ id range hactive hstart).of_within hwithin

/-- **A request that fails leaves its place.** -/
theorem leavesPlace_of_failed {request : Request} (hranges : RangesApart cfg db start)
    (hold : request.reqType = .range → ActiveRange cfg db request.id request.blocks)
    (hdb : ∀ id range, ActiveRange cfg db' id range → ActiveRange cfg db id range)
    (hfailed : ∃ r, db'.rows request.id = some r ∧ r.status = .failed) :
    LeavesPlace cfg db' start request := by
  intro hfrom id range hactive hstart
  have hne : request.id ≠ id := by
    rintro rfl
    obtain ⟨r, hr, hstatus⟩ := hfailed
    obtain ⟨r', hr', -, -, hactive, -⟩ := hactive
    cases hr.symm.trans hr'
    rw [hstatus] at hactive
    cases hactive
  exact hranges.apart _ _ _ _ (hold hfrom.1) (hdb id range hactive) hne hfrom.2 hstart

/-! ## Steps -/

/-- What `add_new_ranges` and `handle_failed_request` know of the ranges, where they
are. -/
def Plan (cfg : Config) (db : Db) (filledFrom latest : Nat) : MainPc → Prop
  | .add (.finalized latestProposed) | .add (.fetch latestProposed _) =>
    filledFrom ≤ latestProposed ∧ latestProposed ≤ latest
  | .add (.insert latestProposed rangesToProve) =>
    (filledFrom ≤ latestProposed ∧ latestProposed ≤ latest) ∧
      Fits cfg db latestProposed (MainPc.inserted cfg (.add (.insert latestProposed rangesToProve)))
  | .retry request (.countFailed _) _ => LeavesPlace cfg db filledFrom request
  | .retry request .insertHalves _ =>
    LeavesPlace cfg db filledFrom request ∧ request.reqType = .range ∧
      1 < request.endBlock - request.startBlock
  | _ => True

/-- Active ranges from the filled block on are apart, and the plan is sound. -/
structure Sys.RangesOk (cfg : Config) (s : Sys) : Prop where
  apart : RangesApart cfg s.db s.filledFrom
  filled : s.filledFrom ≤ s.latest
  plan : Plan cfg s.db s.filledFrom s.latest s.main

variable {s t : Sys} {answer : Answer}

theorem Plan.anti {filledFrom latest latest' : Nat} {main : MainPc}
    (h : Plan cfg db filledFrom latest main) (hlatest : latest ≤ latest')
    (hdb : ∀ id range, ActiveRange cfg db' id range → ActiveRange cfg db id range) :
    Plan cfg db' filledFrom latest' main := by
  cases main with
  | add pc =>
    cases pc with
    | latest => trivial
    | finalized _ | fetch _ _ => exact ⟨h.1, Nat.le_trans h.2 hlatest⟩
    | insert _ _ => exact ⟨⟨h.1.1, Nat.le_trans h.1.2 hlatest⟩, h.2.anti hdb⟩
  | retry request pc caller =>
    cases pc with
    | setFailed _ => trivial
    | countFailed _ => exact LeavesPlace.anti h hdb
    | insertHalves => exact ⟨h.1.anti hdb, h.2⟩
  | _ => trivial

/-- A step that makes no plan, and is no part of `add_new_ranges`. -/
structure Calm (s t : Sys) : Prop where
  filledFrom : t.filledFrom = s.filledFrom
  latest : t.latest = s.latest
  plan : ∀ cfg db filledFrom latest, Plan cfg db filledFrom latest t.main

theorem Sys.RangesOk.calm (hr : s.RangesOk cfg) (hs : s.Ok cfg) (hcalm : Calm s t)
    (heffect : Effect cfg s.view requests t.view) (hfits : Fits cfg s.db s.filledFrom requests) :
    t.RangesOk cfg where
  apart := by
    rw [hcalm.filledFrom]
    exact RangesApart.effect (v := s.view) hr.apart hs.1 (Int.le_refl _) heffect hfits
  filled := by
    rw [hcalm.filledFrom, hcalm.latest]
    exact hr.filled
  plan := hcalm.plan _ _ _ _

theorem plan_onOk (caller : RetryCaller) (filledFrom latest : Nat) :
    Plan cfg db filledFrom latest caller.onOk := by
  cases caller <;> trivial

theorem fits_nil : Fits cfg db start [] := fits_of_not_range fun _ h => by cases h

theorem calm_initStep (pc : InitPc) : Calm s (initStep cfg s pc) := by
  cases pc <;> exact ⟨rfl, rfl, fun _ _ _ _ => trivial⟩

theorem calm_ongoingStep {pc : OngoingPc} (h : ongoingStep s pc answer = some t) : Calm s t := by
  unfold ongoingStep at h
  (repeat' split at h) <;> cases h <;> exact ⟨rfl, rfl, fun _ _ _ _ => trivial⟩

theorem calm_orphanStep {pc : OrphanPc} (h : orphanStep cfg s pc answer = some t) : Calm s t := by
  unfold orphanStep at h
  (repeat' split at h) <;> cases h <;> exact ⟨rfl, rfl, fun _ _ _ _ => trivial⟩

theorem calm_provingStep {pc : ProvingPc} (h : provingStep cfg s pc answer = some t) :
    Calm s t := by
  unfold provingStep processProofRequestStatus at h
  dsimp only at h
  (repeat' split at h) <;> cases h <;> exact ⟨rfl, rfl, fun _ _ _ _ => trivial⟩

theorem calm_aggStep {pc : AggPc} (h : aggStep cfg s pc answer = some t) : Calm s t := by
  unfold aggStep at h
  (repeat' split at h) <;> cases h <;> exact ⟨rfl, rfl, fun _ _ _ _ => trivial⟩

theorem calm_queueStep {pc : QueuePc} (h : queueStep cfg s pc answer = some t) : Calm s t := by
  unfold queueStep at h
  dsimp only at h
  (repeat' split at h) <;> cases h <;> exact ⟨rfl, rfl, fun _ _ _ _ => trivial⟩

theorem calm_submitStep {pc : SubmitPc} (h : submitStep cfg s pc answer = some t) : Calm s t := by
  unfold submitStep at h
  (repeat' split at h) <;> cases h <;> exact ⟨rfl, rfl, fun _ _ _ _ => trivial⟩

theorem addStep_ranges {pc : AddPc} (hr : s.RangesOk cfg) (hok : s.Ok cfg) (hs : s.main = .add pc)
    (h : addStep cfg s pc answer = some t) : t.RangesOk cfg := by
  have hnext := addStep_next hs h
  have hplan := hr.plan
  rw [hs] at hplan
  unfold addStep at h
  split at h
  · cases h
    exact ⟨hr.apart, hr.filled, hr.filled, Nat.le_refl _⟩
  · cases h
    exact ⟨hr.apart, hr.filled, trivial⟩
  · cases h
    exact ⟨hr.apart, hr.filled, hplan⟩
  · rename_i latestProposed finalizedBlock found
    obtain ⟨hperm, h⟩ := Option.ite_none_right_eq_some.mp h
    dsimp only at h
    split at h
    · cases h
    · cases h
      exact ⟨hr.apart, hr.filled, trivial⟩
    · rename_i ranges _ hranges
      cases h
      have hapart : RangesApart cfg s.db latestProposed :=
        RangesApart.effect (v := s.view) hr.apart hok.1 (Int.ofNat_le.mpr hplan.1) .none fits_nil
      exact ⟨hr.apart, hr.filled, hplan, fits_gaps cfg.mode hapart hperm hranges⟩
  · rename_i latestProposed rangesToProve
    cases h
    obtain ⟨⟨hle, hlatest⟩, hfits⟩ := hplan
    exact ⟨RangesApart.effect (v := s.view) hr.apart hok.1 (Int.ofNat_le.mpr hle)
      hnext.effect hfits, hlatest, trivial⟩
  · cases h

/-- The split of a request that starts before the block from which gaps were last filled,
at or after that block. -/
def splitsAcross (s : Sys) : Act → Bool
  | .call _ =>
    match s.main with
    | .retry request .insertHalves _ =>
      decide (request.startBlock < s.filledFrom) && decide (s.filledFrom ≤ midBlock request)
    | _ => false
  | _ => false

theorem retryStep_ranges {request : Request} {pc : RetryPc} {caller : RetryCaller}
    (hr : s.RangesOk cfg) (hok : s.Ok cfg) (hs : s.main = .retry request pc caller)
    (hacross : splitsAcross s (.call answer) = false) :
    (retryStep cfg s request caller pc).RangesOk cfg := by
  have heffect := (retryStep_next hs hok.2).effect
  have hplan := hr.plan
  have hassert := hok.2
  rw [hs] at hplan hassert
  cases pc with
  | setFailed unexecutable =>
    obtain ⟨howned, -, -⟩ := hassert
    obtain ⟨r, hrow, hsame, hstatus⟩ := howned.row
    refine ⟨RangesApart.effect (v := s.view) hr.apart hok.1 (Int.le_refl _) heffect fits_nil,
      hr.filled, leavesPlace_of_failed hr.apart (fun htype => ?_)
        (fun _ _ => heffect.active_of_nil hok.1) ?_⟩
    · refine ⟨r, hrow, hsame.inScope_iff.mpr howned.inScope, hsame.reqType.trans htype, ?_, ?_⟩
      · rcases hstatus with hstatus | hstatus
        · exact hstatus.isActive
        · rw [hstatus]
          rfl
      · rw [Request.blocks, Request.blocks, hsame.startBlock, hsame.endBlock]
    · obtain ⟨r', hr', -, hfailed⟩ := (updates_status s.db request.id .failed).row r hrow
      exact ⟨r', hr', hfailed⟩
  | countFailed unexecutable =>
    rw [retryStep]
    by_cases hsplits : splits cfg s.db request unexecutable
    · rw [if_pos hsplits]
      simp only [splits, Bool.and_eq_true, decide_eq_true_eq, beq_iff_eq] at hsplits
      exact ⟨hr.apart, hr.filled, hplan, hsplits.1.2, hsplits.1.1⟩
    · rw [if_neg hsplits]
      exact ⟨hr.apart, hr.filled, plan_onOk caller _ _⟩
  | insertHalves =>
    obtain ⟨hplace, htype, hlength⟩ := hplan
    simp only [splitsAcross, hs, Bool.and_eq_false_iff, decide_eq_false_iff_not] at hacross
    have hfits := fits_halves hplace htype hlength fun h => hacross.elim (· h.1) (· h.2)
    exact ⟨RangesApart.effect (v := s.view) hr.apart hok.1 (Int.le_refl _) heffect hfits, hr.filled,
      plan_onOk caller _ _⟩

theorem plan_of_atStart {main : MainPc} (h : main.AtStart) (filledFrom latest : Nat) :
    Plan cfg db filledFrom latest main := by
  unfold MainPc.AtStart at h
  split at h <;> trivial

/-- An aggregation request takes no place. -/
theorem fits_agg (pc : AggPc) : Fits cfg db start (MainPc.inserted cfg (.agg pc)) := by
  refine fits_of_not_range fun r hr => ?_
  cases pc with
  | insert _ _ _ _ =>
    rw [List.mem_singleton.mp hr]
    exact fun h => by cases h
  | _ => cases hr

theorem mainStep_ranges (hr : s.RangesOk cfg) (hok : s.Ok cfg)
    (hfresh : selectsFresh s (.call answer) = true)
    (hacross : splitsAcross s (.call answer) = false) (h : mainStep cfg s answer = some t) :
    t.RangesOk cfg := by
  have heffect := (mainStep_next hok hfresh h).effect
  unfold mainStep at h
  split at h <;> rename_i hmain <;> rw [hmain] at heffect
  · cases h
  · cases h
    exact hr.calm hok (calm_initStep _) heffect fits_nil
  · exact hr.calm hok (calm_ongoingStep h) heffect fits_nil
  · exact hr.calm hok (calm_orphanStep h) heffect fits_nil
  · exact hr.calm hok (calm_provingStep h) heffect fits_nil
  · cases h
    exact retryStep_ranges hr hok hmain hacross
  · exact addStep_ranges hr hok hmain h
  · exact hr.calm hok (calm_aggStep h) heffect (fits_agg _)
  · exact hr.calm hok (calm_queueStep h) heffect fits_nil
  · exact hr.calm hok (calm_submitStep h) heffect fits_nil

/-- **Every step** but a split across the filled block keeps the active ranges apart. -/
theorem step_ranges {act : Act} (hr : s.RangesOk cfg) (hok : s.Ok cfg)
    (hfresh : selectsFresh s act = true) (hacross : splitsAcross s act = false)
    (h : step cfg s act = some t) : t.RangesOk cfg := by
  have heffect := (step_next hok hfresh h).effect
  cases moves_of_step h with
  | advance hle =>
    exact ⟨hr.apart, Nat.le_trans hr.filled hle, hr.plan.anti hle fun _ _ hactive => hactive⟩
  | restart => exact ⟨hr.apart, hr.filled, trivial⟩
  | task htask hstep =>
    exact ⟨RangesApart.effect (v := s.view) hr.apart hok.1 (Int.le_refl _) heffect fits_nil,
      hr.filled, hr.plan.anti (Nat.le_refl _) fun _ _ => heffect.active_of_nil hok.1⟩
  | start f hmain =>
    exact hr.calm hok ⟨rfl, rfl, fun _ _ _ _ => plan_of_atStart (atStart_entry cfg f) _ _⟩ heffect
      fits_nil
  | fail hnext =>
    exact hr.calm hok ⟨rfl, rfl, fun _ _ _ _ => plan_of_atStart (atStart_onErr hnext) _ _⟩ heffect
      fits_nil
  | call hcall => exact mainStep_ranges hr hok hfresh hacross hcall

/-! ## Runs -/

/-- A step of fresh selections that splits no request across the block from which gaps
were last filled. -/
def rangeStep (cfg : Config) (s : Sys) (act : Act) : Option Sys :=
  if splitsAcross s act then none else freshStep cfg s act

/-- The request failed, and its halves are inserted in its place. -/
structure ReplacedByHalves (cfg : Config) (request : Request) (db db' : Db) : Prop where
  failed : ∃ r, db.rows request.id = some r ∧ SameRequest request r ∧ r.reqType = .range ∧
    r.status = .failed
  between : request.startBlock < midBlock request ∧ midBlock request < request.endBlock
  rows : ∀ i, db'.rows i = if i < db.nextId then db.rows i
    else (halves cfg request)[i - db.nextId]?.map fun r => { r with id := i }

variable {trace : List Act} {latest : Nat}

theorem rangeStep_ok {act : Act} (hs : s.Ok cfg ∧ s.RangesOk cfg)
    (h : stepOf (rangeStep cfg) s act t) : t.Ok cfg ∧ t.RangesOk cfg := by
  obtain ⟨hacross, h⟩ := Option.ite_none_left_eq_some.mp h
  obtain ⟨hfresh, hstep⟩ := Option.ite_none_right_eq_some.mp h
  exact ⟨freshStep_ok hs.1 h,
    step_ranges hs.2 hs.1 hfresh (Bool.eq_false_iff.mpr hacross) hstep⟩

theorem replacedByHalves {request : Request} {caller : RetryCaller} (hr : s.RangesOk cfg)
    (hok : s.Ok cfg) (hs : s.main = .retry request .insertHalves caller)
    (h : mainStep cfg s answer = some t) : ReplacedByHalves cfg request s.db t.db := by
  have hassert := hok.2
  have hplan := hr.plan
  rw [hs] at hassert hplan
  obtain ⟨r, hrow, hsame, hstatus⟩ := hassert.1.row
  rw [mainStep, hs] at h
  cases h
  exact ⟨⟨r, hrow, hsame, hsame.reqType.trans hplan.2.1, hstatus⟩, midBlock_between hplan.2.2,
    Db.rows_insertAll s.db _⟩

/-- **Active range requests share no block.**  In every run of such steps, from a
database in which they do not: those that start at or after the latest proposed block
are non-empty and share no block, and a request that is split is failed and replaced by
its two halves. -/
theorem active_ranges_apart (hdb : RangesApart cfg db latest)
    (hs : Run (stepOf (rangeStep cfg)) (Sys.start db latest) trace s) :
    RangesApart cfg s.db s.latest ∧
      ∀ request caller answer t, s.main = .retry request .insertHalves caller →
        mainStep cfg s answer = some t → ReplacedByHalves cfg request s.db t.db := by
  have hend : s.Ok cfg ∧ s.RangesOk cfg := by
    refine hs.invariant (I := fun u : Sys => u.Ok cfg ∧ u.RangesOk cfg)
      (fun _ _ _ => rangeStep_ok) ?_
    exact ⟨Sys.ok_start db latest, hdb, Nat.le_refl _, trivial⟩
  refine ⟨?_, fun request caller answer t hmain hstep => ?_⟩
  · exact RangesApart.effect (v := s.view) hend.2.apart hend.1.1 (Int.ofNat_le.mpr hend.2.filled)
      .none fits_nil
  · exact replacedByHalves hend.2 hend.1 hmain hstep

/-! ### A split across the latest proposed block

Request 1 is for the blocks 0 to 100 and with the prover when block 40 is proposed. -/

/-- The task of request 1 brings it to the prover. -/
def taskSucceeds : List Act :=
  [.task 0 .startWitnessGeneration, .task 0 .generateProofStdin, .task 0 (.prove 5)]

/-- Request 1, as it is read from then on. -/
def exampleProving : Request :=
  { exampleRequest with status := .prove, proofRequestId := some 5 }

/-- Tasks and orphans are looked after. -/
def tasksAreHandled (completed : List Nat) : List Act :=
  [.start .handleOngoingTasks, .call (.completed completed)] ++
  completed.map (fun _ => .call .ok) ++
    [.call .ok, .start .setOrphanedTasksToFailed, .call (.rows []), .call (.rows []), .call .ok]

/-- The rest of a turn in which block 40 is the latest proposed one: the range from 40 to
140 is added, which is request 2. -/
def rangeFrom40IsAdded : List Act :=
  [.start .handleProvingRequests, .call (.rows [exampleProving]),
    .call (.proofStatus ⟨0, 1, false, .requested, none⟩), .call .ok,
    .start .addNewRanges, .call .ok, .call (.finalizedBlock (some 200)), .call (.ranges []),
    .call .ok]

/-- The prover cannot execute request 1, which is split. -/
def request1IsSplit : List Act :=
  [.start .handleProvingRequests, .call (.rows [exampleProving]),
    .call (.proofStatus ⟨0, 1, true, .unfulfillable, none⟩), .call .ok, .call .ok, .call .ok]

/-- The steps up to the second turn, with block 40 proposed meanwhile. -/
def untilRangeFrom40 : List Act :=
  firstSelection ++ taskSucceeds ++ .advance 40 :: tasksAreHandled [1] ++ rangeFrom40IsAdded

def rangeFrom40Added : Sys := endOf (rangeStep exampleConfig) exampleStart untilRangeFrom40

theorem rangesApart_empty (cfg : Config) (start : Int) : RangesApart cfg .empty start where
  nonempty := by
    rintro id range ⟨r, hr, -⟩
    cases hr
  apart := by
    rintro id id' range range' ⟨r, hr, -⟩
    cases hr

/-- Until then the requests share no block from block 40 on. -/
theorem active_ranges_apart_example : RangesApart exampleConfig rangeFrom40Added.db 40 := by
  have hrun : Run (stepOf (rangeStep exampleConfig)) exampleStart untilRangeFrom40
      rangeFrom40Added := run_endOf (by decide +kernel)
  have hlatest : rangeFrom40Added.latest = 40 := by decide +kernel
  have hapart := (active_ranges_apart (rangesApart_empty exampleConfig 0) hrun).1
  rwa [hlatest] at hapart

def untilSplit : List Act :=
  untilRangeFrom40 ++
    [.start .createAggregationProofs, .call .ok, .call .ok, .call (.ranges []),
      .start .requestQueuedProofs, .call .ok, .call .ok, .call .ok, .call .ok, .call (.row none),
      .call (.row (some { newRangeRequest exampleConfig.scope .real 40 140 with id := 2 })),
      .call .ok, .call .ok,
      .start .submitAggProofs, .call .ok, .call (.row none)] ++
    tasksAreHandled [] ++ request1IsSplit

def request1Split : Sys := endOf (step exampleConfig) exampleStart untilSplit

/-- **The failing run.**  The second half of request 1 is request 4, for the blocks 50 to
100, all of which are in request 2 as well. -/
theorem halves_overlap :
    Run (stepOf (step exampleConfig)) exampleStart untilSplit request1Split ∧
      ¬ RangesApart exampleConfig request1Split.db request1Split.latest := by
  refine ⟨run_endOf (by decide +kernel), fun hranges => ?_⟩
  have hlatest : request1Split.latest = 40 := by decide +kernel
  have hrow2 : request1Split.db.rows 2 =
      some { newRangeRequest exampleConfig.scope .real 40 140 with id := 2 } := by decide +kernel
  have hrow4 : request1Split.db.rows 4 =
      some { newRangeRequest exampleConfig.scope .real 50 100 with id := 4 } := by decide +kernel
  have hapart := hranges.apart 2 4 (40, 140) (50, 100)
    ⟨_, hrow2, by decide, rfl, rfl, rfl⟩ ⟨_, hrow4, by decide, rfl, rfl, rfl⟩ (by decide)
    (by rw [hlatest]; decide) (by rw [hlatest]; decide)
  rcases hapart with h | h
  · exact absurd h (by decide)
  · exact absurd h (by decide)

end OpSuccinct.Validity
