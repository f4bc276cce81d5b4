import Mathlib.Order.Bounds.Basic
import Mathlib.Order.Nat
import OpSuccinct.DataFetcher

/-! # Safe L1 head

The safe head database of an L2 node records an L1 block when the safe head moves, and
answers about any later block with the latest record (`SafeDb.latest`).
`get_safe_l1_block_for_l2_block` looks for the first L1 block, from the L1 origin on, at
which an L2 block is safe, and reports the block the answer names, which is that block
(`Records.l1Block_eq`).

The search goes down to `mid - 1`, so it panics when the L2 block is safe at L1 block 0, its
origin; above, sums overflow only at the end of the `u64`s.  Everywhere else the first
block is found, and the host for Ethereum DA chooses a finalized block at which the L2
block is still safe (`safe_l1_head_iff`).
-/
namespace OpSuccinct.Fetcher

open Bisection

/-! ## The safe head database -/

/-- The recorded L1 blocks, with their hashes and the safe heads at them. -/
abbrev SafeDb := Nat → Option (Bytes32 × Nat)

/-- The latest record at or below an L1 block. -/
def SafeDb.latest (db : SafeDb) : Nat → Option SafeHeadResponse
  | 0 => (db 0).map fun record => ⟨(record.1, 0), record.2⟩
  | n + 1 =>
    match db (n + 1) with
    | some record => some ⟨(record.1, n + 1), record.2⟩
    | none => db.latest n

/-- The L2 block is safe at the L1 block. -/
def SafeDb.Safe (db : SafeDb) (l2EndBlock n : Nat) : Prop :=
  ∃ r, db.latest n = some r ∧ l2EndBlock ≤ r.safeHead

variable {db : SafeDb} {fetcher later : DataFetcher} {chain : Nat → Block}
  {l2EndBlock l1Origin top topLater n : Nat} {r : SafeHeadResponse} {fallback : Bool}

/-- An answer is the one about the block it names. -/
theorem SafeDb.latest_l1Block (h : db.latest n = some r) :
    r.l1Block.2 ≤ n ∧ db.latest r.l1Block.2 = some r := by
  induction n with
  | zero =>
    obtain ⟨record, hrecord, rfl⟩ := Option.map_eq_some_iff.mp h
    exact ⟨Nat.le_refl 0, h⟩
  | succ n ih =>
    have hanswer := h
    rw [SafeDb.latest] at h
    split at h
    · obtain rfl := Option.some.inj h
      exact ⟨Nat.le_refl _, hanswer⟩
    · obtain ⟨hle, hsame⟩ := ih h
      exact ⟨Nat.le_succ_of_le hle, hsame⟩

/-- **What the L2 node answers**: the L1 origin of the L2 block, and from there on the
latest record.  Safe heads do not decrease, and no L1 block before its origin makes the L2
block safe. -/
structure Records (fetcher : DataFetcher) (db : SafeDb) (l2EndBlock l1Origin : Nat) : Prop where
  origin : fetcher.l1OriginAtBlock l2EndBlock = .ok l1Origin
  answers : ∀ n, l1Origin ≤ n → ∃ r, db.latest n = some r ∧ fetcher.safeHeadAtL1Block n = .ok r
  grows : ∀ m n r r', m ≤ n → db.latest m = some r → db.latest n = some r' →
    r.safeHead ≤ r'.safeHead
  before : ∀ n r, n < l1Origin → db.latest n = some r → r.safeHead < l2EndBlock

/-- From the origin on, a safe L2 block stays safe. -/
theorem Records.safe_mono (h : Records fetcher db l2EndBlock l1Origin) {m n : Nat}
    (hm : l1Origin ≤ m) (hmn : m ≤ n) (hsafe : db.Safe l2EndBlock m) : db.Safe l2EndBlock n := by
  obtain ⟨r, hr, hle⟩ := hsafe
  obtain ⟨r', hr', -⟩ := h.answers n (Nat.le_trans hm hmn)
  exact ⟨r', hr', Nat.le_trans hle (h.grows m n r r' hmn hr hr')⟩

theorem Records.upward (h : Records fetcher db l2EndBlock l1Origin) (top : Nat) :
    Upward (db.Safe l2EndBlock) l1Origin top :=
  fun _ _ hm hmn _ hsafe => h.safe_mono hm hmn hsafe

/-- **The first block is recorded itself**: its answer does not name an earlier one, at
which the L2 block was safe already. -/
theorem Records.l1Block_eq (h : Records fetcher db l2EndBlock l1Origin)
    (hleast : IsLeast {m | l1Origin ≤ m ∧ m ≤ top ∧ db.Safe l2EndBlock m} n)
    (hr : db.latest n = some r) : r.l1Block.2 = n := by
  obtain ⟨⟨hn, htop, r', hr', hsafe⟩, hfirst⟩ := hleast
  obtain rfl : r' = r := Option.some.inj (hr'.symm.trans hr)
  obtain ⟨hle, hsame⟩ := SafeDb.latest_l1Block hr
  by_cases horigin : l1Origin ≤ r'.l1Block.2
  · exact Nat.le_antisymm hle (hfirst ⟨horigin, Nat.le_trans hle htop, r', hsame, hsafe⟩)
  · have hbelow := h.before _ r' (Nat.not_le.mp horigin) hsame
    omega

/-! ## Probes -/

theorem Records.probe_lower (h : Records fetcher db l2EndBlock l1Origin) {mid : Nat}
    (hmid : l1Origin ≤ mid) (hsafe : db.Safe l2EndBlock mid) (acc : Option (Bytes32 × Nat)) :
    (safeHeadSearch fetcher l2EndBlock).probe mid acc =
      .ok (.lower ((db.latest mid).map SafeHeadResponse.l1Block)) := by
  obtain ⟨r, hr, hanswer⟩ := h.answers mid hmid
  obtain ⟨r', hr', hle⟩ := hsafe
  obtain rfl : r' = r := Option.some.inj (hr'.symm.trans hr)
  simp only [safeHeadSearch, hanswer, hr, bind, Except.bind, if_pos hle]
  rfl

theorem Records.probe_higher (h : Records fetcher db l2EndBlock l1Origin) {mid : Nat}
    (hmid : l1Origin ≤ mid) (hsafe : ¬ db.Safe l2EndBlock mid) (acc : Option (Bytes32 × Nat)) :
    (safeHeadSearch fetcher l2EndBlock).probe mid acc = .ok (.higher acc) := by
  obtain ⟨r, hr, hanswer⟩ := h.answers mid hmid
  have hlt : ¬ l2EndBlock ≤ r.safeHead := fun hle => hsafe ⟨r, hr, hle⟩
  simp only [safeHeadSearch, hanswer, bind, Except.bind, if_neg hlt]
  rfl

/-- What the search has kept: the block that the answer about the last safe probe names. -/
def kept (db : SafeDb) (top past : Nat) : Option (Bytes32 × Nat) :=
  if past ≤ top then (db.latest past).map SafeHeadResponse.l1Block else none

/-! ## The search -/

/-- **The first safe L1 block** is returned, or an error if there is none. -/
structure SafeL1BlockFound (db : SafeDb) (l2EndBlock l1Origin top : Nat)
    (result : Except FetchError (Bytes32 × Nat)) : Prop where
  least : ∀ n, IsLeast {m | l1Origin ≤ m ∧ m ≤ top ∧ db.Safe l2EndBlock m} n →
    ∃ r, db.latest n = some r ∧ r.l1Block.2 = n ∧ result = .ok r.l1Block
  none : (∀ m, l1Origin ≤ m → m ≤ top → ¬ db.Safe l2EndBlock m) →
    result = .error .noSafeL1Block

/-- The search stays inside the `u64`s. -/
structure StaysInside (db : SafeDb) (l2EndBlock l1Origin top : Nat) : Prop where
  low : l1Origin = 0 → ¬ db.Safe l2EndBlock 0
  high : top + 1 = 2 ^ 64 → l1Origin ≤ top → db.Safe l2EndBlock top

/-- One probe keeps the first safe block between the bounds. -/
theorem Records.probe (h : Records fetcher db l2EndBlock l1Origin)
    (hinside : StaysInside db l2EndBlock l1Origin top) (htop : top < 2 ^ 64) {low high : Nat}
    (hle : low ≤ high)
    (hbracket : Bracket (db.Safe l2EndBlock) l1Origin top low (high + 1)) :
    ∃ v, (safeHeadSearch fetcher l2EndBlock).probe (middle low high) (kept db top (high + 1)) =
        .ok v ∧
      (safeHeadSearch fetcher l2EndBlock).Leaves (fun low past acc =>
        Bracket (db.Safe l2EndBlock) l1Origin top low past ∧ acc = kept db top past)
        (fun _ => True) low high v := by
  obtain ⟨hmid, hmid'⟩ := hbracket.middle_mem hle
  have hup := h.upward top
  by_cases hsafe : db.Safe l2EndBlock (middle low high)
  · refine ⟨_, h.probe_lower hmid hsafe _, ?_, hbracket.lower hup hle hsafe, ?_⟩
    · intro hzero
      rw [hzero] at hmid hsafe
      exact hinside.low (Nat.le_zero.mp hmid) hsafe
    · rw [kept, if_pos hmid']
  · refine ⟨_, h.probe_higher hmid hsafe _, ?_, hbracket.higher hup hle hsafe, rfl⟩
    show middle low high + 1 < 2 ^ 64
    by_contra hover
    obtain heq : middle low high = top := by omega
    rw [heq] at hsafe hmid
    exact hsafe (hinside.high (by omega) hmid)

/-- What the search ends with is what is returned. -/
theorem getSafeL1BlockForL2Block_of_error (hserves : Serves fetcher.l1Provider chain top)
    (h : Records fetcher db l2EndBlock l1Origin) {e : FetchError}
    (hrun : (safeHeadSearch fetcher l2EndBlock).run l1Origin top none = .error e) :
    getSafeL1BlockForL2Block fetcher l2EndBlock = .error e := by
  simp only [getSafeL1BlockForL2Block, hserves.getHeader_finalized, h.origin, hserves.number, hrun,
    bind, Except.bind]

theorem getSafeL1BlockForL2Block_of_kept (hserves : Serves fetcher.l1Provider chain top)
    (h : Records fetcher db l2EndBlock l1Origin) {low : Nat} {found : Bytes32 × Nat}
    (hrun : (safeHeadSearch fetcher l2EndBlock).run l1Origin top none =
      .ok (.crossed low (some found))) :
    getSafeL1BlockForL2Block fetcher l2EndBlock = .ok found := by
  simp only [getSafeL1BlockForL2Block, hserves.getHeader_finalized, h.origin, hserves.number, hrun,
    bind, Except.bind]
  rfl

theorem getSafeL1BlockForL2Block_of_none (hserves : Serves fetcher.l1Provider chain top)
    (h : Records fetcher db l2EndBlock l1Origin) {low : Nat}
    (hrun : (safeHeadSearch fetcher l2EndBlock).run l1Origin top none = .ok (.crossed low none)) :
    getSafeL1BlockForL2Block fetcher l2EndBlock = .error .noSafeL1Block := by
  simp only [getSafeL1BlockForL2Block, hserves.getHeader_finalized, h.origin, hserves.number, hrun,
    bind, Except.bind]
  rfl

/-- **The search finds the first safe block**, as long as it stays inside. -/
theorem safeL1Block_found (hserves : Serves fetcher.l1Provider chain top) (htop : top < 2 ^ 64)
    (h : Records fetcher db l2EndBlock l1Origin)
    (hinside : StaysInside db l2EndBlock l1Origin top) :
    SafeL1BlockFound db l2EndBlock l1Origin top
      (getSafeL1BlockForL2Block fetcher l2EndBlock) := by
  by_cases hempty : top < l1Origin
  · rw [getSafeL1BlockForL2Block_of_none hserves h (Search.run_of_lt hempty)]
    exact ⟨fun n hn => absurd (Nat.le_trans hn.1.1 hn.1.2.1) (Nat.not_le.mpr hempty), fun _ => rfl⟩
  obtain ⟨o, hrun, hmeets⟩ := Search.run_spec (fun low past acc =>
    Bracket (db.Safe l2EndBlock) l1Origin top low past ∧ acc = kept db top past) (fun _ => True)
    (fun low high acc hle hinv => by
      obtain ⟨hbracket, rfl⟩ := hinv
      exact ⟨rfl, h.probe hinside htop hle hbracket⟩)
    (by omega) ⟨.start (by omega), (if_neg (Nat.not_succ_le_self top)).symm⟩
  cases o with
  | stopped r => cases r
  | crossed n acc =>
    obtain ⟨hbracket, rfl⟩ := hmeets
    by_cases hn : n ≤ top
    · have hleast := hbracket.isLeast hn
      obtain ⟨r, hr, -⟩ := h.answers n hbracket.first_le
      have hkept : kept db top n = some r.l1Block := by rw [kept, if_pos hn, hr]; rfl
      rw [hkept] at hrun
      rw [getSafeL1BlockForL2Block_of_kept hserves h hrun]
      refine ⟨fun m hm => ?_, fun hnone => ?_⟩
      · obtain rfl := hm.unique hleast
        exact ⟨r, hr, h.l1Block_eq hleast hr, rfl⟩
      · exact absurd hleast.1.2.2 (hnone n hleast.1.1 hn)
    · have hkept : kept db top n = none := if_neg hn
      rw [hkept] at hrun
      rw [getSafeL1BlockForL2Block_of_none hserves h hrun]
      refine ⟨fun m hm => ?_, fun _ => rfl⟩
      have hle := (hbracket.holds_iff hm.1.1 hm.1.2.1).mp hm.1.2.2
      exact absurd (Nat.le_trans hle hm.1.2.1) hn

/-- A search that leaves the `u64`s panics. -/
theorem safeL1Block_arithmetic (hserves : Serves fetcher.l1Provider chain top)
    (h : Records fetcher db l2EndBlock l1Origin)
    (houtside : ¬ StaysInside db l2EndBlock l1Origin top) :
    getSafeL1BlockForL2Block fetcher l2EndBlock = .error .arithmetic := by
  by_cases hlow : l1Origin = 0 → ¬ db.Safe l2EndBlock 0
  · by_cases hhigh : top + 1 = 2 ^ 64 → l1Origin ≤ top → db.Safe l2EndBlock top
    · exact absurd ⟨hlow, hhigh⟩ houtside
    · push Not at hhigh
      obtain ⟨hlimit, hle, hunsafe⟩ := hhigh
      refine getSafeL1BlockForL2Block_of_error hserves h
        (Search.run_overflow hle (Nat.le_of_eq hlimit.symm) fun m hm hm' acc => ⟨acc, ?_⟩)
      exact h.probe_higher hm (fun hsafe => hunsafe (h.safe_mono hm hm' hsafe)) acc
  · push Not at hlow
    obtain ⟨rfl, hsafe⟩ := hlow
    refine getSafeL1BlockForL2Block_of_error hserves h
      (Search.run_underflow fun m _ acc => ⟨_, h.probe_lower (Nat.zero_le m) ?_ acc⟩)
    exact h.safe_mono (Nat.le_refl 0) (Nat.zero_le m) hsafe

/-! ## The chosen block -/

/-- **The block chosen for Ethereum DA**, if there is a safe one: finalized, and safe
itself. -/
def HeadChosen (db : SafeDb) (chain : Nat → Block) (l2EndBlock l1Origin top topLater : Nat)
    (result : Except FetchError Bytes32) : Prop :=
  ∀ m, l1Origin ≤ m → m ≤ top → db.Safe l2EndBlock m →
    ∃ n, result = .ok (chain n).hash ∧ n ≤ topLater ∧ db.Safe l2EndBlock n

/-- **What no sum overflows for**: the L2 block is not safe at L1 block 0 already, it is
safe at the finalized block if that is the last `u64`, and if it is safe at all, it is so
20 blocks before the last `u64`. -/
structure SumsFit (db : SafeDb) (l2EndBlock l1Origin top : Nat) : Prop where
  inside : StaysInside db l2EndBlock l1Origin top
  offset : ∀ m, l1Origin ≤ m → m ≤ top → db.Safe l2EndBlock m →
    ∃ m', l1Origin ≤ m' ∧ m' ≤ top ∧ db.Safe l2EndBlock m' ∧ m' + 20 < 2 ^ 64

theorem exists_isLeast_safe {m : Nat} (hm : l1Origin ≤ m) (htop : m ≤ top)
    (hsafe : db.Safe l2EndBlock m) :
    ∃ n, IsLeast {m | l1Origin ≤ m ∧ m ≤ top ∧ db.Safe l2EndBlock m} n := by
  classical
  exact ⟨_, Nat.isLeast_find ⟨m, hm, htop, hsafe⟩⟩

theorem getL1Head_of_ok (hloaded : fetcher.rollupConfigLoaded = true) {found : Bytes32 × Nat}
    (hsearch : getSafeL1BlockForL2Block fetcher l2EndBlock = .ok found) :
    getL1Head fetcher l2EndBlock fallback = .ok found := by
  simp only [getL1Head, require, if_pos hloaded, hsearch, bind, Except.bind]
  rfl

/-- The host chooses the block 20 after the one that was found, or the finalized one. -/
theorem calculateSafeL1Head_of_ok (hloaded : fetcher.rollupConfigLoaded = true)
    (hlater : Serves later.l1Provider chain topLater) {hash : Bytes32}
    (hsearch : getSafeL1BlockForL2Block fetcher l2EndBlock = .ok (hash, n)) :
    calculateSafeL1Head fetcher later l2EndBlock fallback =
      if n + 20 < 2 ^ 64 then .ok (chain (min (n + 20) topLater)).hash else .error .arithmetic := by
  have hhead : getL1Head fetcher l2EndBlock fallback = .ok (hash, n) :=
    getL1Head_of_ok hloaded hsearch
  by_cases hfits : n + 20 < 2 ^ 64
  · have hsum : checkedAdd 64 FetchError.arithmetic n 20 = .ok (n + 20) :=
      checkedAdd_ok_iff.mpr ⟨hfits, rfl⟩
    simp only [calculateSafeL1Head, hhead, hsum, hlater.getHeader_finalized, hlater.number,
      hlater.getHeader_number (Nat.min_le_right (n + 20) topLater), bind, Except.bind, if_pos hfits]
    rfl
  · have hsum : checkedAdd 64 FetchError.arithmetic n 20 = .error .arithmetic :=
      checkedAdd_error_iff.mpr ⟨Nat.not_lt.mp hfits, rfl⟩
    simp only [calculateSafeL1Head, hhead, hsum, bind, Except.bind, if_neg hfits]

/-- **Safe L1 head.**  For every L2 node that keeps such records, every L1 origin and every
finalized L1 block: the first safe L1 block is found, or an error is returned if there is
none, and the block chosen from it is finalized and safe, exactly if the sums fit. -/
theorem safe_l1_head_iff (hserves : Serves fetcher.l1Provider chain top) (htop : top < 2 ^ 64)
    (hlater : Serves later.l1Provider chain topLater) (hle : top ≤ topLater)
    (hloaded : fetcher.rollupConfigLoaded = true)
    (h : Records fetcher db l2EndBlock l1Origin) (fallback : Bool) :
    SafeL1BlockFound db l2EndBlock l1Origin top (getSafeL1BlockForL2Block fetcher l2EndBlock) ∧
        HeadChosen db chain l2EndBlock l1Origin top topLater
          (calculateSafeL1Head fetcher later l2EndBlock fallback) ↔
      SumsFit db l2EndBlock l1Origin top := by
  by_cases hinside : StaysInside db l2EndBlock l1Origin top
  · have hfound := safeL1Block_found hserves htop h hinside
    constructor
    · rintro ⟨-, hchosen⟩
      refine ⟨hinside, fun m hm hm' hsafe => ?_⟩
      obtain ⟨n, hleast⟩ := exists_isLeast_safe hm hm' hsafe
      obtain ⟨r, -, heq, hsearch⟩ := hfound.least n hleast
      obtain ⟨chosen, hchosen, -⟩ := hchosen m hm hm' hsafe
      refine ⟨n, hleast.1.1, hleast.1.2.1, hleast.1.2.2, ?_⟩
      by_contra hover
      rw [calculateSafeL1Head_of_ok hloaded hlater hsearch, heq, if_neg hover] at hchosen
      cases hchosen
    · rintro ⟨-, hoffset⟩
      refine ⟨hfound, fun m hm hm' hsafe => ?_⟩
      obtain ⟨n, hleast⟩ := exists_isLeast_safe hm hm' hsafe
      obtain ⟨r, -, heq, hsearch⟩ := hfound.least n hleast
      obtain ⟨m', hfrom, hto, hsafe', hsum⟩ := hoffset m hm hm' hsafe
      have hfirst : n ≤ m' := hleast.2 ⟨hfrom, hto, hsafe'⟩
      have htopn : n ≤ top := hleast.1.2.1
      have hfits : n + 20 < 2 ^ 64 := by omega
      refine ⟨min (n + 20) topLater, ?_, Nat.min_le_right _ _,
        h.safe_mono hleast.1.1 (by omega) hleast.1.2.2⟩
      rw [calculateSafeL1Head_of_ok hloaded hlater hsearch, heq, if_pos hfits]
  · -- The search panics, which is neither a block nor an error that it returns.
    have hpanic := safeL1Block_arithmetic hserves h hinside
    refine iff_of_false ?_ fun hfits => hinside hfits.inside
    rintro ⟨hfound, -⟩
    rw [hpanic] at hfound
    by_cases hsome : ∃ m, l1Origin ≤ m ∧ m ≤ top ∧ db.Safe l2EndBlock m
    · obtain ⟨m, hm, hm', hsafe⟩ := hsome
      obtain ⟨n, hleast⟩ := exists_isLeast_safe hm hm' hsafe
      obtain ⟨r, -, -, hsearch⟩ := hfound.least n hleast
      cases hsearch
    · cases hfound.none fun m hm hm' hsafe => hsome ⟨m, hm, hm', hsafe⟩

/-! ### A network that starts with L1 block 0

The L2 genesis block is safe at L1 block 0, and L2 block 10 from L1 block 5 on; the L1
chain is finalized up to block 9. -/

def exampleL1 (n : Nat) : Block := ⟨n, BitVec.ofNat 256 n, 12 * n⟩

def exampleDb : SafeDb := fun n =>
  if n = 0 then some ((exampleL1 0).hash, 0)
  else if n = 5 then some ((exampleL1 5).hash, 10)
  else none

def exampleFetcher : DataFetcher where
  l1Provider
    | .finalized => .ok (some (exampleL1 9))
    | .number n => .ok (if n ≤ 9 then some (exampleL1 n) else none)
  l2Provider _ := .ok none
  l1OriginAtBlock n := .ok (n / 6)
  safeHeadAtL1Block n :=
    match exampleDb.latest n with
    | some r => .ok r
    | none => .error .transport
  rollupConfigLoaded := true

theorem exampleFetcher_serves : Serves exampleFetcher.l1Provider exampleL1 9 where
  finalized := rfl
  block n hn := by
    show Except.ok (if n ≤ 9 then some (exampleL1 n) else none) = _
    rw [if_pos hn]
  number _ := rfl

theorem exampleDb_latest (n : Nat) : exampleDb.latest n =
    some (if n < 5 then ⟨((exampleL1 0).hash, 0), 0⟩ else ⟨((exampleL1 5).hash, 5), 10⟩) := by
  induction n with
  | zero => rfl
  | succ n ih =>
    by_cases hn : n + 1 = 5
    · obtain rfl : n = 4 := by omega
      rfl
    · have hnone : exampleDb (n + 1) = none := by simp [exampleDb, hn]
      have hside : n < 5 ↔ n + 1 < 5 := by omega
      rw [SafeDb.latest, hnone]
      simp only [ih, hside]

theorem exampleDb_records {l2EndBlock l1Origin : Nat} (horigin : l2EndBlock / 6 = l1Origin)
    (hbefore : ∀ n < l1Origin, (if n < 5 then 0 else 10) < l2EndBlock) :
    Records exampleFetcher exampleDb l2EndBlock l1Origin where
  origin := congrArg Except.ok horigin
  answers n _ := ⟨_, exampleDb_latest n, by simp only [exampleFetcher, exampleDb_latest]⟩
  grows := by
    intro m n r r' hmn hr hr'
    rw [exampleDb_latest] at hr hr'
    obtain rfl := Option.some.inj hr
    obtain rfl := Option.some.inj hr'
    by_cases hm : m < 5
    · rw [if_pos hm]
      exact Nat.zero_le _
    · rw [if_neg hm, if_neg fun hn => hm (Nat.lt_of_le_of_lt hmn hn)]
  before := by
    intro n r hn hr
    rw [exampleDb_latest] at hr
    obtain rfl := Option.some.inj hr
    have hlt := hbefore n hn
    split <;> simp_all

theorem exampleDb_safe {l2EndBlock n : Nat} :
    exampleDb.Safe l2EndBlock n ↔ l2EndBlock ≤ if n < 5 then 0 else 10 := by
  simp only [SafeDb.Safe, exampleDb_latest, Option.some.injEq, exists_eq_left']
  split <;> rfl

theorem safe_l1_head_example :
    SafeL1BlockFound exampleDb 10 1 9 (getSafeL1BlockForL2Block exampleFetcher 10) ∧
      HeadChosen exampleDb exampleL1 10 1 9 9
        (calculateSafeL1Head exampleFetcher exampleFetcher 10 false) := by
  refine (safe_l1_head_iff exampleFetcher_serves (by decide) exampleFetcher_serves (Nat.le_refl 9)
    rfl (exampleDb_records rfl (by decide)) false).mpr
      ⟨⟨fun h => absurd h (by decide), fun h => absurd h (by decide)⟩, ?_⟩
  intro m _ _ _
  exact ⟨5, by decide, by decide, exampleDb_safe.mpr (by decide), by decide⟩

/-- **The failing input.**  The L2 genesis block, whose L1 origin is block 0. -/
theorem safe_at_first_l1_block :
    Records exampleFetcher exampleDb 0 0 ∧
      ¬ SafeL1BlockFound exampleDb 0 0 9 (getSafeL1BlockForL2Block exampleFetcher 0) := by
  have hrecords : Records exampleFetcher exampleDb 0 0 :=
    exampleDb_records rfl fun n hn => absurd hn (Nat.not_lt_zero n)
  have hsafe (n : Nat) : exampleDb.Safe 0 n := exampleDb_safe.mpr (Nat.zero_le _)
  refine ⟨hrecords, fun hfound => ?_⟩
  rw [safeL1Block_arithmetic exampleFetcher_serves hrecords fun h => h.low rfl (hsafe 0)] at hfound
  obtain ⟨r, -, -, hsearch⟩ :=
    hfound.least 0 ⟨⟨Nat.le_refl 0, by decide, hsafe 0⟩, fun n _ => Nat.zero_le n⟩
  cases hsearch

end OpSuccinct.Fetcher
