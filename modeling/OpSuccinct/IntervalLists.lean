import Mathlib.Order.Lattice
import Mathlib.Data.List.Basic

/-! # Lists of half-open intervals

An interval is a pair of its ends, the second one excluded.  Two intervals are
apart when one ends before the other starts, so they may share an end.  Cutting
the intervals of a list whose intervals are pairwise apart into pieces that are
pairwise apart gives such a list again (`pairwise_apart_flatten`).
-/
namespace OpSuccinct.Intervals

variable {α : Type}

/-- The intervals have no point in common. -/
def Apart [LE α] (a b : α × α) : Prop := a.2 ≤ b.1 ∨ b.2 ≤ a.1

/-- The first interval lies inside the second. -/
def Within [LE α] (a b : α × α) : Prop := b.1 ≤ a.1 ∧ a.2 ≤ b.2

/-- A list of pieces of an interval, pairwise apart. -/
def Cuts [LE α] (x : α × α) (pieces : List (α × α)) : Prop :=
  pieces.Pairwise Apart ∧ ∀ p ∈ pieces, Within p x

variable [Preorder α] {a b c : α × α}

theorem Apart.symm (h : Apart a b) : Apart b a := Or.symm h

theorem Apart.of_within (h : Apart a b) (hc : Within c a) : Apart c b := by
  rcases h with h | h
  · exact .inl (le_trans hc.2 h)
  · exact .inr (le_trans h hc.1)

/-- Intervals in order, each ending before the next starts, are pairwise apart. -/
theorem pairwise_apart_of_ordered {xs : List (α × α)}
    (h : xs.Pairwise fun x y => x.2 ≤ y.1) : xs.Pairwise Apart :=
  h.imp .inl

/-- Every entry of the second of two related lists is related to one of the first. -/
theorem exists_of_forall₂ {β γ : Type} {P : β → γ → Prop} {us : List β} {vs : List γ}
    (h : List.Forall₂ P us vs) {v : γ} (hv : v ∈ vs) : ∃ u ∈ us, P u v := by
  induction h with
  | nil => cases hv
  | cons huv _ ih =>
    rcases List.mem_cons.mp hv with rfl | hv
    · exact ⟨_, List.mem_cons_self, huv⟩
    · obtain ⟨u, hu, hP⟩ := ih hv
      exact ⟨u, List.mem_cons_of_mem _ hu, hP⟩

/-- A map that can fail relates each entry to its result. -/
theorem forall₂_of_mapM {β γ : Type} {f : β → Option γ} {us : List β} {vs : List γ}
    (h : us.mapM f = some vs) : List.Forall₂ (fun u v => f u = some v) us vs := by
  induction us generalizing vs with
  | nil =>
    cases h
    exact .nil
  | cons u us ih =>
    simp only [List.mapM_cons, Option.bind_eq_bind, Option.bind_eq_some_iff, Option.pure_def,
      Option.some.injEq] at h
    obtain ⟨v, hv, vs, hvs, rfl⟩ := h
    exact .cons hv (ih hvs)

/-- A map that can fail returns when it does on every entry. -/
theorem mapM_isSome_iff {β γ : Type} {f : β → Option γ} {us : List β} :
    (∃ vs, us.mapM f = some vs) ↔ ∀ u ∈ us, ∃ v, f u = some v := by
  constructor
  · rintro ⟨vs, hvs⟩ u hu
    have h := forall₂_of_mapM hvs
    clear hvs
    induction h with
    | nil => cases hu
    | cons huv _ ih =>
      rcases List.mem_cons.mp hu with rfl | hu
      · exact ⟨_, huv⟩
      · exact ih hu
  · intro h
    induction us with
    | nil => exact ⟨[], rfl⟩
    | cons u us ih =>
      obtain ⟨v, hv⟩ := h u List.mem_cons_self
      obtain ⟨vs, hvs⟩ := ih fun u hu => h u (List.mem_cons_of_mem _ hu)
      exact ⟨v :: vs, by rw [List.mapM_cons, hv, hvs]; rfl⟩

/-- A piece lies in one of the intervals that were cut. -/
theorem exists_within_of_mem_flatten {xs : List (α × α)} {pieces : List (List (α × α))}
    (hpieces : List.Forall₂ Cuts xs pieces) {p : α × α} (hp : p ∈ pieces.flatten) :
    ∃ x ∈ xs, Within p x := by
  obtain ⟨ps, hps, hp⟩ := List.mem_flatten.mp hp
  obtain ⟨x, hx, hcuts⟩ := exists_of_forall₂ hpieces hps
  exact ⟨x, hx, hcuts.2 p hp⟩

/-- Pieces of intervals that are apart are apart. -/
theorem pairwise_apart_flatten {xs : List (α × α)} {pieces : List (List (α × α))}
    (hxs : xs.Pairwise Apart) (hpieces : List.Forall₂ Cuts xs pieces) :
    pieces.flatten.Pairwise Apart := by
  induction hpieces with
  | nil => exact List.Pairwise.nil
  | @cons x ps xs pieces hx hrest ih =>
    obtain ⟨hfirst, hxs⟩ := List.pairwise_cons.mp hxs
    rw [List.flatten_cons, List.pairwise_append]
    refine ⟨hx.1, ih hxs, fun p hp q hq => ?_⟩
    -- A later piece lies in a later interval.
    obtain ⟨y, hy, hwithin⟩ := exists_within_of_mem_flatten hrest hq
    have hpy : Apart p y := (hfirst y hy).of_within (hx.2 p hp)
    exact (hpy.symm.of_within hwithin).symm

/-! ## Intervals end to end -/

/-- Intervals that touch end to end from one point to another, none of them empty. -/
inductive Joined : α → α → List (α × α) → Prop
  | nil (lo : α) : Joined lo lo []
  | cons {lo mid hi : α} {pieces : List (α × α)} : lo < mid → Joined mid hi pieces →
      Joined lo hi ((lo, mid) :: pieces)

variable {lo mid hi : α} {xs ys : List (α × α)}

theorem Joined.append (h : Joined lo mid xs) (h' : Joined mid hi ys) :
    Joined lo hi (xs ++ ys) := by
  induction h with
  | nil => exact h'
  | cons hlt _ ih => exact .cons hlt (ih h')

theorem Joined.lt_of_mem (h : Joined lo hi xs) {p : α × α} (hp : p ∈ xs) : p.1 < p.2 := by
  induction h with
  | nil => cases hp
  | cons hlt _ ih =>
    rcases List.mem_cons.mp hp with rfl | hp
    · exact hlt
    · exact ih hp

theorem Joined.le (h : Joined lo hi xs) : lo ≤ hi := by
  induction h with
  | nil => exact le_refl _
  | cons hlt _ ih => exact le_trans (le_of_lt hlt) ih

theorem Joined.head (h : Joined lo hi xs) (hlt : lo < hi) :
    ∃ p, xs.head? = some p ∧ p.1 = lo := by
  cases h with
  | nil => exact absurd hlt (lt_irrefl lo)
  | cons _ _ => exact ⟨_, rfl, rfl⟩

theorem Joined.isChain (h : Joined lo hi xs) : xs.IsChain fun x y => x.2 = y.1 := by
  induction h with
  | nil => exact .nil
  | @cons lo mid hi pieces _ hrest ih =>
    cases hrest with
    | nil => exact .singleton _
    | cons _ _ => exact List.isChain_cons_cons.mpr ⟨rfl, ih⟩

/-- The last of the intervals ends where they end. -/
theorem Joined.getLast (h : Joined lo hi xs) (hlt : lo < hi) :
    ∃ p, xs.getLast? = some p ∧ p.2 = hi := by
  induction h with
  | nil => exact absurd hlt (lt_irrefl _)
  | @cons lo mid hi pieces _ hrest ih =>
    cases hrest with
    | nil => exact ⟨_, rfl, rfl⟩
    | cons hnext hrest =>
      obtain ⟨p, hlast, hend⟩ := ih (lt_of_lt_of_le hnext hrest.le)
      exact ⟨p, by rw [List.getLast?_cons_cons, hlast], hend⟩

/-- A point between the ends lies in one of the intervals, and no other point does. -/
theorem Joined.exists_holds_iff {β : Type} [LinearOrder β] {lo hi b : β} {xs : List (β × β)}
    (h : Joined lo hi xs) : (∃ p ∈ xs, p.1 ≤ b ∧ b < p.2) ↔ lo ≤ b ∧ b < hi := by
  induction h with
  | nil lo =>
    constructor
    · rintro ⟨p, hp, -⟩
      cases hp
    · rintro ⟨hle, hlt⟩
      exact absurd hlt (not_lt.mpr hle)
  | @cons lo mid hi pieces hlt hrest ih =>
    constructor
    · rintro ⟨p, hp, hholds⟩
      rcases List.mem_cons.mp hp with rfl | hp
      · exact ⟨hholds.1, lt_of_lt_of_le hholds.2 hrest.le⟩
      · obtain ⟨hmid, hhi⟩ := ih.mp ⟨p, hp, hholds⟩
        exact ⟨le_trans (le_of_lt hlt) hmid, hhi⟩
    · rintro ⟨hlo, hhi⟩
      rcases lt_or_ge b mid with hmid | hmid
      · exact ⟨(lo, mid), List.mem_cons_self, hlo, hmid⟩
      · obtain ⟨p, hp, hholds⟩ := ih.mpr ⟨hmid, hhi⟩
        exact ⟨p, List.mem_cons_of_mem _ hp, hholds⟩

end OpSuccinct.Intervals
