import EvalEngine.RoundedSums
import Mathlib.Algebra.BigOperators.Group.List.Basic
import Mathlib.Algebra.Field.Basic
import Mathlib.Algebra.Ring.Nat
import Mathlib.Data.List.Dedup
import Mathlib.Data.List.ProdSigma
import Mathlib.Data.List.ReduceOption
import Mathlib.Data.Nat.Cast.Basic
import Mathlib.Order.Lattice

namespace EvalEngine.Joins

open EvalEngine.RoundedSums

variable {α β ι κ ν τ K : Type*}

section Joins

/-- The matches of a row, or the NULL row that stands for none. -/
def padded : List β → List (Option β)
  | [] => [none]
  | y :: ys => (y :: ys).map some

/-- LEFT JOIN. -/
def leftJoin (on : α → β → Bool) (xs : List α) (ys : List β) : List (α × Option β) :=
  xs.flatMap fun x => (padded (ys.filter (on x))).map (Prod.mk x)

theorem padded_ne_nil (ys : List β) : padded ys ≠ [] := by
  cases ys with
  | nil => exact List.cons_ne_nil _ _
  | cons y ys => exact List.cons_ne_nil _ _

/-- NULL rows have no values. -/
theorem reduceOption_padded (f : β → Option ν) (ys : List β) :
    ((padded ys).map (·.bind f)).reduceOption = (ys.map f).reduceOption := by
  cases ys with
  | nil => rfl
  | cons y ys => rw [padded, List.map_map]; rfl

theorem leftJoin_cons (on : α → β → Bool) (x : α) (xs : List α) (ys : List β) :
    leftJoin on (x :: xs) ys =
      (padded (ys.filter (on x))).map (Prod.mk x) ++ leftJoin on xs ys :=
  List.flatMap_cons

/-- A condition on the left rows can be applied before the join. -/
theorem filter_leftJoin (on : α → β → Bool) (xs : List α) (ys : List β) (q : α → Bool) :
    (leftJoin on xs ys).filter (fun p => q p.1) = leftJoin on (xs.filter q) ys := by
  have hrow : ∀ x (zs : List (Option β)),
      (zs.map (Prod.mk x)).filter (fun p => q p.1) = if q x then zs.map (Prod.mk x) else [] := by
    intro x zs
    induction zs with
    | nil => exact (ite_self _).symm
    | cons z zs ih =>
      rw [List.map_cons, List.filter_cons, ih]
      split <;> rfl
  induction xs with
  | nil => rfl
  | cons x xs ih =>
    rw [leftJoin_cons, List.filter_append, ih, hrow]
    cases hq : q x with
    | true => rw [if_pos rfl, List.filter_cons_of_pos hq, leftJoin_cons]
    | false =>
      rw [if_neg Bool.false_ne_true, List.filter_cons_of_neg (Bool.eq_false_iff.1 hq),
        List.nil_append]

/-- Joined to one row independently of each other, two tables multiply. -/
theorem leftJoin_leftJoin_singleton (on : α → β → Bool) (on' : α → ι → Bool) (x : α) (ys : List β)
    (zs : List ι) :
    leftJoin (fun p => on' p.1) (leftJoin on [x] ys) zs =
      (padded (ys.filter (on x)) ×ˢ padded (zs.filter (on' x))).map fun p => ((x, p.1), p.2) := by
  have hone : leftJoin on [x] ys = (padded (ys.filter (on x))).map (Prod.mk x) :=
    List.flatMap_singleton _ _
  have hproduct : ∀ (us : List (Option β)) (vs : List (Option ι)),
      ((us.map (Prod.mk x)).flatMap fun p => vs.map (Prod.mk p)) =
        (us ×ˢ vs).map fun p => ((x, p.1), p.2) := by
    intro us vs
    induction us with
    | nil => rfl
    | cons u us ih =>
      rw [List.map_cons, List.flatMap_cons, ih, List.product_cons, List.map_append, List.map_map]
      rfl
  rw [hone, leftJoin, ← hproduct, List.flatMap_map, List.flatMap_map]

end Joins

section Groups

variable [DecidableEq κ] (key : α → κ)

/-- One row of every group. -/
def representatives : List α → List α
  | [] => []
  | x :: xs => if key x ∈ xs.map key then representatives xs else x :: representatives xs

/-- GROUP BY: every group with one of its rows, which tells what they share. -/
def groupBy (rows : List α) : List (α × List α) :=
  (representatives key rows).map fun x => (x, rows.filter fun y => decide (key y = key x))

variable {key}

theorem mem_of_mem_representatives {x : α} {rows : List α} (h : x ∈ representatives key rows) :
    x ∈ rows := by
  induction rows with
  | nil => exact h
  | cons y rows ih =>
    rw [representatives] at h
    split at h
    · exact List.mem_cons_of_mem y (ih h)
    · cases List.mem_cons.1 h with
      | inl heq => exact heq ▸ List.mem_cons_self
      | inr hrest => exact List.mem_cons_of_mem y (ih hrest)

theorem filter_representatives {k : κ} {rows : List α} (h : k ∈ rows.map key) :
    ∃ x, (representatives key rows).filter (fun y => decide (key y = k)) = [x] := by
  induction rows with
  | nil => cases h
  | cons y rows ih =>
    rw [representatives]
    by_cases hk : key y = k
    · by_cases hlater : key y ∈ rows.map key
      · rw [if_pos hlater]
        exact ih (hk ▸ hlater)
      · rw [if_neg hlater]
        have hnone : (representatives key rows).filter (fun y => decide (key y = k)) = [] := by
          apply List.filter_eq_nil_iff.2
          intro z hz hkz
          apply hlater
          rw [hk, ← of_decide_eq_true hkz]
          exact List.mem_map_of_mem (mem_of_mem_representatives hz)
        refine ⟨y, ?_⟩
        rw [List.filter_cons, if_pos (decide_eq_true hk), hnone]
    · have hrest : k ∈ rows.map key := (List.mem_cons.1 h).resolve_left (Ne.symm hk)
      obtain ⟨x, hx⟩ := ih hrest
      refine ⟨x, ?_⟩
      split
      · exact hx
      · rw [List.filter_cons, if_neg (mt of_decide_eq_true hk)]
        exact hx

/-- The rows of one key form one group. -/
theorem filter_groupBy {k : κ} {rows : List α} (h : k ∈ rows.map key) :
    ∃ x ∈ rows.filter (fun y => decide (key y = k)),
      (groupBy key rows).filter (fun g => decide (key g.1 = k)) =
        [(x, rows.filter fun y => decide (key y = k))] := by
  obtain ⟨x, hx⟩ := filter_representatives h
  have hmem : x ∈ (representatives key rows).filter (fun y => decide (key y = k)) :=
    hx ▸ List.mem_singleton_self x
  obtain ⟨hrep, hk⟩ := List.mem_filter.1 hmem
  refine ⟨x, List.mem_filter.2 ⟨mem_of_mem_representatives hrep, hk⟩, ?_⟩
  rw [groupBy, List.filter_map]
  change List.map _ ((representatives key rows).filter fun y => decide (key y = k)) = _
  rw [hx, List.map_singleton, of_decide_eq_true hk]

end Groups

section Aggregates

/-- COUNT(DISTINCT ..): NULL is not counted. -/
def countDistinct [DecidableEq ν] (xs : List (Option ν)) : ℕ := xs.reduceOption.dedup.length

/-- AVG of rounded numbers: NULL where there is no value. -/
def avg [Field K] (round : K → K) (plan : Plan K) (xs : List (Option K)) : Option K :=
  match xs.reduceOption with
  | [] => none
  | y :: ys => some (round ((plan.addition y ys).total round / (y :: ys).length))

/-- MAX: NULL where there is no value. -/
def maximum [Max τ] (xs : List (Option τ)) : Option τ := xs.reduceOption.max?

theorem countDistinct_congr [DecidableEq ν] {xs ys : List (Option ν)}
    (h : ∀ v, some v ∈ xs ↔ some v ∈ ys) : countDistinct xs = countDistinct ys := by
  apply List.Perm.length_eq
  apply (List.perm_ext_iff_of_nodup (List.nodup_dedup _) (List.nodup_dedup _)).2
  intro v
  rw [List.mem_dedup, List.mem_dedup, List.reduceOption_mem_iff, List.reduceOption_mem_iff, h]

theorem maximum_congr [Max τ] [LE τ] [Std.IsLinearOrder τ] [Std.LawfulOrderMax τ]
    {xs ys : List (Option τ)} (h : ∀ v, some v ∈ xs ↔ some v ∈ ys) : maximum xs = maximum ys := by
  apply Option.ext
  intro v
  simp only [maximum, List.max?_eq_some_iff, List.reduceOption_mem_iff, h]

theorem reduceOption_padded_map (f : β → ν) (ys : List β) :
    ((padded ys).map (Option.map f)).reduceOption = ys.map f := by
  have hbind : (Option.map f : Option β → Option ν) = fun o => o.bind fun y => some (f y) := by
    funext o
    cases o <;> rfl
  rw [hbind, reduceOption_padded]
  induction ys with
  | nil => rfl
  | cons y ys ih => exact congrArg (f y :: ·) ih

theorem countDistinct_padded [DecidableEq ν] {f : β → ν} {ys : List β} (h : (ys.map f).Nodup) :
    countDistinct ((padded ys).map (Option.map f)) = ys.length := by
  rw [countDistinct, reduceOption_padded_map, h.dedup, List.length_map]

theorem maximum_padded [Max τ] (f : β → τ) (ys : List β) :
    maximum ((padded ys).map (Option.map f)) = (ys.map f).max? := by
  rw [maximum, reduceOption_padded_map]

section Product

variable {xs : List α} {ys : List β}

theorem mem_map_fst {f : α → ν} (hys : ys ≠ []) {v : ν} :
    v ∈ (xs ×ˢ ys).map (fun p => f p.1) ↔ v ∈ xs.map f := by
  simp only [List.mem_map, Prod.exists, List.mem_product]
  constructor
  · rintro ⟨x, y, ⟨hx, -⟩, rfl⟩
    exact ⟨x, hx, rfl⟩
  · rintro ⟨x, hx, rfl⟩
    obtain ⟨y, hy⟩ := List.exists_mem_of_ne_nil ys hys
    exact ⟨x, y, ⟨hx, hy⟩, rfl⟩

theorem mem_map_snd {f : β → ν} (hxs : xs ≠ []) {v : ν} :
    v ∈ (xs ×ˢ ys).map (fun p => f p.2) ↔ v ∈ ys.map f := by
  simp only [List.mem_map, Prod.exists, List.mem_product]
  constructor
  · rintro ⟨x, y, ⟨-, hy⟩, rfl⟩
    exact ⟨y, hy, rfl⟩
  · rintro ⟨y, hy, rfl⟩
    obtain ⟨x, hx⟩ := List.exists_mem_of_ne_nil xs hxs
    exact ⟨x, y, ⟨hx, hy⟩, rfl⟩

/-- Every value is there once for each row of the other table. -/
theorem reduceOption_map_snd (f : β → Option ν) :
    ((xs ×ˢ ys).map fun p => f p.2).reduceOption =
      (List.replicate xs.length (ys.map f).reduceOption).flatten := by
  induction xs with
  | nil => rfl
  | cons x xs ih =>
    have hrow : (ys.map fun y => (x, y)).map (fun p => f p.2) = ys.map f := by
      rw [List.map_map]
      rfl
    rw [List.product_cons, List.map_append, List.reduceOption_append, hrow, ih,
      List.length_cons, List.replicate_succ, List.flatten_cons]

/-- The average of values that are there equally often is near their mean. -/
theorem avg_map_snd [Field K] [LinearOrder K] [IsStrictOrderedRing K] {grid : AddSubgroup K}
    {u η : K} {round : K → K} (h : Rounds grid u η round) (plan : Plan K) (f : β → Option K)
    (hxs : xs ≠ []) {v : K} {vs : List K} (hvs : (ys.map f).reduceOption = v :: vs)
    (hgrid : ∀ w ∈ v :: vs, w ∈ grid) :
    ∃ m, avg round plan ((xs ×ˢ ys).map fun p => f p.2) = some m ∧
      |m - (v :: vs).sum / (v :: vs).length| ≤
        ((1 + u) ^ (xs.length * (v :: vs).length) - 1) *
          (((v :: vs).map abs).sum / (v :: vs).length) + η := by
  have hpos : xs.length ≠ 0 := mt List.length_eq_zero_iff.1 hxs
  have hcast : (xs.length : K) ≠ 0 := Nat.cast_ne_zero.2 hpos
  have hsum : ∀ (n : ℕ) (ws : List K), (List.replicate n ws).flatten.sum = n * ws.sum := by
    intro n ws
    rw [List.sum_flatten, List.map_replicate, List.sum_replicate, nsmul_eq_mul]
  have hlength : (List.replicate xs.length (v :: vs)).flatten.length =
      xs.length * (v :: vs).length := by
    rw [List.length_flatten, List.map_replicate, List.sum_replicate_nat]
  have habs : (List.replicate xs.length (v :: vs)).flatten.map abs =
      (List.replicate xs.length ((v :: vs).map abs)).flatten := by
    rw [List.map_flatten, List.map_replicate]
  have hvalues : ((xs ×ˢ ys).map fun p => f p.2).reduceOption = _ := reduceOption_map_snd f
  rw [hvs] at hvalues
  have hmem : ∀ w ∈ (List.replicate xs.length (v :: vs)).flatten, w ∈ grid := by
    intro w hw
    obtain ⟨ws, hws, hw'⟩ := List.mem_flatten.1 hw
    rw [List.eq_of_mem_replicate hws] at hw'
    exact hgrid w hw'
  cases hflat : (List.replicate xs.length (v :: vs)).flatten with
  | nil =>
    rw [hflat, List.length_nil, List.length_cons] at hlength
    exact absurd hlength.symm (Nat.mul_ne_zero hpos (Nat.succ_ne_zero _))
  | cons w ws =>
    rw [hflat] at hvalues hmem hlength habs
    have herror := abs_mean_sub_le h plan w ws hmem
    rw [habs, ← hflat, hsum, hsum, hflat, hlength, Nat.cast_mul, mul_div_mul_left _ _ hcast,
      mul_div_mul_left _ _ hcast, ← Nat.cast_mul, ← hlength] at herror
    refine ⟨_, ?_, by rwa [← hlength]⟩
    rw [avg, hvalues]

end Product

end Aggregates

end EvalEngine.Joins
