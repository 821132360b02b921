import Mathlib.Algebra.BigOperators.Group.List.Basic
import Mathlib.Algebra.Group.Subgroup.ZPowers.Basic
import Mathlib.Algebra.Order.Field.Basic
import Mathlib.Tactic.Linarith
import Mathlib.Tactic.Positivity
import Mathlib.Tactic.Ring

namespace EvalEngine.RoundedSums

variable {K : Type*}

/-- Values that are added up in some order and grouping. -/
inductive Addition (K : Type*)
  | value (x : K)
  | add (a b : Addition K)

namespace Addition

def values : Addition K → List K
  | .value x => [x]
  | .add a b => a.values ++ b.values

def steps : Addition K → ℕ
  | .value _ => 0
  | .add a b => a.steps + b.steps + 1

/-- The sum, rounded at every step. -/
def total [Add K] (round : K → K) : Addition K → K
  | .value x => x
  | .add a b => round (a.total round + b.total round)

/-- One value after the other. -/
def inOrder (x : K) (xs : List K) : Addition K := xs.foldl (fun a y => .add a (.value y)) (.value x)

theorem length_values (a : Addition K) : a.values.length = a.steps + 1 := by
  induction a with
  | value x => rfl
  | add a b iha ihb =>
    rw [values, List.length_append, iha, ihb, steps]
    omega

theorem values_inOrder (x : K) (xs : List K) : (inOrder x xs).values = x :: xs := by
  have hfold : ∀ (a : Addition K),
      (xs.foldl (fun a y => .add a (.value y)) a).values = a.values ++ xs := by
    induction xs with
    | nil => exact fun a => (List.append_nil _).symm
    | cons y ys ih =>
      intro a
      rw [List.foldl_cons, ih, values, values, List.append_assoc, List.singleton_append]
  exact hfold (.value x)

end Addition

/-- How an aggregate adds up its values. -/
structure Plan (K : Type*) where
  addition : K → List K → Addition K
  perm : ∀ x xs, (addition x xs).values.Perm (x :: xs)

def Plan.inOrder : Plan K where
  addition := Addition.inOrder
  perm x xs := by rw [Addition.values_inOrder]

theorem Plan.steps_addition (plan : Plan K) (x : K) (xs : List K) :
    (plan.addition x xs).steps = xs.length := by
  have hlength := (plan.perm x xs).length_eq
  rw [Addition.length_values, List.length_cons] at hlength
  omega

variable [Field K] [LinearOrder K] [IsStrictOrderedRing K] {grid : AddSubgroup K} {u η : K}
  {round : K → K}

/-- Rounding to numbers of a grid has the relative error `u`, which for numbers between those of
the grid can be `η` more. -/
structure Rounds (grid : AddSubgroup K) (u η : K) (round : K → K) : Prop where
  nonneg : 0 ≤ u
  mem (x : K) : round x ∈ grid
  error_mem : ∀ x ∈ grid, |round x - x| ≤ u * |x|
  error (x : K) : |round x - x| ≤ u * |x| + η

namespace Addition

omit [IsStrictOrderedRing K] in
theorem total_mem (h : Rounds grid u η round) {a : Addition K} (ha : ∀ x ∈ a.values, x ∈ grid) :
    a.total round ∈ grid := by
  cases a with
  | value x => exact ha x (List.mem_singleton_self x)
  | add a b => exact h.mem _

theorem abs_sum_le (xs : List K) : |xs.sum| ≤ (xs.map abs).sum := by
  induction xs with
  | nil => exact abs_zero.le
  | cons x xs ih =>
    rw [List.sum_cons, List.map_cons, List.sum_cons]
    exact (abs_add_le x xs.sum).trans (add_le_add_right ih |x|)

theorem sum_abs_nonneg (xs : List K) : 0 ≤ (xs.map abs).sum :=
  (abs_nonneg _).trans (abs_sum_le xs)

/-- A value that is off by a factor stays near the sum. -/
theorem abs_le_of_error {x s t e : K} (h : |x - s| ≤ (e - 1) * t) (hs : |s| ≤ t) :
    |x| ≤ e * t := by
  have hsplit : |x| ≤ |x - s| + |s| := by
    have hadd := abs_add_le (x - s) s
    rwa [sub_add_cancel] at hadd
  linarith

/-- Every step multiplies the possible error by `1 + u`. -/
theorem abs_total_sub_sum_le (h : Rounds grid u η round) {a : Addition K}
    (ha : ∀ x ∈ a.values, x ∈ grid) :
    |a.total round - a.values.sum| ≤ ((1 + u) ^ a.steps - 1) * (a.values.map abs).sum := by
  have hone : 1 ≤ 1 + u := le_add_of_nonneg_right h.nonneg
  induction a with
  | value x => simp [total, values, steps]
  | add a b iha ihb =>
    have hvalues : ∀ x, x ∈ a.values ∨ x ∈ b.values → x ∈ grid :=
      fun x hx => ha x (List.mem_append.2 hx)
    have ha' : ∀ x ∈ a.values, x ∈ grid := fun x hx => hvalues x (.inl hx)
    have hb' : ∀ x ∈ b.values, x ∈ grid := fun x hx => hvalues x (.inr hx)
    let s := a.values.sum + b.values.sum
    let t := (a.values.map abs).sum + (b.values.map abs).sum
    let e := (1 + u) ^ (a.steps + b.steps)
    have hparts : |a.total round + b.total round - s| ≤ (e - 1) * t := by
      have hpowa : (1 + u) ^ a.steps ≤ e := pow_le_pow_right₀ hone (Nat.le_add_right _ _)
      have hpowb : (1 + u) ^ b.steps ≤ e := pow_le_pow_right₀ hone (Nat.le_add_left _ _)
      have hleft := mul_le_mul_of_nonneg_right hpowa (sum_abs_nonneg a.values)
      have hright := mul_le_mul_of_nonneg_right hpowb (sum_abs_nonneg b.values)
      calc |a.total round + b.total round - s|
          = |(a.total round - a.values.sum) + (b.total round - b.values.sum)| := by
            rw [add_sub_add_comm]
        _ ≤ |a.total round - a.values.sum| + |b.total round - b.values.sum| := abs_add_le _ _
        _ ≤ (e - 1) * t := by
          have hsum := add_le_add (iha ha') (ihb hb')
          simp only [t, mul_add, sub_mul] at hsum ⊢
          linarith
    have hs : |s| ≤ t := by
      have hsum := abs_sum_le (a.values ++ b.values)
      rwa [List.sum_append, List.map_append, List.sum_append] at hsum
    have hsize : |a.total round + b.total round| ≤ e * t := abs_le_of_error hparts hs
    have hstep := h.error_mem _ (grid.add_mem (total_mem h ha') (total_mem h hb'))
    have hstep' := hstep.trans (mul_le_mul_of_nonneg_left hsize h.nonneg)
    rw [total, values, steps, List.sum_append, List.map_append, List.sum_append]
    calc |round (a.total round + b.total round) - s|
        ≤ |round (a.total round + b.total round) - (a.total round + b.total round)| +
            |a.total round + b.total round - s| := abs_sub_le _ _ _
      _ ≤ u * (e * t) + (e - 1) * t := add_le_add hstep' hparts
      _ = ((1 + u) ^ (a.steps + b.steps + 1) - 1) * t := by
        rw [pow_succ]
        ring

end Addition

/-- A rounded mean is near the mean of the values. -/
theorem abs_mean_sub_le (h : Rounds grid u η round) (plan : Plan K) (x : K) (xs : List K)
    (hxs : ∀ y ∈ x :: xs, y ∈ grid) :
    |round ((plan.addition x xs).total round / (x :: xs).length) -
        (x :: xs).sum / (x :: xs).length| ≤
      ((1 + u) ^ (x :: xs).length - 1) * (((x :: xs).map abs).sum / (x :: xs).length) + η := by
  have hperm := plan.perm x xs
  have hvalues : ∀ y ∈ (plan.addition x xs).values, y ∈ grid :=
    fun y hy => hxs y (hperm.mem_iff.1 hy)
  have htotal := Addition.abs_total_sub_sum_le h hvalues
  rw [hperm.sum_eq, (hperm.map abs).sum_eq, plan.steps_addition] at htotal
  have hsize := Addition.abs_le_of_error htotal (Addition.abs_sum_le (x :: xs))
  generalize (plan.addition x xs).total round = s at *
  generalize ((x :: xs).map abs).sum = t at *
  have hn : (0 : K) < (x :: xs).length := Nat.cast_pos.2 (Nat.succ_pos _)
  rw [List.length_cons, pow_succ, ← List.length_cons (a := x)]
  generalize ((x :: xs).length : K) = n at *
  have hquotient : |s / n - (x :: xs).sum / n| ≤ ((1 + u) ^ xs.length - 1) * (t / n) := by
    rw [← sub_div, abs_div, abs_of_pos hn, ← mul_div_assoc]
    exact div_le_div_of_nonneg_right htotal hn.le
  have hsize' : |s / n| ≤ (1 + u) ^ xs.length * (t / n) := by
    rw [abs_div, abs_of_pos hn, ← mul_div_assoc]
    exact div_le_div_of_nonneg_right hsize hn.le
  have hround := h.error (s / n)
  have hround' := mul_le_mul_of_nonneg_left hsize' h.nonneg
  calc |round (s / n) - (x :: xs).sum / n|
      ≤ |round (s / n) - s / n| + |s / n - (x :: xs).sum / n| := abs_sub_le _ _ _
    _ ≤ (u * ((1 + u) ^ xs.length * (t / n)) + η) + ((1 + u) ^ xs.length - 1) * (t / n) := by
      linarith
    _ = ((1 + u) ^ xs.length * (1 + u) - 1) * (t / n) + η := by ring

end EvalEngine.RoundedSums
