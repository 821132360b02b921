import Mathlib.Algebra.BigOperators.Group.List.Basic
import Mathlib.Algebra.Order.BigOperators.Group.List
import Mathlib.Algebra.Order.Field.Basic
import Mathlib.Data.Set.Finite.Lattice
import Mathlib.Tactic.Linarith

namespace EvalEngine.WeightedMean

variable {K : Type} [Field K] [LinearOrder K] [IsStrictOrderedRing K]

/-- A sample of values, each with its weight. -/
abbrev Sample (K : Type) := List (K × K)

def weightedSum (rows : Sample K) : K := (rows.map (fun r => r.1 * r.2)).sum

def totalWeight (rows : Sample K) : K := (rows.map Prod.snd).sum

def mean (rows : Sample K) : K := weightedSum rows / totalWeight rows

def NonnegWeights (rows : Sample K) : Prop := ∀ r ∈ rows, 0 ≤ r.2

omit [LinearOrder K] [IsStrictOrderedRing K] in
@[simp] theorem weightedSum_cons (r : K × K) (rows : Sample K) :
    weightedSum (r :: rows) = r.1 * r.2 + weightedSum rows := by
  simp [weightedSum]

omit [LinearOrder K] [IsStrictOrderedRing K] in
@[simp] theorem weightedSum_append (rows rows' : Sample K) :
    weightedSum (rows ++ rows') = weightedSum rows + weightedSum rows' := by
  simp [weightedSum]

omit [LinearOrder K] [IsStrictOrderedRing K] in
@[simp] theorem totalWeight_cons (r : K × K) (rows : Sample K) :
    totalWeight (r :: rows) = r.2 + totalWeight rows := by
  simp [totalWeight]

omit [LinearOrder K] [IsStrictOrderedRing K] in
@[simp] theorem totalWeight_append (rows rows' : Sample K) :
    totalWeight (rows ++ rows') = totalWeight rows + totalWeight rows' := by
  simp [totalWeight]

theorem totalWeight_nonneg {rows : Sample K} (h : NonnegWeights rows) : 0 ≤ totalWeight rows := by
  apply List.sum_nonneg
  intro w hw
  obtain ⟨r, hr, rfl⟩ := List.mem_map.1 hw
  exact h r hr

theorem totalWeight_pos {rows : Sample K} (h : NonnegWeights rows) (hpos : ∃ r ∈ rows, 0 < r.2) :
    0 < totalWeight rows := by
  obtain ⟨r, hr, hw⟩ := hpos
  have hle : r.2 ≤ totalWeight rows := by
    apply List.single_le_sum
    · intro w hmem
      obtain ⟨r', hr', rfl⟩ := List.mem_map.1 hmem
      exact h r' hr'
    · exact List.mem_map_of_mem hr
  exact hw.trans_le hle

/-- An upper bound of the values that count bounds the sum. -/
theorem weightedSum_le {rows : Sample K} (h : NonnegWeights rows) {bound : K}
    (hb : ∀ r ∈ rows, 0 < r.2 → r.1 ≤ bound) : weightedSum rows ≤ bound * totalWeight rows := by
  induction rows with
  | nil => simp [weightedSum, totalWeight]
  | cons r rows ih =>
    have hrest := ih (fun r' hr' => h r' (List.mem_cons_of_mem _ hr'))
      (fun r' hr' => hb r' (List.mem_cons_of_mem _ hr'))
    have hfirst : r.1 * r.2 ≤ bound * r.2 := by
      obtain hpos | hzero := (h r List.mem_cons_self).lt_or_eq
      · exact mul_le_mul_of_nonneg_right (hb r List.mem_cons_self hpos) hpos.le
      · rw [← hzero, mul_zero, mul_zero]
    rw [weightedSum_cons, totalWeight_cons, mul_add]
    exact add_le_add hfirst hrest

theorem le_weightedSum {rows : Sample K} (h : NonnegWeights rows) {bound : K}
    (hb : ∀ r ∈ rows, 0 < r.2 → bound ≤ r.1) : bound * totalWeight rows ≤ weightedSum rows := by
  induction rows with
  | nil => simp [weightedSum, totalWeight]
  | cons r rows ih =>
    have hrest := ih (fun r' hr' => h r' (List.mem_cons_of_mem _ hr'))
      (fun r' hr' => hb r' (List.mem_cons_of_mem _ hr'))
    have hfirst : bound * r.2 ≤ r.1 * r.2 := by
      obtain hpos | hzero := (h r List.mem_cons_self).lt_or_eq
      · exact mul_le_mul_of_nonneg_right (hb r List.mem_cons_self hpos) hpos.le
      · rw [← hzero, mul_zero, mul_zero]
    rw [weightedSum_cons, totalWeight_cons, mul_add]
    exact add_le_add hfirst hrest

theorem mean_le {rows : Sample K} (h : NonnegWeights rows) (hpos : 0 < totalWeight rows) {bound : K}
    (hb : ∀ r ∈ rows, 0 < r.2 → r.1 ≤ bound) : mean rows ≤ bound :=
  (div_le_iff₀ hpos).2 (weightedSum_le h hb)

theorem le_mean {rows : Sample K} (h : NonnegWeights rows) (hpos : 0 < totalWeight rows) {bound : K}
    (hb : ∀ r ∈ rows, 0 < r.2 → bound ≤ r.1) : bound ≤ mean rows :=
  (le_div_iff₀ hpos).2 (le_weightedSum h hb)

/-- Raising one value does not lower the mean. -/
theorem mean_raise {before after : Sample K} {v v' w : K}
    (hw : NonnegWeights (before ++ (v, w) :: after)) (h : v ≤ v') :
    mean (before ++ (v, w) :: after) ≤ mean (before ++ (v', w) :: after) := by
  have htotal : totalWeight (before ++ (v', w) :: after) =
      totalWeight (before ++ (v, w) :: after) := by simp
  have hterm : v * w ≤ v' * w :=
    mul_le_mul_of_nonneg_right h (hw (v, w) (List.mem_append_right _ List.mem_cons_self))
  rw [mean, mean, htotal]
  apply div_le_div_of_nonneg_right _ (totalWeight_nonneg hw)
  rw [weightedSum_append, weightedSum_append, weightedSum_cons, weightedSum_cons]
  exact add_le_add le_rfl (add_le_add hterm le_rfl)

end EvalEngine.WeightedMean
