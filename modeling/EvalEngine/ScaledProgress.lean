import EvalEngine.Rounding
import Mathlib.Order.Interval.Set.Defs

namespace EvalEngine.ScaledProgress

open EvalEngine.Rounding

/-- A sequence that stays in an interval and never goes down. -/
structure Climbs (lo hi : ℤ) (l : List ℤ) : Prop where
  mem : ∀ x ∈ l, lo ≤ x ∧ x ≤ hi
  sorted : l.Pairwise (· ≤ ·)

/-- What a float operation makes of its exact result. -/
structure FloatRounding where
  round : ℚ → ℚ
  mono : Monotone round
  exact : ∀ n : ℕ, n ≤ 2 ^ 53 → round n = n

variable {lo mid hi : ℤ} {l m : List ℤ}

@[simp] theorem climbs_nil : Climbs lo hi [] := ⟨by rintro x ⟨⟩, .nil⟩

@[simp] theorem climbs_cons {x : ℤ} :
    Climbs lo hi (x :: l) ↔ (lo ≤ x ∧ x ≤ hi) ∧ Climbs x hi l := by
  constructor
  · rintro ⟨hmem, hsorted⟩
    obtain ⟨hle, htail⟩ := List.pairwise_cons.1 hsorted
    refine ⟨hmem x List.mem_cons_self, ?_, htail⟩
    intro y hy
    exact ⟨hle y hy, (hmem y (List.mem_cons_of_mem _ hy)).2⟩
  · rintro ⟨⟨hlo, hhi⟩, h⟩
    refine ⟨?_, List.pairwise_cons.2 ⟨fun y hy => (h.mem y hy).1, h.sorted⟩⟩
    intro y hy
    obtain rfl | hy := List.mem_cons.1 hy
    · exact ⟨hlo, hhi⟩
    · exact ⟨hlo.trans (h.mem y hy).1, (h.mem y hy).2⟩

theorem Climbs.append (h : Climbs lo mid l) (k : Climbs mid hi m) (hlo : lo ≤ mid) (hhi : mid ≤ hi) :
    Climbs lo hi (l ++ m) := by
  refine ⟨?_, List.pairwise_append.2 ⟨h.sorted, k.sorted, ?_⟩⟩
  · intro x hx
    obtain hx | hx := List.mem_append.1 hx
    · exact ⟨(h.mem x hx).1, (h.mem x hx).2.trans hhi⟩
    · exact ⟨hlo.trans (k.mem x hx).1, (k.mem x hx).2⟩
  · intro x hx y hy
    exact (h.mem x hx).2.trans (k.mem y hy).1

theorem Climbs.sublist (h : Climbs lo hi l) (hm : m.Sublist l) : Climbs lo hi m :=
  ⟨fun x hx => h.mem x (hm.subset hx), h.sorted.sublist hm⟩

theorem Climbs.take (h : Climbs lo hi l) (n : Nat) : Climbs lo hi (l.take n) :=
  h.sublist (List.take_sublist n l)

theorem Climbs.mono {lo' hi' : ℤ} (h : Climbs lo hi l) (hlo : lo' ≤ lo) (hhi : hi ≤ hi') :
    Climbs lo' hi' l :=
  ⟨fun x hx => ⟨hlo.trans (h.mem x hx).1, (h.mem x hx).2.trans hhi⟩, h.sorted⟩

variable (fl : FloatRounding)

/-- `(i / n) * k`, with floats. -/
def share (i n k : ℕ) : ℚ := fl.round (fl.round (i / n) * k)

/-- `base + int((i / n) * k)` in the turns of a loop over `n` items. -/
def scaled (base : ℤ) (k n : ℕ) : List ℤ :=
  (List.range n).map fun i => min 90 (base + truncate (share fl i n k))

theorem round_nonneg {q : ℚ} (h : 0 ≤ q) : 0 ≤ fl.round q := by
  have hzero := fl.exact 0 (Nat.zero_le _)
  rw [Nat.cast_zero] at hzero
  rw [← hzero]
  exact fl.mono h

theorem share_nonneg (i n k : ℕ) : 0 ≤ share fl i n k := by
  apply round_nonneg
  exact mul_nonneg (round_nonneg fl (by positivity)) (Nat.cast_nonneg k)

theorem share_mono {i j : ℕ} (n k : ℕ) (h : i ≤ j) : share fl i n k ≤ share fl j n k := by
  apply fl.mono
  apply mul_le_mul_of_nonneg_right _ (Nat.cast_nonneg k)
  apply fl.mono
  gcongr

theorem truncate_mono {p q : ℚ} (hp : 0 ≤ p) (h : p ≤ q) : truncate p ≤ truncate q := by
  rw [truncate_eq_floor hp, truncate_eq_floor (hp.trans h)]
  exact Int.floor_mono h

theorem truncate_nonneg {q : ℚ} (h : 0 ≤ q) : 0 ≤ truncate q := by
  rw [truncate_eq_floor h]
  exact Int.floor_nonneg.2 h

theorem climbs_map_range {n : ℕ} {f : ℕ → ℤ} (hmem : ∀ i < n, lo ≤ f i ∧ f i ≤ hi)
    (hmono : ∀ i j, i ≤ j → f i ≤ f j) : Climbs lo hi ((List.range n).map f) := by
  refine ⟨?_, ?_⟩
  · intro x hx
    obtain ⟨i, hi, rfl⟩ := List.mem_map.1 hx
    exact hmem i (List.mem_range.1 hi)
  · rw [List.pairwise_map]
    exact List.pairwise_lt_range.imp fun hij => hmono _ _ hij.le

theorem climbs_scaled {base : ℤ} (k n : ℕ) (hbase : base ≤ 90) :
    Climbs base 90 (scaled fl base k n) := by
  apply climbs_map_range
  · intro i _
    have hnonneg := truncate_nonneg (share_nonneg fl i n k)
    omega
  · intro i j hij
    have hmono := truncate_mono (share_nonneg fl i n k) (share_mono fl n k hij)
    omega

end EvalEngine.ScaledProgress
