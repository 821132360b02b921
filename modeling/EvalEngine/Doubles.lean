import EvalEngine.RoundedSums
import EvalEngine.Rounding
import Mathlib.Algebra.Order.Ring.WithTop
import Mathlib.Data.Int.Log
import Mathlib.Tactic.FieldSimp

namespace EvalEngine.Doubles

open EvalEngine.Rounding

/-- The exponent of the last place of a double near `x`. -/
def lastPlace (x : ℚ) : ℤ := max (Int.log 2 |x| - 52) (-1074)

/-- The double nearest to `x`, a tie to the even one, for any `x` that is not too large for one. -/
def nearestDouble (x : ℚ) : ℚ := roundHalfEven (x / 2 ^ lastPlace x) * 2 ^ lastPlace x

/-- A double that is not negative: `⊤` is infinity. -/
abbrev Double := WithTop ℚ

/-- A number that rounds to 2^1024 or more is infinity as a double. -/
def toDouble (x : ℚ) : Double := if nearestDouble x < 2 ^ 1024 then (nearestDouble x : ℚ) else ⊤

/-- Division by a positive double; `none` is not a number. -/
def divide : Double → Double → Option Double
  | ⊤, ⊤ => none
  | ⊤, (_ : ℚ) => some ⊤
  | (_ : ℚ), ⊤ => some (0 : ℚ)
  | (x : ℚ), (y : ℚ) => some (toDouble (x / y))

/-- Rounding the quotient to a double does not take it over a whole number. -/
def KeepsCeiling (n p : ℕ) : Prop := ∀ k : ℕ, (k : ℚ) < nearestDouble (n / p) ↔ k * p < n

variable {x : ℚ} {n p k : ℕ}

theorem abs_roundHalfEven_sub_le (q : ℚ) : |roundHalfEven q - q| ≤ 1 / 2 := by
  have hle : (q.floor : ℚ) ≤ q := Int.floor_le q
  have hlt : q < (q.floor : ℚ) + 1 := Int.lt_floor_add_one q
  rw [abs_le]
  simp only [roundHalfEven]
  split
  · constructor <;> linarith
  · split
    · push_cast
      constructor <;> linarith
    · split
      · constructor <;> linarith
      · push_cast
        constructor <;> linarith

theorem lastPlace_nonpos (h0 : 0 < x) (h : x < 2 ^ 53) : lastPlace x ≤ 0 := by
  have hlog : Int.log 2 |x| < 53 := by
    rw [abs_of_pos h0]
    apply (Int.lt_zpow_iff_log_lt Nat.one_lt_two h0).1
    exact_mod_cast h
  apply max_le <;> omega

/-- A whole number below 2^53 is a double, so rounding does not pass it. -/
theorem nearestDouble_le (h0 : 0 < x) (hk : k < 2 ^ 53) (h : x ≤ k) : nearestDouble x ≤ k := by
  have hpos : (0 : ℚ) < 2 ^ lastPlace x := zpow_pos two_pos _
  have hplace : lastPlace x ≤ 0 := by
    apply lastPlace_nonpos h0
    have hk' : (k : ℚ) < 2 ^ 53 := by exact_mod_cast hk
    linarith
  obtain ⟨m, hm⟩ := Int.eq_ofNat_of_zero_le (neg_nonneg.2 hplace)
  have hwhole : (k : ℚ) / 2 ^ lastPlace x = ((k * 2 ^ m : ℕ) : ℤ) := by
    rw [div_eq_mul_inv, ← zpow_neg, hm]
    push_cast
    rw [zpow_natCast]
  have hle : roundHalfEven (x / 2 ^ lastPlace x) ≤ ((k * 2 ^ m : ℕ) : ℤ) := by
    apply roundHalfEven_le
    rw [← hwhole]
    gcongr
  have hle' : (roundHalfEven (x / 2 ^ lastPlace x) : ℚ) ≤ k / 2 ^ lastPlace x := by
    rw [hwhole]
    exact_mod_cast hle
  rw [nearestDouble]
  exact (le_div_iff₀ hpos).1 hle'

theorem abs_nearestDouble_sub_le (x : ℚ) : |nearestDouble x - x| ≤ 2 ^ lastPlace x / 2 := by
  have hpos : (0 : ℚ) < 2 ^ lastPlace x := zpow_pos two_pos _
  have hscaled := mul_le_mul_of_nonneg_right (abs_roundHalfEven_sub_le (x / 2 ^ lastPlace x)) hpos.le
  have hx : nearestDouble x - x =
      (roundHalfEven (x / 2 ^ lastPlace x) - x / 2 ^ lastPlace x) * 2 ^ lastPlace x := by
    rw [sub_mul, div_mul_cancel₀ x hpos.ne', nearestDouble]
  rw [hx, abs_mul, abs_of_pos hpos]
  linarith

theorem nearestDouble_zero : nearestDouble 0 = 0 := by
  have hzero : roundHalfEven (0 / 2 ^ lastPlace 0) = 0 := by
    rw [zero_div]
    exact_mod_cast roundHalfEven_intCast 0
  rw [nearestDouble, hzero, Int.cast_zero, zero_mul]

/-- A quotient of numbers below 2^53 that is above a whole number stays above it. -/
theorem lt_nearestDouble (hn : n < 2 ^ 53) (hp : 0 < p) (hp' : p < 2 ^ 53) (h : k * p < n) :
    (k : ℚ) < nearestDouble (n / p) := by
  have hp0 : (0 : ℚ) < p := by exact_mod_cast hp
  have hn1 : (1 : ℚ) ≤ n := by exact_mod_cast Nat.one_le_of_lt h
  have hx : (0 : ℚ) < n / p := div_pos (by linarith) hp0
  -- the quotient is too large for a subnormal double
  have hnormal : -1074 ≤ Int.log 2 |(n / p : ℚ)| - 52 := by
    have hlarge : ((2 : ℕ) : ℚ) ^ (-53 : ℤ) ≤ n / p := by
      have hp53 : (p : ℚ) ≤ 2 ^ 53 := by exact_mod_cast hp'.le
      rw [zpow_neg, le_div_iff₀ hp0, inv_mul_le_iff₀ (zpow_pos two_pos _)]
      calc (p : ℚ) ≤ 2 ^ 53 := hp53
        _ ≤ ((2 : ℕ) : ℚ) ^ (53 : ℤ) * n := by
          have hpow : ((2 : ℕ) : ℚ) ^ (53 : ℤ) = 2 ^ 53 := by norm_cast
          rw [hpow]
          nlinarith
    have hlog := (Int.zpow_le_iff_le_log Nat.one_lt_two hx).1 hlarge
    rw [abs_of_pos hx]
    omega
  have hplace : lastPlace (n / p) = Int.log 2 (n / p : ℚ) - 52 := by
    rw [lastPlace, max_eq_left hnormal, abs_of_pos hx]
  have hulp : (2 : ℚ) ^ lastPlace (n / p) ≤ n / p / 2 ^ 52 := by
    have hlog : (2 : ℚ) ^ Int.log 2 (n / p : ℚ) ≤ n / p := by
      exact_mod_cast Int.zpow_log_le_self Nat.one_lt_two hx
    have hpow : (2 : ℚ) ^ (52 : ℤ) = 2 ^ 52 := by norm_cast
    rw [hplace, zpow_sub₀ two_ne_zero, hpow]
    exact div_le_div_of_nonneg_right hlog (by norm_num)
  have hgap : (k : ℚ) ≤ n / p - 1 / p := by
    have hsucc : (k : ℚ) * p + 1 ≤ n := by exact_mod_cast h
    rw [← sub_div, le_div_iff₀ hp0]
    linarith
  have herror : (n : ℚ) / p / 2 ^ 52 / 2 < 1 / p := by
    have hn' : (n : ℚ) < 2 ^ 53 := by exact_mod_cast hn
    rw [div_div, div_div, div_lt_div_iff₀ (by positivity) hp0]
    nlinarith
  have hround := (abs_le.1 (abs_nearestDouble_sub_le (n / p))).1
  linarith

/-- The multiples of the smallest positive double. -/
def grid : AddSubgroup ℚ := AddSubgroup.zmultiples (2 ^ (-1074 : ℤ))

theorem nearestDouble_mem_grid (x : ℚ) : nearestDouble x ∈ grid := by
  have hplace : 0 ≤ lastPlace x + 1074 := by
    have hle : -1074 ≤ lastPlace x := le_max_right _ _
    omega
  obtain ⟨m, hm⟩ := Int.eq_ofNat_of_zero_le hplace
  have hsplit : lastPlace x = m + -1074 := by omega
  refine AddSubgroup.mem_zmultiples_iff.2 ⟨roundHalfEven (x / 2 ^ lastPlace x) * 2 ^ m, ?_⟩
  have hpow : (2 : ℚ) ^ lastPlace x = 2 ^ m * 2 ^ (-1074 : ℤ) := by
    rw [hsplit, zpow_add₀ two_ne_zero, zpow_natCast]
  rw [zsmul_eq_mul, nearestDouble, hpow, Int.cast_mul, Int.cast_pow, Int.cast_ofNat, mul_assoc]

/-- A double that is not subnormal has an error of half its last place. -/
theorem abs_nearestDouble_sub_le_of_normal {x : ℚ} (h : -1074 ≤ Int.log 2 |x| - 52) :
    |nearestDouble x - x| ≤ 1 / 2 ^ 53 * |x| := by
  obtain rfl | hx := eq_or_ne x 0
  · rw [nearestDouble_zero, sub_zero, abs_zero, mul_zero]
  · have hlog : (2 : ℚ) ^ Int.log 2 |x| ≤ |x| := by
      exact_mod_cast Int.zpow_log_le_self Nat.one_lt_two (abs_pos.2 hx)
    have hpow : (2 : ℚ) ^ (52 : ℤ) = 2 ^ 52 := by norm_cast
    have hround := abs_nearestDouble_sub_le x
    rw [lastPlace, max_eq_left h, zpow_sub₀ two_ne_zero, hpow] at hround
    calc |nearestDouble x - x| ≤ 2 ^ Int.log 2 |x| / 2 ^ 52 / 2 := hround
      _ = 1 / 2 ^ 53 * 2 ^ Int.log 2 |x| := by ring
      _ ≤ 1 / 2 ^ 53 * |x| := by gcongr

/-- Subnormal doubles are added up without an error. -/
theorem rounds_nearestDouble :
    RoundedSums.Rounds grid (1 / 2 ^ 53) (2 ^ (-1075 : ℤ)) nearestDouble where
  nonneg := by positivity
  mem := nearestDouble_mem_grid
  error_mem := by
    intro x hx
    obtain h | h := le_total (-1074) (Int.log 2 |x| - 52)
    · exact abs_nearestDouble_sub_le_of_normal h
    · obtain ⟨k, rfl⟩ := AddSubgroup.mem_zmultiples_iff.1 hx
      have hplace : lastPlace (k • 2 ^ (-1074 : ℤ)) = -1074 := max_eq_right h
      have hexact : nearestDouble (k • 2 ^ (-1074 : ℤ)) = k • 2 ^ (-1074 : ℤ) := by
        rw [nearestDouble, hplace, zsmul_eq_mul, mul_div_cancel_right₀ _ (zpow_ne_zero _ two_ne_zero),
          roundHalfEven_intCast]
      rw [hexact, sub_self, abs_zero]
      positivity
  error := by
    intro x
    obtain h | h := le_total (-1074) (Int.log 2 |x| - 52)
    · exact (abs_nearestDouble_sub_le_of_normal h).trans
        (le_add_of_nonneg_right (zpow_pos two_pos _).le)
    · have hround := abs_nearestDouble_sub_le x
      have hhalf : (2 : ℚ) ^ (-1074 : ℤ) / 2 = 2 ^ (-1075 : ℤ) := by
        rw [div_eq_mul_inv, ← zpow_neg_one, ← zpow_add₀ two_ne_zero]
        rfl
      rw [lastPlace, max_eq_right h, hhalf] at hround
      exact hround.trans (le_add_of_nonneg_left (by positivity))

/-- Below 2^53 the quotient of two numbers keeps its ceiling. -/
theorem keepsCeiling_of_lt (hn : n < 2 ^ 53) (hp : 0 < p) (hp' : p < 2 ^ 53) : KeepsCeiling n p := by
  intro k
  constructor
  · intro hk
    by_contra hge
    have hp0 : (0 : ℚ) < p := by exact_mod_cast hp
    have hquotient : (n : ℚ) / p ≤ k := by
      rw [div_le_iff₀ hp0]
      exact_mod_cast Nat.le_of_not_lt hge
    obtain hzero | hpos := Nat.eq_zero_or_pos n
    · subst hzero
      rw [Nat.cast_zero, zero_div, nearestDouble_zero] at hk
      exact absurd hk (not_lt.2 (Nat.cast_nonneg k))
    · have hx : (0 : ℚ) < n / p := div_pos (by exact_mod_cast hpos) hp0
      obtain hsmall | hlarge := Nat.lt_or_ge k (2 ^ 53)
      · exact absurd hk (not_lt.2 (nearestDouble_le hx hsmall hquotient))
      · have hself : (n : ℚ) / p ≤ n := div_le_self (Nat.cast_nonneg n) (by exact_mod_cast hp)
        have hn' := nearestDouble_le hx hn hself
        have hk' : (n : ℚ) ≤ k := by exact_mod_cast hn.le.trans hlarge
        linarith
  · exact lt_nearestDouble hn hp hp'

end EvalEngine.Doubles
