import Mathlib.Data.Rat.Floor
import Mathlib.Tactic.Linarith
import Mathlib.Tactic.Positivity

namespace EvalEngine.Rounding

/-- Round to the nearest integer, a tie to the even one. -/
def roundHalfEven (q : ℚ) : ℤ :=
  let rest := q - q.floor
  if rest < 1 / 2 then q.floor
  else if 1 / 2 < rest then q.floor + 1
  else if q.floor % 2 = 0 then q.floor else q.floor + 1

/-- `round(x, digits)`, on exact numbers. Python rounds the double, which need
not lie on a tie where the decimal does: `round(0.01875, 4)` is 0.0187 there and
0.0188 here. -/
def roundTo (digits : Nat) (q : ℚ) : ℚ := roundHalfEven (q * 10 ^ digits) / 10 ^ digits

/-- `int(x)`, on exact numbers. -/
def truncate (q : ℚ) : ℤ := q.num.tdiv q.den

/-- Of a number that is not negative, `int` is the floor. -/
theorem truncate_eq_floor {q : ℚ} (h : 0 ≤ q) : truncate q = ⌊q⌋ := by
  rw [truncate, Int.tdiv_eq_ediv_of_nonneg (Rat.num_nonneg.2 h), Rat.floor_def']

/-- Rounding stays on the side of an integer on which it starts. -/
theorem roundHalfEven_le {q : ℚ} {n : ℤ} (h : q ≤ n) : roundHalfEven q ≤ n := by
  have hfloor : q.floor ≤ n := by
    have hle := Int.floor_mono h
    rwa [Int.floor_intCast] at hle
  by_cases hlt : q.floor < n
  · have hsucc : q.floor + 1 ≤ n := hlt
    simp only [roundHalfEven]
    split
    · exact hfloor
    · split
      · exact hsucc
      · split
        · exact hfloor
        · exact hsucc
  · -- the integer is the floor itself, and nothing is left to round
    have hn : q.floor = n := le_antisymm hfloor (not_lt.1 hlt)
    have hq : q - q.floor = 0 := by
      have hge : (q.floor : ℚ) ≤ q := Int.floor_le q
      rw [hn] at hge ⊢
      linarith
    rw [hn] at hq
    simp [roundHalfEven, hn, hq]

theorem le_roundHalfEven {q : ℚ} {n : ℤ} (h : n ≤ q) : n ≤ roundHalfEven q := by
  have hfloor : n ≤ q.floor := Int.le_floor.2 h
  simp only [roundHalfEven]
  split
  · exact hfloor
  · split
    · omega
    · split
      · exact hfloor
      · omega

/-- A number that is an integer already is not moved. -/
@[simp] theorem roundHalfEven_intCast (n : ℤ) : roundHalfEven n = n :=
  le_antisymm (roundHalfEven_le le_rfl) (le_roundHalfEven le_rfl)

theorem roundHalfEven_mono {q r : ℚ} (h : q ≤ r) : roundHalfEven q ≤ roundHalfEven r := by
  have hfloor : q.floor ≤ r.floor := Int.floor_mono h
  by_cases hlt : q.floor < r.floor
  · -- an integer lies between the two numbers
    have hq : q ≤ (r.floor : ℚ) := (Int.floor_lt.1 hlt).le
    exact (roundHalfEven_le hq).trans (le_roundHalfEven (Int.floor_le r))
  · -- both have the same floor, and the fractions are in the same order
    have heq : q.floor = r.floor := le_antisymm hfloor (not_lt.1 hlt)
    have hrest : q - q.floor ≤ r - r.floor := by
      rw [heq]
      linarith
    by_cases hup : 1 / 2 < r - r.floor
    · have hr : roundHalfEven r = r.floor + 1 := (if_neg (not_lt.2 hup.le)).trans (if_pos hup)
      have hq : q ≤ (q.floor + 1 : ℤ) := by exact_mod_cast (Int.lt_floor_add_one q).le
      rw [hr, ← heq]
      exact roundHalfEven_le hq
    · by_cases hdown : q - q.floor < 1 / 2
      · have hq : roundHalfEven q = q.floor := if_pos hdown
        rw [hq, heq]
        exact le_roundHalfEven (Int.floor_le r)
      · -- both are the same tie
        have hsame : q = r := by
          rw [heq] at hdown hrest
          linarith
        rw [hsame]

theorem roundTo_mono {digits : Nat} {q r : ℚ} (h : q ≤ r) : roundTo digits q ≤ roundTo digits r := by
  have hpos : (0 : ℚ) < 10 ^ digits := by positivity
  have hscaled : roundHalfEven (q * 10 ^ digits) ≤ roundHalfEven (r * 10 ^ digits) :=
    roundHalfEven_mono (mul_le_mul_of_nonneg_right h hpos.le)
  have hcast : (roundHalfEven (q * 10 ^ digits) : ℚ) ≤ roundHalfEven (r * 10 ^ digits) := by
    exact_mod_cast hscaled
  exact div_le_div_of_nonneg_right hcast hpos.le

/-- Numbers with so many digits behind the point. -/
def HasDigits (digits : Nat) (q : ℚ) : Prop := ∃ n : ℤ, q * 10 ^ digits = n

theorem hasDigits_roundTo (digits : Nat) (q : ℚ) : HasDigits digits (roundTo digits q) := by
  have hpos : (10 : ℚ) ^ digits ≠ 0 := by positivity
  exact ⟨roundHalfEven (q * 10 ^ digits), div_mul_cancel₀ _ hpos⟩

theorem roundTo_of_hasDigits {digits : Nat} {q : ℚ} (h : HasDigits digits q) :
    roundTo digits q = q := by
  obtain ⟨n, hn⟩ := h
  have hpos : (10 : ℚ) ^ digits ≠ 0 := by positivity
  rw [roundTo, hn, roundHalfEven_intCast, ← hn, mul_div_cancel_right₀ _ hpos]

theorem roundTo_roundTo (digits : Nat) (q : ℚ) :
    roundTo digits (roundTo digits q) = roundTo digits q :=
  roundTo_of_hasDigits (hasDigits_roundTo digits q)

theorem roundTo_mem {digits : Nat} {q : ℚ} {n m : ℤ} (hn : n ≤ q) (hm : q ≤ m) :
    n ≤ roundTo digits q ∧ roundTo digits q ≤ m := by
  have hpos : (0 : ℚ) < 10 ^ digits := by positivity
  have hlow : n * 10 ^ digits ≤ roundHalfEven (q * 10 ^ digits) := by
    apply le_roundHalfEven
    push_cast
    exact mul_le_mul_of_nonneg_right hn hpos.le
  have hhigh : roundHalfEven (q * 10 ^ digits) ≤ m * 10 ^ digits := by
    apply roundHalfEven_le
    push_cast
    exact mul_le_mul_of_nonneg_right hm hpos.le
  have hlow' : (n : ℚ) * 10 ^ digits ≤ roundHalfEven (q * 10 ^ digits) := by exact_mod_cast hlow
  have hhigh' : (roundHalfEven (q * 10 ^ digits) : ℚ) ≤ m * 10 ^ digits := by exact_mod_cast hhigh
  exact ⟨(le_div_iff₀ hpos).2 hlow', (div_le_iff₀ hpos).2 hhigh'⟩

end EvalEngine.Rounding
