import EvalEngine.FailOpenCache
import Mathlib.Analysis.SpecialFunctions.Log.Basic

namespace EvalEngine.EarlyRefresh

open EvalEngine.PythonValues EvalEngine.FailOpenCache

/-- The operations of the formula on exact numbers. The texts of numbers are not
among them. -/
noncomputable def reals : Floats ℝ where
  nan := 0
  inf := 0
  negInf := 0
  eq x y := decide (x = y)
  eqInt x n := decide (x = n)
  ge x y := decide (y ≤ x)
  neg x := -x
  add x y := x + y
  sub x y := x - y
  mul x y := x * y
  ofInt n := some n
  log x := if 0 < x then some (Real.log x) else none
  repr _ := []
  ofText _ := 0

noncomputable def exact : Number ℝ → ℝ
  | .int n => n
  | .float x => x

/-- The draws of `random()` for which an entry stored at `ts` is computed again. -/
def draws (beta : Number ℝ) (ts : ℝ) (ttl : ℤ) (now : ℝ) : Set ℝ :=
  {draw | draw ∈ Set.Ioo 0 1 ∧ shouldRecompute reals now draw beta (.float ts) (.int ttl) = .ok true}

/-- Early expiration at one moment: some draw refreshes an entry that has not
expired, every draw one that has, and the draws grow with the clock and with `beta`. -/
structure Prevents (beta : Number ℝ) (ts : ℝ) (ttl : ℤ) (now : ℝ) : Prop where
  early : now < ts + ttl → (draws beta ts ttl now).Nonempty
  late : ts + ttl ≤ now → Set.Ioo 0 1 ⊆ draws beta ts ttl now
  later : ∀ now', now ≤ now' → draws beta ts ttl now ⊆ draws beta ts ttl now'
  larger : ∀ beta', exact beta ≤ exact beta' → draws beta ts ttl now ⊆ draws beta' ts ttl now

variable {beta beta' : Number ℝ} {ts now now' draw : ℝ} {ttl : ℤ}

theorem shouldRecompute_eq (hdraw : 0 < draw) :
    shouldRecompute reals now draw beta (.float ts) (.int ttl) =
      .ok (decide (-(exact beta * ttl * Real.log draw) ≤ now - (ts + ttl))) := by
  have hlog : logDraw reals draw = .ok (Real.log draw) := by
    simp only [logDraw, reals, if_pos hdraw]
  cases beta with
  | int n =>
    have hscale : ((n * ttl : ℤ) : ℝ) = exact (.int n) * ttl := Int.cast_mul n ttl
    rw [← hscale]
    simp only [shouldRecompute, operand, Value.number?, bind, Except.bind, hlog]
    rfl
  | float x =>
    simp only [shouldRecompute, operand, Value.number?, bind, Except.bind, hlog]
    rfl

/-- A draw passes the test when it is large: the logarithm stands on the wrong side. -/
theorem neg_mul_log_le_iff {scale gap : ℝ} (hscale : 0 < scale) (hdraw : 0 < draw) :
    -(scale * Real.log draw) ≤ gap ↔ Real.exp (-gap / scale) ≤ draw := by
  rw [← Real.le_log_iff_exp_le hdraw, div_le_iff₀ hscale]
  constructor
  · intro h
    linarith
  · intro h
    linarith

theorem scale_pos (httl : 0 < ttl) (hbeta : 0 < exact beta) : 0 < exact beta * ttl :=
  mul_pos hbeta (Int.cast_pos.2 httl)

theorem draws_eq (httl : 0 < ttl) (hbeta : 0 < exact beta) :
    draws beta ts ttl now = Set.Ico (Real.exp ((ts + ttl - now) / (exact beta * ttl))) 1 := by
  ext draw
  have hgap : ts + ttl - now = -(now - (ts + ttl)) := (neg_sub _ _).symm
  rw [hgap]
  constructor
  · rintro ⟨⟨hpos, hlt⟩, h⟩
    rw [shouldRecompute_eq hpos, Except.ok.injEq, decide_eq_true_eq,
      neg_mul_log_le_iff (scale_pos httl hbeta) hpos] at h
    exact ⟨h, hlt⟩
  · rintro ⟨hle, hlt⟩
    have hpos : 0 < draw := (Real.exp_pos _).trans_le hle
    refine ⟨⟨hpos, hlt⟩, ?_⟩
    rw [shouldRecompute_eq hpos, Except.ok.injEq, decide_eq_true_eq,
      neg_mul_log_le_iff (scale_pos httl hbeta) hpos]
    exact hle

/-- Until it expires, an entry is not computed again. -/
theorem draws_eq_empty (httl : 0 < ttl) (hbeta : 0 < exact beta) (hnow : now ≤ ts + ttl) :
    draws beta ts ttl now = ∅ := by
  rw [draws_eq httl hbeta, Set.Ico_eq_empty_iff, not_lt]
  apply Real.one_le_exp
  exact div_nonneg (sub_nonneg.2 hnow) (scale_pos httl hbeta).le

/-- A decorated function serves an entry of its own until it expires, whatever is drawn. -/
theorem again_early {α ε : Type} {d : Decorator ℝ α} {call : Call ℝ α ε} {value : Value ℝ}
    {entries : List (Value ℝ × Value ℝ)} (hentries : payload value ts ttl = .dict entries)
    (httl : 0 < ttl) (hbeta : 0 < exact d.beta) (hdraw : call.draw ∈ Set.Ioo 0 1)
    (hnow : call.now ≤ ts + ttl) : again reals d call entries = .ok false := by
  obtain ⟨entries', hentries', -, hts, httlEntry⟩ := lookUp_val value ts ttl
  obtain rfl : entries' = entries := Value.dict.inj (hentries'.symm.trans hentries)
  have hnot : call.draw ∉ draws d.beta ts ttl call.now := by
    rw [draws_eq_empty httl hbeta hnow]
    exact Set.notMem_empty _
  rw [again, storedTs, storedTtl, hts, httlEntry, Option.getD_some, Option.getD_some]
  have hfalse : shouldRecompute reals call.now call.draw d.beta (.float ts) (.int ttl) ≠ .ok true :=
    fun h => hnot ⟨hdraw, h⟩
  rw [shouldRecompute_eq hdraw.1] at hfalse ⊢
  rw [Ne, Except.ok.injEq, Bool.not_eq_true] at hfalse
  rw [hfalse]

/-- Afterwards the small draws still leave it as it is. -/
theorem not_subset_draws (httl : 0 < ttl) (hbeta : 0 < exact beta) :
    ¬ Set.Ioo 0 1 ⊆ draws beta ts ttl now := by
  intro h
  have hexp := Real.exp_pos ((ts + ttl - now) / (exact beta * ttl))
  have hsmall : min (Real.exp ((ts + ttl - now) / (exact beta * ttl))) 1 / 2 ∈ Set.Ioo (0 : ℝ) 1 := by
    constructor
    · exact half_pos (lt_min hexp one_pos)
    · linarith [min_le_right (Real.exp ((ts + ttl - now) / (exact beta * ttl))) 1]
  have hmem := h hsmall
  rw [draws_eq httl hbeta] at hmem
  have hle := min_le_left (Real.exp ((ts + ttl - now) / (exact beta * ttl))) 1
  linarith [hmem.1]

theorem draws_mono (httl : 0 < ttl) (hbeta : 0 < exact beta) (hnow : now ≤ now') :
    draws beta ts ttl now ⊆ draws beta ts ttl now' := by
  rw [draws_eq httl hbeta, draws_eq httl hbeta]
  apply Set.Ico_subset_Ico_left
  apply Real.exp_le_exp.2
  exact div_le_div_of_nonneg_right (by linarith) (scale_pos httl hbeta).le

/-- A larger `beta` refreshes less. -/
theorem draws_anti (httl : 0 < ttl) (hbeta : 0 < exact beta) (hle : exact beta ≤ exact beta') :
    draws beta' ts ttl now ⊆ draws beta ts ttl now := by
  have httlR : (0 : ℝ) < ttl := Int.cast_pos.2 httl
  by_cases hnow : now ≤ ts + ttl
  · rw [draws_eq_empty httl (hbeta.trans_le hle) hnow]
    exact Set.empty_subset _
  · rw [draws_eq httl hbeta, draws_eq httl (hbeta.trans_le hle)]
    apply Set.Ico_subset_Ico_left
    apply Real.exp_le_exp.2
    have hscale : exact beta * ttl ≤ exact beta' * ttl := mul_le_mul_of_nonneg_right hle httlR.le
    have hdiv := div_le_div_of_nonneg_left (sub_nonneg.2 (not_le.1 hnow).le)
      (scale_pos httl hbeta) hscale
    rw [← neg_sub now, neg_div, neg_div]
    exact neg_le_neg hdiv

/-- No entry is protected at any moment: an early draw never refreshes it, and
afterwards only the draws from a bound on do. They grow with the clock, but a
larger `beta` leaves less of them. -/
theorem prevents_never (beta : Number ℝ) (ts : ℝ) (ttl : ℤ) (now : ℝ) (httl : 0 < ttl)
    (hbeta : 0 < exact beta) :
    ¬ Prevents beta ts ttl now ∧
      draws beta ts ttl now = Set.Ico (Real.exp ((ts + ttl - now) / (exact beta * ttl))) 1 ∧
      (∀ now', now ≤ now' → draws beta ts ttl now ⊆ draws beta ts ttl now') ∧
      ∀ beta', exact beta ≤ exact beta' → draws beta' ts ttl now ⊆ draws beta ts ttl now := by
  refine ⟨?_, draws_eq httl hbeta, fun _ => draws_mono httl hbeta, fun _ => draws_anti httl hbeta⟩
  intro h
  obtain hearly | hlate := lt_or_ge now (ts + ttl)
  · have hsome := h.early hearly
    rw [draws_eq_empty httl hbeta hearly.le] at hsome
    exact Set.not_nonempty_empty hsome
  · exact not_subset_draws httl hbeta (h.late hlate)

theorem prevents_never_default :
    ¬ Prevents (.float 1) 1000 300 1100 ∧
      draws (.float 1) 1000 300 1100 =
        Set.Ico (Real.exp ((1000 + (300 : ℤ) - 1100) / (exact (.float 1) * (300 : ℤ)))) 1 := by
  have hbeta : (0 : ℝ) < exact (.float 1) := by norm_num [exact]
  obtain ⟨hnot, hdraws, -⟩ := prevents_never (.float 1) 1000 300 1100 (by decide) hbeta
  exact ⟨hnot, hdraws⟩

/-- Half a minute before its end, an entry of one minute is refreshed by no draw. -/
theorem prevents_not_halfway :
    ¬ (∀ (ts : ℝ) (ttl : ℤ) (beta : Number ℝ), 0 < ttl → 0 < exact beta →
      (∀ now, ts ≤ now → now < ts + ttl → (draws beta ts ttl now).Nonempty) ∧
      (∀ now now', now ≤ now' → draws beta ts ttl now ⊆ draws beta ts ttl now') ∧
      (∀ now beta', exact beta ≤ exact beta' → draws beta ts ttl now ⊆ draws beta' ts ttl now) ∧
      (∀ now, ts + ttl ≤ now → Set.Ioo 0 1 ⊆ draws beta ts ttl now)) := by
  intro h
  have hbeta : (0 : ℝ) < exact (.float 1) := by norm_num [exact]
  have hsome := (h 0 60 (.float 1) (by decide) hbeta).1 30 (by norm_num) (by norm_num)
  rw [draws_eq_empty (by decide) hbeta (by norm_num)] at hsome
  exact Set.not_nonempty_empty hsome

end EvalEngine.EarlyRefresh
