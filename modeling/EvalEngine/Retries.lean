import Mathlib.Data.List.Range

namespace EvalEngine.Retries

/-- A job that is taken up again until an attempt is done or its retries are used
up. The state is what the attempts leave behind. -/
structure Job (α σ : Type*) where
  done : α → Bool
  handle : Nat → α → σ → σ

variable {α σ : Type*}

/-- The attempts from the `k`-th on, of which `left` may follow it. -/
def Job.run (job : Job α σ) (attempts : Nat → α) : Nat → Nat → σ → Bool × σ
  | 0, k, s => (job.done (attempts k), job.handle k (attempts k) s)
  | left + 1, k, s =>
    if job.done (attempts k) then (true, job.handle k (attempts k) s)
    else job.run attempts left (k + 1) (job.handle k (attempts k) s)

/-- The attempt is made: it is permitted, and none before it is done. -/
def Job.Made (job : Job α σ) (attempts : Nat → α) (left k j : Nat) : Prop :=
  k ≤ j ∧ j ≤ k + left ∧ ∀ i, k ≤ i → i < j → job.done (attempts i) = false

variable {job : Job α σ} {attempts : Nat → α} {left k : Nat} {s : σ}

theorem made_first : job.Made attempts left k k :=
  ⟨Nat.le_refl _, Nat.le_add_right _ _, fun _ hi hlt => absurd hlt (Nat.not_lt.2 hi)⟩

theorem made_zero {j : Nat} : job.Made attempts 0 k j ↔ j = k := by
  constructor
  · rintro ⟨hle, hge, _⟩
    omega
  · rintro rfl
    exact made_first

/-- After a first attempt that is done, no other is made. -/
theorem made_of_done {j : Nat} (h : job.done (attempts k) = true) :
    job.Made attempts left k j ↔ j = k := by
  constructor
  · rintro ⟨hle, _, hundone⟩
    obtain hlt | hge := Nat.lt_or_ge k j
    · have hfirst := hundone k (Nat.le_refl _) hlt
      rw [h] at hfirst
      cases hfirst
    · exact Nat.le_antisymm hge hle
  · rintro rfl
    exact made_first

theorem made_succ {j : Nat} (h : job.done (attempts k) = false) :
    job.Made attempts (left + 1) k j ↔ j = k ∨ job.Made attempts left (k + 1) j := by
  constructor
  · rintro ⟨hle, hge, hundone⟩
    by_cases hj : j = k
    · exact .inl hj
    · exact .inr ⟨by omega, by omega, fun i hi hlt => hundone i (by omega) hlt⟩
  · rintro (rfl | ⟨hle, hge, hundone⟩)
    · exact made_first
    · refine ⟨by omega, by omega, ?_⟩
      intro i hi hlt
      by_cases hik : i = k
      · rw [hik]
        exact h
      · exact hundone i (by omega) hlt

theorem run_done : (job.run attempts left k s).1 = true ↔
    ∃ j, k ≤ j ∧ j ≤ k + left ∧ job.done (attempts j) = true := by
  induction left generalizing k s with
  | zero =>
    constructor
    · intro h
      exact ⟨k, Nat.le_refl _, Nat.le_refl _, h⟩
    · rintro ⟨j, hle, hge, hdone⟩
      obtain rfl : j = k := by omega
      exact hdone
  | succ left ih =>
    cases h : job.done (attempts k) with
    | true =>
      simp only [Job.run, h, if_true, true_iff]
      exact ⟨k, Nat.le_refl _, Nat.le_add_right _ _, h⟩
    | false =>
      simp only [Job.run, h, Bool.false_eq_true, if_false, ih]
      constructor
      · rintro ⟨j, hle, hge, hdone⟩
        exact ⟨j, by omega, by omega, hdone⟩
      · rintro ⟨j, hle, hge, hdone⟩
        have hne : j ≠ k := by
          rintro rfl
          rw [h] at hdone
          cases hdone
        exact ⟨j, by omega, by omega, hdone⟩

/-- What some attempts establish and none destroys holds in the end if and only
if it did before or an attempt that was made has established it. -/
theorem run_iff {P : σ → Prop} {Q : α → Prop}
    (hstep : ∀ j s, P (job.handle j (attempts j) s) ↔ P s ∨ Q (attempts j)) :
    P (job.run attempts left k s).2 ↔ P s ∨ ∃ j, job.Made attempts left k j ∧ Q (attempts j) := by
  induction left generalizing k s with
  | zero => simp [Job.run, hstep, made_zero]
  | succ left ih =>
    cases h : job.done (attempts k) with
    | true => simp [Job.run, h, hstep, made_of_done h]
    | false =>
      simp only [Job.run, h, Bool.false_eq_true, if_false, ih, hstep, made_succ h, or_and_right,
        exists_or, exists_eq_left, or_assoc]

/-- The invariant rule. -/
theorem run_invariant {P : σ → Prop} (hs : P s)
    (hstep : ∀ j s, P s → P (job.handle j (attempts j) s)) : P (job.run attempts left k s).2 := by
  induction left generalizing k s with
  | zero => exact hstep k s hs
  | succ left ih =>
    unfold Job.run
    split
    · exact hstep k s hs
    · exact ih (hstep k s hs)

/-- How many attempts are made. -/
def Job.count (job : Job α σ) (attempts : Nat → α) : Nat → Nat → Nat
  | 0, _ => 1
  | left + 1, k => if job.done (attempts k) then 1 else job.count attempts left (k + 1) + 1

theorem count_pos : 0 < job.count attempts left k := by
  cases left with
  | zero => exact Nat.one_pos
  | succ left =>
    rw [Job.count]
    split
    · exact Nat.one_pos
    · exact Nat.succ_pos _

theorem count_le : job.count attempts left k ≤ left + 1 := by
  induction left generalizing k with
  | zero => exact Nat.le_refl _
  | succ left ih =>
    rw [Job.count]
    split
    · omega
    · exact Nat.succ_le_succ ih

theorem made_iff_lt_count {j : Nat} :
    job.Made attempts left k j ↔ k ≤ j ∧ j < k + job.count attempts left k := by
  induction left generalizing k with
  | zero =>
    rw [made_zero, Job.count]
    omega
  | succ left ih =>
    cases h : job.done (attempts k) with
    | true =>
      rw [made_of_done h, Job.count, if_pos h]
      omega
    | false =>
      rw [made_succ h, ih, Job.count, h, if_neg Bool.false_ne_true]
      omega

/-- A job that keeps a record of its attempts. -/
theorem run_record {ρ : Type*} (job : Job α (List ρ)) (record : Nat → α → ρ) {s : List ρ}
    (hhandle : ∀ k a s, job.handle k a s = s ++ [record k a]) :
    (job.run attempts left k s).2 =
      s ++ (List.range' k (job.count attempts left k)).map fun j => record j (attempts j) := by
  induction left generalizing k s with
  | zero => rw [Job.run, hhandle, Job.count, List.range'_one, List.map_singleton]
  | succ left ih =>
    cases h : job.done (attempts k) with
    | true =>
      rw [Job.run, if_pos h, hhandle, Job.count, if_pos h, List.range'_one, List.map_singleton]
    | false =>
      rw [Job.run, h, if_neg Bool.false_ne_true, ih, hhandle, Job.count, h,
        if_neg Bool.false_ne_true, List.range'_succ, List.map_cons, List.append_assoc,
        List.singleton_append]

end EvalEngine.Retries
