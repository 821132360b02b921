import Mathlib.Algebra.Order.Group.Defs
import Mathlib.Algebra.Order.Sub.Basic
import Mathlib.Data.List.Count

namespace EvalEngine.SlidingWindow

variable {τ α : Type*}

/-- What holds of every nonempty suffix holds of the whole list and of the
suffixes of its tail. -/
theorem forall_suffix_cons {P : α → List α → Prop} {a : α} {l : List α} :
    (∀ x earlier, x :: earlier <:+ a :: l → P x earlier) ↔
      P a l ∧ ∀ x earlier, x :: earlier <:+ l → P x earlier := by
  constructor
  · intro h
    exact ⟨h a l List.suffix_rfl, fun x earlier hs => h x earlier (hs.trans (List.suffix_cons a l))⟩
  · rintro ⟨ha, hl⟩ x earlier hs
    cases List.suffix_cons_iff.1 hs with
    | inl heq =>
      cases heq
      exact ha
    | inr htail => exact hl x earlier htail

variable [AddCommGroup τ] [LinearOrder τ]

/-- How many moments of a history are less than `w` before `t` or later. A
history has the latest moment first. -/
def recent (w t : τ) (history : List τ) : ℕ := history.countP (fun s => t - w < s)

theorem recent_le_of_sublist {w t : τ} {xs ys : List τ} (h : List.Sublist xs ys) :
    recent w t xs ≤ recent w t ys := h.countP_le

/-- Every moment of the history found fewer than `L` in its window. -/
def Spaced (L : ℕ) (w : τ) (history : List τ) : Prop :=
  ∀ t earlier, t :: earlier <:+ history → recent w t earlier < L

theorem spaced_nil (L : ℕ) (w : τ) : Spaced L w [] := by
  intro t earlier h
  exact absurd h.length_le (by simp)

theorem spaced_cons {L : ℕ} {w t : τ} {earlier : List τ} :
    Spaced L w (t :: earlier) ↔ recent w t earlier < L ∧ Spaced L w earlier :=
  forall_suffix_cons (P := fun t earlier => recent w t earlier < L)

/-- A spaced history has at most `L` moments in any window of length `w`: the
last one of the window already found the others. -/
theorem Spaced.window_le [IsOrderedAddMonoid τ] {L : ℕ} {w : τ} {history : List τ} (h : Spaced L w history) (t : τ) :
    history.countP (fun s => t - w < s ∧ s ≤ t) ≤ L := by
  induction history with
  | nil => exact Nat.zero_le L
  | cons s earlier ih =>
    obtain ⟨hs, hearlier⟩ := spaced_cons.1 h
    by_cases hin : t - w < s ∧ s ≤ t
    · have hsub : s - w ≤ t - w := sub_le_sub_right hin.2 w
      have hcount : earlier.countP (fun s => t - w < s ∧ s ≤ t) ≤ recent w s earlier := by
        apply List.countP_mono_left
        intro x _ hx
        simp only [decide_eq_true_eq] at hx ⊢
        exact lt_of_le_of_lt hsub hx.1
      rw [List.countP_cons_of_pos (by simpa using hin)]
      omega
    · rw [List.countP_cons_of_neg (by simpa using hin)]
      exact ih hearlier

/-- The moments that found fewer than `L` moments in their window. -/
def uncrowded (L : ℕ) (w : τ) : List τ → List τ
  | [] => []
  | t :: earlier =>
    if L ≤ recent w t earlier then uncrowded L w earlier else t :: uncrowded L w earlier

theorem uncrowded_sublist (L : ℕ) (w : τ) (history : List τ) :
    List.Sublist (uncrowded L w history) history := by
  induction history with
  | nil => exact List.Sublist.refl []
  | cons t earlier ih =>
    rw [uncrowded]
    split
    · exact ih.cons t
    · exact ih.cons_cons t

end EvalEngine.SlidingWindow
