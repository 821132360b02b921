import Mathlib.Data.List.Perm.Basic

namespace EvalEngine.ExceptLists

variable {α β ε : Type} {f : α → Except ε β}

/-- A list goes through a fallible function exactly when its members do. -/
theorem forall₂_of_mapM {xs : List α} {ys : List β} :
    xs.mapM f = .ok ys ↔ List.Forall₂ (fun x y => f x = .ok y) xs ys := by
  induction xs generalizing ys with
  | nil =>
    rw [List.mapM_nil, List.forall₂_nil_left_iff]
    exact ⟨fun h => (Except.ok.inj h).symm, fun h => congrArg Except.ok h.symm⟩
  | cons x xs ih =>
    rw [List.mapM_cons, List.forall₂_cons_left_iff]
    cases hx : f x with
    | error e =>
      constructor
      · intro h
        cases h
      · rintro ⟨y, zs, hy, _⟩
        cases hy
    | ok y =>
      cases hxs : xs.mapM f with
      | error e =>
        constructor
        · intro h
          cases h
        · rintro ⟨y', zs, _, hzs, _⟩
          rw [← ih, hxs] at hzs
          cases hzs
      | ok zs =>
        constructor
        · intro h
          cases h
          exact ⟨y, zs, rfl, ih.1 hxs, rfl⟩
        · rintro ⟨y', zs', hy, hzs, rfl⟩
          rw [← ih, hxs] at hzs
          cases hy
          cases hzs
          rfl

/-- The results of a reordered list are the reordered results. -/
theorem mapM_perm {xs xs' : List α} {ys : List β} (hperm : xs'.Perm xs) (h : xs.mapM f = .ok ys) :
    ∃ ys', xs'.mapM f = .ok ys' ∧ ys'.Perm ys := by
  obtain ⟨ys', hys', hys⟩ := List.perm_comp_forall₂ hperm (forall₂_of_mapM.1 h)
  exact ⟨ys', forall₂_of_mapM.2 hys', hys⟩

theorem mapM_perm_rows {xs : List α} {ys ys' : List β} (hperm : ys'.Perm ys)
    (h : xs.mapM f = .ok ys) : ∃ xs' : List α, xs'.mapM f = .ok ys' ∧ xs'.Perm xs := by
  obtain ⟨xs', hxs', hxs⟩ := List.perm_comp_forall₂ hperm (forall₂_of_mapM.1 h).flip
  exact ⟨xs', forall₂_of_mapM.2 hxs'.flip, hxs⟩

theorem mapM_exists {xs : List α} {p : β → Prop} (h : ∀ x ∈ xs, ∃ y, f x = .ok y ∧ p y) :
    ∃ ys, xs.mapM f = .ok ys ∧ ∀ y ∈ ys, p y := by
  induction xs with
  | nil => exact ⟨[], rfl, by simp⟩
  | cons x xs ih =>
    obtain ⟨y, hy, hpy⟩ := h x List.mem_cons_self
    obtain ⟨ys, hys, hall⟩ := ih fun x' hx' => h x' (List.mem_cons_of_mem _ hx')
    refine ⟨y :: ys, forall₂_of_mapM.2 (.cons hy (forall₂_of_mapM.1 hys)), ?_⟩
    exact List.forall_mem_cons.2 ⟨hpy, hall⟩

end EvalEngine.ExceptLists
