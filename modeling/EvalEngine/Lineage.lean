import Mathlib.Data.List.Basic

namespace EvalEngine.Lineage

variable {α : Type*}

/-- What a history makes of a list of rows: every row is kept, up to `R`, and
every later row is a kept one or has `P`. -/
structure Grown (R : α → α → Prop) (P : α → Prop) (xs ys : List α) : Prop where
  kept : ∀ x ∈ xs, ∃ y ∈ ys, R x y
  origin : ∀ y ∈ ys, (∃ x ∈ xs, R x y) ∨ P y

variable {R : α → α → Prop} {P Q : α → Prop} {xs ys zs : List α}

theorem Grown.refl (hR : ∀ x, R x x) (xs : List α) : Grown R P xs xs where
  kept x hx := ⟨x, hx, hR x⟩
  origin y hy := .inl ⟨y, hy, hR y⟩

theorem Grown.mono (h : Grown R P xs ys) (hPQ : ∀ y, P y → Q y) : Grown R Q xs ys where
  kept := h.kept
  origin y hy := (h.origin y hy).imp_right (hPQ y)

theorem Grown.trans (hR : ∀ {x y z}, R x y → R y z → R x z) (hP : ∀ {y z}, P y → R y z → P z)
    (h : Grown R P xs ys) (h' : Grown R P ys zs) : Grown R P xs zs := by
  constructor
  · intro x hx
    obtain ⟨y, hy, hxy⟩ := h.kept x hx
    obtain ⟨z, hz, hyz⟩ := h'.kept y hy
    exact ⟨z, hz, hR hxy hyz⟩
  · intro z hz
    cases h'.origin z hz with
    | inr hnew => exact .inr hnew
    | inl hold =>
      obtain ⟨y, hy, hyz⟩ := hold
      cases h.origin y hy with
      | inr hnew => exact .inr (hP hnew hyz)
      | inl hold =>
        obtain ⟨x, hx, hxy⟩ := hold
        exact .inl ⟨x, hx, hR hxy hyz⟩

theorem grown_map {f : α → α} (hf : ∀ x ∈ xs, R x (f x)) : Grown R P xs (xs.map f) := by
  constructor
  · intro x hx
    exact ⟨f x, List.mem_map_of_mem hx, hf x hx⟩
  · intro y hy
    obtain ⟨x, hx, rfl⟩ := List.mem_map.1 hy
    exact .inl ⟨x, hx, hf x hx⟩

theorem grown_append (hR : ∀ x, R x x) {added : List α} (hadded : ∀ y ∈ added, P y) :
    Grown R P xs (xs ++ added) := by
  constructor
  · intro x hx
    exact ⟨x, List.mem_append_left _ hx, hR x⟩
  · intro y hy
    cases List.mem_append.1 hy with
    | inl hold => exact .inl ⟨y, hold, hR y⟩
    | inr hnew => exact .inr (hadded y hnew)

/-- What the kept rows and the new ones have, all later rows have. -/
theorem Grown.forall (h : Grown R P xs ys) (hP : ∀ y, P y → Q y)
    (hR : ∀ x y, R x y → Q x → Q y) (hxs : ∀ x ∈ xs, Q x) : ∀ y ∈ ys, Q y := by
  intro y hy
  cases h.origin y hy with
  | inr hnew => exact hP y hnew
  | inl hold =>
    obtain ⟨x, hx, hxy⟩ := hold
    exact hR x y hxy (hxs x hx)

end EvalEngine.Lineage
