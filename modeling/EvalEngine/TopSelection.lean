import Mathlib.Data.List.Perm.Basic
import Mathlib.Order.Defs.PartialOrder

namespace EvalEngine.TopSelection

variable {α β : Type} [Preorder β] (f : α → β)

/-- Nothing that is left out is above anything that is chosen. -/
def Greatest (chosen left : List α) : Prop := ∀ a ∈ chosen, ∀ b ∈ left, f b ≤ f a

instance [DecidableLE β] (chosen left : List α) : Decidable (Greatest f chosen left) :=
  inferInstanceAs (Decidable (∀ a ∈ chosen, ∀ b ∈ left, f b ≤ f a))

/-- A selection of so many elements, the greatest ones. -/
structure Top (k : Nat) (xs chosen left : List α) : Prop where
  perm : xs.Perm (chosen ++ left)
  length : chosen.length = min k xs.length
  greatest : Greatest f chosen left

variable {f} {chosen left chosen' left' xs : List α}

theorem Greatest.nil_right : Greatest f chosen [] := by
  intro a _ b hb
  cases hb

/-- Whether a selection is one of the greatest can be seen from the values that it selects. -/
theorem Greatest.of_perm (h : Greatest f chosen left) (hperm : (chosen ++ left).Perm (chosen' ++ left'))
    (hmap : chosen.map f = chosen'.map f) : Greatest f chosen' left' := by
  have hvalues : (left.map f).Perm (left'.map f) := by
    have hall := hperm.map f
    rw [List.map_append, List.map_append, hmap] at hall
    exact (List.perm_append_left_iff _).1 hall
  intro a' ha' b' hb'
  obtain ⟨a, ha, hfa⟩ : ∃ a ∈ chosen, f a = f a' := by
    rw [← List.mem_map, hmap]
    exact List.mem_map_of_mem ha'
  obtain ⟨b, hb, hfb⟩ : ∃ b ∈ left, f b = f b' := by
    rw [← List.mem_map]
    exact hvalues.mem_iff.2 (List.mem_map_of_mem hb')
  rw [← hfa, ← hfb]
  exact h a ha b hb

theorem top_take {k : Nat} (h : Greatest f (xs.take k) (xs.drop k)) :
    Top f k xs (xs.take k) (xs.drop k) := by
  refine ⟨?_, List.length_take, h⟩
  rw [List.take_append_drop]

/-- The first elements are among the greatest if they have the values of a
selection of these. -/
theorem Top.greatest_take {k : Nat} (h : Top f k xs chosen left)
    (hmap : chosen.map f = (xs.take k).map f) : Greatest f (xs.take k) (xs.drop k) := by
  apply h.greatest.of_perm _ hmap
  rw [List.take_append_drop]
  exact h.perm.symm

end EvalEngine.TopSelection
