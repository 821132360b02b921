import Mathlib.Data.Set.Function
import Mathlib.Logic.Function.Basic

namespace EvalEngine.ObjectErasure

variable {R K : Type}

/-- Rows in one store, and in another one the objects that they name, by key. -/
structure Stores (R K : Type) where
  rows : List R
  objects : K → Bool

/-- The objects of the rows are erased one after the other, those that `took` says. -/
def eraseAll [DecidableEq K] (keyOf : R → K) (took : K → Bool) : List R → (K → Bool) → K → Bool
  | [], objects => objects
  | r :: rs, objects => eraseAll keyOf took rs
      (if took (keyOf r) then Function.update objects (keyOf r) false else objects)

/-- A row and its object go together or stay together. -/
structure Together (keyOf : R → K) (before after : Stores R K) : Prop where
  gone : ∀ r ∈ before.rows, r ∉ after.rows → after.objects (keyOf r) = false
  kept : ∀ r ∈ after.rows, before.objects (keyOf r) = true → after.objects (keyOf r) = true

variable [DecidableEq K] {keyOf : R → K} {took : K → Bool} {rows handled : List R} {objects : K → Bool}

theorem eraseAll_eq_false {k : K} : eraseAll keyOf took handled objects k = false ↔
    objects k = false ∨ took k = true ∧ ∃ r ∈ handled, keyOf r = k := by
  induction handled generalizing objects with
  | nil => simp [eraseAll]
  | cons r rs ih =>
    rw [eraseAll, ih]
    by_cases hkey : keyOf r = k
    · subst hkey
      cases htook : took (keyOf r) with
      | true => simp
      | false => simp
    · cases htook : took (keyOf r) with
      | true => simp [hkey, Function.update_of_ne (Ne.symm hkey)]
      | false => simp [hkey]

theorem eraseAll_eq_true {k : K} (hk : ∀ r ∈ handled, keyOf r ≠ k) (h : objects k = true) :
    eraseAll keyOf took handled objects k = true := by
  rw [← Bool.not_eq_false, eraseAll_eq_false]
  rintro (hfalse | ⟨_, r, hr, hkey⟩)
  · rw [h] at hfalse
    cases hfalse
  · exact hk r hr hkey

omit [DecidableEq K] in
theorem together_refl (before : Stores R K) : Together keyOf before before :=
  ⟨fun _ hr hgone => absurd hr hgone, fun _ _ h => h⟩

/-- The rows are removed, and with them as many objects as can be. -/
theorem together_removed_iff {expired : R → Bool} (hinj : Set.InjOn keyOf {r | r ∈ rows}) :
    Together keyOf ⟨rows, objects⟩
        ⟨rows.filter fun r => !expired r, eraseAll keyOf took (rows.filter expired) objects⟩ ↔
      ∀ r ∈ rows, expired r = true → objects (keyOf r) = true → took (keyOf r) = true := by
  constructor
  · intro h r hr hexpired hpresent
    have hgone := h.gone r hr (by simp [hexpired])
    obtain habsent | ⟨htook, _⟩ := eraseAll_eq_false.1 hgone
    · rw [hpresent] at habsent
      cases habsent
    · exact htook
  · intro h
    constructor
    · intro r hr hgone
      have hexpired : expired r = true := by simpa [hr] using hgone
      apply eraseAll_eq_false.2
      cases hpresent : objects (keyOf r) with
      | false => exact .inl rfl
      | true => exact .inr ⟨h r hr hexpired hpresent, r, List.mem_filter.2 ⟨hr, hexpired⟩, rfl⟩
    · intro r hr hpresent
      obtain ⟨hmem, hlive⟩ := List.mem_filter.1 hr
      apply eraseAll_eq_true _ hpresent
      intro other hother hkey
      obtain ⟨hmem', hexpired⟩ := List.mem_filter.1 hother
      obtain rfl := hinj hmem' hmem hkey
      rw [hexpired] at hlive
      cases hlive

/-- The rows stay after all. -/
theorem together_kept_iff (hhandled : ∀ r ∈ handled, r ∈ rows) :
    Together keyOf ⟨rows, objects⟩ ⟨rows, eraseAll keyOf took handled objects⟩ ↔
      ∀ r ∈ handled, objects (keyOf r) = true → took (keyOf r) = false := by
  constructor
  · intro h r hr hpresent
    have hkept : eraseAll keyOf took handled objects (keyOf r) = true :=
      h.kept r (hhandled r hr) hpresent
    rw [← Bool.not_eq_true]
    intro htook
    have hgone : eraseAll keyOf took handled objects (keyOf r) = false :=
      eraseAll_eq_false.2 (.inr ⟨htook, r, hr, rfl⟩)
    rw [hgone] at hkept
    cases hkept
  · intro h
    refine ⟨fun r hr hgone => absurd hr hgone, ?_⟩
    intro r _ (hpresent : objects (keyOf r) = true)
    rw [← Bool.not_eq_false, eraseAll_eq_false]
    rintro (hfalse | ⟨htook, other, hother, hkey⟩)
    · rw [hpresent] at hfalse
      cases hfalse
    · rw [← hkey] at hpresent htook
      rw [h other hother hpresent] at htook
      cases htook

end EvalEngine.ObjectErasure
