import Mathlib.Logic.Basic

namespace EvalEngine.ThreeValued

/-- The truth values of SQL; `none` is NULL. -/
abbrev Truth := Option Bool

/-- `x != y`, where a comparison with NULL is NULL. -/
def ne {α : Type*} [DecidableEq α] (x y : Option α) : Truth :=
  match x, y with
  | some a, some b => some (decide (a ≠ b))
  | _, _ => none

def or : Truth → Truth → Truth
  | some true, _ | _, some true => some true
  | some false, some false => some false
  | _, _ => none

/-- A condition holds only where it is true, not where it is NULL. -/
def holds (p : Truth) : Bool := p == some true

@[simp]
theorem holds_or (p q : Truth) : holds (or p q) = (holds p || holds q) := by
  cases p with
  | none =>
    cases q with
    | none => rfl
    | some b => cases b <;> rfl
  | some a =>
    cases q with
    | none => cases a <;> rfl
    | some b => cases a <;> cases b <;> rfl

@[simp]
theorem holds_ne_some {α : Type*} [DecidableEq α] (a b : α) :
    holds (ne (some a) (some b)) = decide (a ≠ b) := by
  by_cases h : a = b <;> simp [holds, ne, h]

/-- A comparison that does not hold has a NULL on one side, or equal values. -/
theorem not_holds_ne {α : Type*} [DecidableEq α] {x y : Option α} (h : holds (ne x y) = false) :
    ∀ a ∈ x, ∀ b ∈ y, a = b := by
  rintro a rfl b rfl
  simpa using h

end EvalEngine.ThreeValued
