import Mathlib.Logic.Function.Basic
import Mathlib.Logic.Relation

namespace EvalEngine.Transitions

variable {σ τ α : Type*}

/-- Finite executions of a partial step function in which every step meets
the guard `ok` in the state where it is taken. -/
inductive Exec (step : σ → α → Option σ) (ok : σ → α → Prop) : σ → σ → Prop
  | refl (s : σ) : Exec step ok s s
  | tail {s t u : σ} {a : α} (h : Exec step ok s t) (hok : ok t a)
      (hst : step t a = some u) : Exec step ok s u

/-- The guard of an execution that is not restricted at all. -/
def free : σ → α → Prop := fun _ _ => True

variable {step : σ → α → Option σ} {ok : σ → α → Prop} {s t u : σ}

theorem Exec.single {a : α} (hok : ok s a) (h : step s a = some t) : Exec step ok s t :=
  (Exec.refl s).tail hok h

theorem Exec.trans (h : Exec step ok s t) (k : Exec step ok t u) : Exec step ok s u := by
  induction k with
  | refl => exact h
  | tail _ hok hst ih => exact ih.tail hok hst

/-- The invariant rule: what the guarded steps preserve holds in every state
that a guarded execution reaches. -/
theorem Exec.invariant {P : σ → Prop} (hs : P s)
    (hstep : ∀ s a t, P s → ok s a → step s a = some t → P t)
    (h : Exec step ok s t) : P t := by
  induction h with
  | refl => exact hs
  | tail _ hok hst ih => exact hstep _ _ _ ih hok hst

/-- The history rule: a reflexive relation that absorbs one guarded step out
of states with the invariant `P` relates both ends of an execution. -/
theorem Exec.history {P : σ → Prop} {R : σ → σ → Prop} (hP : P s) (hR : R s s)
    (hinv : ∀ s a t, P s → ok s a → step s a = some t → P t)
    (hstep : ∀ t a u, P t → R s t → ok t a → step t a = some u → R s u)
    (h : Exec step ok s t) : R s t := by
  have hboth : P t ∧ R s t := by
    induction h with
    | refl => exact ⟨hP, hR⟩
    | tail _ hok hst ih =>
      exact ⟨hinv _ _ _ ih.1 hok hst, hstep _ _ _ ih.1 ih.2 hok hst⟩
  exact hboth.2

/-- The refinement rule: when every guarded step is matched by at most
finitely many steps of an abstract relation, so is every execution. -/
theorem Exec.refines {P : σ → Prop} (view : σ → τ) {R : τ → τ → Prop} (hP : P s)
    (hinv : ∀ s a t, P s → ok s a → step s a = some t → P t)
    (hstep : ∀ s a t, P s → ok s a → step s a = some t →
      Relation.ReflTransGen R (view s) (view t))
    (h : Exec step ok s t) : Relation.ReflTransGen R (view s) (view t) :=
  h.history (R := fun s t => Relation.ReflTransGen R (view s) (view t)) hP .refl hinv
    (fun t a u hPt hst hok hstp => hst.trans (hstep t a u hPt hok hstp))

/-- A state out of which the abstract relation has no step is never left. -/
theorem eq_of_stuck {R : τ → τ → Prop} {x y : τ} (hx : ∀ z, ¬ R x z)
    (h : Relation.ReflTransGen R x y) : y = x := by
  induction h with
  | refl => rfl
  | tail _ hbc ih => subst ih; exact absurd hbc (hx _)

/-- The entries of a table of clients after one of them is set. -/
theorem entry_update {κ : Type*} [DecidableEq κ] {m : κ → Option τ} {i j : κ} {o : Option τ} {x : τ}
    (h : Function.update m i o j = some x) : (j = i ∧ o = some x) ∨ m j = some x := by
  by_cases hj : j = i
  · subst hj
    exact .inl ⟨rfl, by simpa using h⟩
  · rw [Function.update_of_ne hj] at h
    exact .inr h

/-- Run a list of actions, failing where an action is not enabled. -/
def runList (step : σ → α → Option σ) : σ → List α → Option σ
  | s, [] => some s
  | s, a :: as => (step s a).bind (runList step · as)

theorem exec_of_runList {as : List α} (h : runList step s as = some t) :
    Exec step free s t := by
  induction as generalizing s with
  | nil =>
    simp only [runList, Option.some.injEq] at h
    exact h ▸ Exec.refl s
  | cons a as ih =>
    simp only [runList, Option.bind_eq_some_iff] at h
    obtain ⟨u, hu, hrest⟩ := h
    exact (Exec.single trivial hu).trans (ih hrest)

/-- Actions that the guard never stops. -/
theorem Exec.along (h : Exec step ok s t) {as : List α} (hok : ∀ a ∈ as, ∀ x, ok x a)
    (hrun : runList step t as = some u) : Exec step ok s u := by
  induction as generalizing t with
  | nil =>
    simp only [runList, Option.some.injEq] at hrun
    exact hrun ▸ h
  | cons a as ih =>
    simp only [runList, Option.bind_eq_some_iff] at hrun
    obtain ⟨v, hv, hrest⟩ := hrun
    exact ih (h.tail (hok a List.mem_cons_self t) hv) (fun b hb => hok b (List.mem_cons_of_mem a hb))
      hrest

theorem exec_get (step : σ → α → Option σ) (s : σ) (as : List α)
    (h : (runList step s as).isSome = true) :
    Exec step free s ((runList step s as).get h) :=
  exec_of_runList (Option.some_get h).symm

end EvalEngine.Transitions
