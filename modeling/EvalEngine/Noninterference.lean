import Mathlib.Data.List.Basic

namespace EvalEngine.Noninterference

variable {σ ε α β ρ : Type}

/-- Code that reads a state, leaves it alone and can raise. -/
abbrev Read (σ ε α : Type) := ReaderT σ (Except ε) α

def select (f : σ → α) : Read σ ε α := fun s => .ok (f s)

def refuse (e : ε) : Read σ ε α := fun _ => .error e

def lift (r : Except ε α) : Read σ ε α := fun _ => r

/-- Related states cannot be told apart by the outcome of the code. -/
def Respects (R : σ → σ → Prop) (m : Read σ ε α) : Prop := ∀ s t, R s t → m s = m t

variable {R : σ → σ → Prop} {m : Read σ ε α} {k : α → Read σ ε β}

theorem bind_run (m : Read σ ε α) (k : α → Read σ ε β) (s : σ) :
    (m >>= k) s = (m s).bind fun a => k a s := rfl

theorem respects_pure (a : α) : Respects R (pure a : Read σ ε α) := fun _ _ _ => rfl

theorem respects_refuse (e : ε) : Respects R (refuse e : Read σ ε α) := fun _ _ _ => rfl

theorem respects_lift (r : Except ε α) : Respects R (lift r : Read σ ε α) := fun _ _ _ => rfl

theorem respects_select {f : σ → α} (h : ∀ s t, R s t → f s = f t) :
    Respects R (select f : Read σ ε α) := by
  intro s t hst
  exact congrArg Except.ok (h s t hst)

theorem Respects.mono {R' : σ → σ → Prop} (hR : ∀ s t, R s t → R' s t) (h : Respects R' m) :
    Respects R m := fun s t hst => h s t (hR s t hst)

/-- Two computations in a row: the second may rely on what the first has
returned in both states. -/
theorem Respects.bind (hm : Respects R m)
    (hk : ∀ a, Respects (fun s t => R s t ∧ m s = .ok a ∧ m t = .ok a) (k a)) :
    Respects R (m >>= k) := by
  intro s t hst
  have hsame : m s = m t := hm s t hst
  rw [bind_run, bind_run, ← hsame]
  cases hs : m s with
  | error e => rfl
  | ok a => exact hk a s t ⟨hst, hs, hsame ▸ hs⟩

theorem Respects.seq (hm : Respects R m) (hk : ∀ a, Respects R (k a)) : Respects R (m >>= k) :=
  hm.bind fun a => (hk a).mono fun _ _ h => h.1

/-- The rows that two lists share decide every selection among them. -/
theorem filter_congr_of_filter {rows rows' : List ρ} {own p : ρ → Bool}
    (h : rows.filter own = rows'.filter own) (hp : ∀ row ∈ rows, p row = true → own row = true)
    (hp' : ∀ row ∈ rows', p row = true → own row = true) : rows.filter p = rows'.filter p := by
  have hown : ∀ l : List ρ, (∀ row ∈ l, p row = true → own row = true) →
      l.filter p = (l.filter own).filter p := by
    intro l hl
    rw [List.filter_filter]
    apply List.filter_congr
    intro row hrow
    cases hrowp : p row with
    | false => rfl
    | true => rw [hl row hrow hrowp]; rfl
  rw [hown rows hp, hown rows' hp', h]

/-- What is shared stays shared under a map that moves no row across the border. -/
theorem filter_map_of_fixed {rows : List ρ} {other : ρ → Bool} {f : ρ → ρ}
    (hf : ∀ row ∈ rows, f row = row ∨ other row = false ∧ other (f row) = false) :
    (rows.map f).filter other = rows.filter other := by
  induction rows with
  | nil => rfl
  | cons row rows ih =>
    have hrest := ih fun r hr => hf r (List.mem_cons_of_mem _ hr)
    obtain hfixed | ⟨hold, hnew⟩ := hf row List.mem_cons_self
    · rw [List.map_cons, hfixed, List.filter_cons, List.filter_cons, hrest]
    · rw [List.map_cons, List.filter_cons_of_neg (by simp [hnew]),
        List.filter_cons_of_neg (by simp [hold]), hrest]

end EvalEngine.Noninterference
