import Mathlib.Logic.Basic

namespace EvalEngine.Transactions

/-- An open transaction: the state its statements see, and whether one of
them has failed. -/
structure Transaction (σ : Type) where
  state : σ
  aborted : Bool := false

/-- Code that runs inside a transaction and can raise. -/
def Action (ε σ α : Type) := Transaction σ → Except ε α × Transaction σ

variable {ε σ α β : Type}

def Action.run (m : Action ε σ α) (t : Transaction σ) : Except ε α × Transaction σ := m t

instance : Monad (Action ε σ) where
  pure a := fun t => (.ok a, t)
  bind m k := fun t => match m t with
    | (.ok a, t') => k a t'
    | (.error e, t') => (.error e, t')

def raise (e : ε) : Action ε σ α := fun t => (.error e, t)

/-- A pure computation that raises. -/
def ofExcept : Except ε α → Action ε σ α
  | .ok a => pure a
  | .error e => raise e

/-- A value that depends on the state and takes no statement. -/
def observe (f : σ → α) : Action ε σ α := fun t => (.ok (f t.state), t)

/-- `try: m; except Exception: pass`. What `m` did to the transaction stays. -/
def suppress (m : Action ε σ Unit) : Action ε σ Unit := fun t => (.ok (), (m t).2)

/-- One statement. A statement that fails aborts the transaction, and in an
aborted transaction every statement fails with `failed`. -/
def statement (failed : ε) (f : σ → Except ε (α × σ)) : Action ε σ α := fun t =>
  if t.aborted then (.error failed, t)
  else match f t.state with
    | .ok (a, s) => (.ok a, { t with state := s })
    | .error e => (.error e, { t with aborted := true })

/-- COMMIT of an aborted transaction is a ROLLBACK. -/
def commit (before : σ) (t : Transaction σ) : σ := if t.aborted then before else t.state

/-- The whole transaction: COMMIT when the code returns, ROLLBACK when it raises. -/
def transact (m : Action ε σ α) (before : σ) : Except ε α × σ :=
  match m.run { state := before } with
  | (.ok a, t) => (.ok a, commit before t)
  | (.error e, _) => (.error e, before)

variable {m : Action ε σ α} {k : α → Action ε σ β} {t t' : Transaction σ} {a : α} {e : ε}

@[simp]
theorem run_pure (a : α) (t : Transaction σ) : (pure a : Action ε σ α).run t = (.ok a, t) := rfl

@[simp]
theorem run_raise (e : ε) (t : Transaction σ) : (raise e : Action ε σ α).run t = (.error e, t) :=
  rfl

@[simp]
theorem run_ofExcept (r : Except ε α) (t : Transaction σ) :
    (ofExcept r : Action ε σ α).run t = (r, t) := by
  cases r <;> rfl

@[simp]
theorem run_suppress (m : Action ε σ Unit) (t : Transaction σ) :
    (suppress m).run t = (.ok (), (m.run t).2) := rfl

theorem run_bind_ok (h : m.run t = (.ok a, t')) : (m >>= k).run t = (k a).run t' := by
  have hm : m t = (.ok a, t') := h
  change (match m t with | (.ok a, t') => k a t' | (.error e, t') => (.error e, t')) = k a t'
  rw [hm]

theorem run_bind_error (h : m.run t = (.error e, t')) : (m >>= k).run t = (.error e, t') := by
  have hm : m t = (.error e, t') := h
  change (match m t with | (.ok a, t') => k a t' | (.error e, t') => (.error e, t')) = _
  rw [hm]

section Statements

variable {failed : ε} {f : σ → Except ε (α × σ)} {s s' : σ}

theorem run_statement_ok (h : f s = .ok (a, s')) :
    (statement failed f).run { state := s } = (.ok a, { state := s' }) := by
  simp [statement, Action.run, h]

theorem run_statement_error (h : f s = .error e) :
    (statement failed f).run { state := s } = (.error e, { state := s, aborted := true }) := by
  simp [statement, Action.run, h]

end Statements

theorem transact_ok {s : σ} (h : m.run { state := s } = (.ok a, t)) :
    transact m s = (.ok a, commit s t) := by
  simp [transact, h]

theorem transact_error {s : σ} (h : m.run { state := s } = (.error e, t)) :
    transact m s = (.error e, s) := by
  simp [transact, h]

@[simp]
theorem commit_open (before s : σ) : commit before { state := s } = s := rfl

@[simp]
theorem commit_aborted (before s : σ) : commit before { state := s, aborted := true } = before :=
  rfl

end EvalEngine.Transactions
