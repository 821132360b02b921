import EvalEngine.Transitions
import Mathlib.Data.List.Nodup
import Mathlib.Data.List.Range
import Mathlib.Logic.Function.Basic

namespace EvalEngine.CompareAndSwap

open EvalEngine.Transitions

/-- Rows that carry a version, and calls that write the row of the version they expect. -/
structure Cell (ρ κ : Type*) where
  live : ρ → Bool
  version : ρ → Nat
  expected : κ → Nat
  apply : κ → ρ → ρ
  version_apply : ∀ call row, version (apply call row) = expected call + 1

inductive Reply (ρ : Type*)
  | written (row : ρ)
  | stale
  | missing

def Reply.row? {ρ : Type*} : Reply ρ → Option ρ
  | .written row => some row
  | _ => none

variable {ρ κ : Type*} (cell : Cell ρ κ)

/-- The compare and swap, on a row that is there. -/
def Cell.swap (row : ρ) (call : κ) : Option ρ :=
  if cell.live row = true ∧ cell.version row = cell.expected call then some (cell.apply call row)
  else none

/-- A whole call, taken at one moment. -/
def Cell.attempt (row : Option ρ) (call : κ) : Reply ρ :=
  match row.bind (cell.swap · call) with
  | some row' => .written row'
  | none => if row.any cell.live then .stale else .missing

/-- A finished call: the row on which its UPDATE evaluated the WHERE clause,
and the row that was committed when it ended. -/
structure Finished (ρ κ : Type*) where
  call : κ
  seen : Option ρ
  found : Option ρ
  reply : Reply ρ

/-- The moment of a finished call: its UPDATE, or the second query of one that
finds no live row any more. -/
def Finished.moment (e : Finished ρ κ) : Option ρ :=
  if e.found.any cell.live then e.seen else e.found

/-- One row and its clients. The one whose UPDATE has matched holds the lock of the row. -/
structure State (ρ κ : Type*) where
  row : Option ρ
  holder : Option (Nat × κ × ρ) := none
  missed : Nat → Option (κ × Option ρ) := fun _ => none
  finished : List (Finished ρ κ) := []

inductive Action (κ : Type*)
  | update (client : Nat) (call : κ)
  | lookUp (client : Nat)
  | commit (client : Nat)
  | rollback (client : Nat)

/-- The client is inside a call. -/
def State.busy (s : State ρ κ) (client : Nat) : Bool :=
  (s.missed client).isSome || s.holder.any (fun h => decide (h.1 = client))

def State.clear (s : State ρ κ) (client : Nat) : State ρ κ :=
  { s with missed := Function.update s.missed client none }

/-- An UPDATE evaluates its WHERE clause on the latest committed row. One that
matches waits for the lock, and one that does not is followed by a second query. -/
def step (s : State ρ κ) : Action κ → Option (State ρ κ)
  | .update client call =>
    if s.busy client then none
    else match s.row.bind (cell.swap · call), s.holder with
      | some row', none => some { s with holder := some (client, call, row') }
      | some _, some _ => none
      | none, _ =>
        some { s with missed := Function.update s.missed client (some (call, s.row)) }
  | .lookUp client => (s.missed client).map fun (call, seen) =>
    { s.clear client with
      finished := s.finished ++
        [⟨call, seen, s.row, if s.row.any cell.live then .stale else .missing⟩] }
  | .commit client =>
    match s.holder with
    | some (i, call, row') =>
      if i = client then
        some { s with
          row := some row'
          holder := none
          finished := s.finished ++ [⟨call, s.row, s.row, .written row'⟩] }
      else none
    | none => none
  | .rollback client =>
    some { s.clear client with holder := s.holder.filter (fun h => decide (h.1 ≠ client)) }

/-- The calls that have committed, in the order of their commits. -/
def committed (finished : List (Finished ρ κ)) : List κ :=
  (finished.filter (fun e => e.reply.row?.isSome)).map Finished.call

/-- The rows that have been committed, in that order. -/
def history (finished : List (Finished ρ κ)) : List ρ := finished.filterMap (fun e => e.reply.row?)

variable {cell} {row row' : ρ} {call : κ}

theorem swap_some : cell.swap row call = some row' ↔
    (cell.live row = true ∧ cell.version row = cell.expected call) ∧ cell.apply call row = row' := by
  simp [Cell.swap]

theorem any_live_of_swap {o : Option ρ} (h : o.bind (cell.swap · call) = some row') :
    o.any cell.live = true := by
  obtain ⟨row, rfl, hswap⟩ := Option.bind_eq_some_iff.1 h
  exact (swap_some.1 hswap).1.1

theorem attempt_swapped {o : Option ρ} (h : o.bind (cell.swap · call) = some row') :
    cell.attempt o call = .written row' := by
  simp [Cell.attempt, h]

theorem attempt_refused {o : Option ρ} (h : o.bind (cell.swap · call) = none) :
    cell.attempt o call = if o.any cell.live then .stale else .missing := by
  simp [Cell.attempt, h]

theorem attempt_missing_iff {o : Option ρ} :
    cell.attempt o call = .missing ↔ ∀ row ∈ o, cell.live row = false := by
  cases o with
  | none => simp [Cell.attempt]
  | some row =>
    cases hlive : cell.live row <;> cases hversion : decide (cell.version row = cell.expected call) <;>
      simp_all [Cell.attempt, Cell.swap]

theorem attempt_stale_iff {o : Option ρ} : cell.attempt o call = .stale ↔
    ∃ row ∈ o, cell.live row = true ∧ cell.version row ≠ cell.expected call := by
  cases o with
  | none => simp [Cell.attempt]
  | some row =>
    cases hlive : cell.live row <;> cases hversion : decide (cell.version row = cell.expected call) <;>
      simp_all [Cell.attempt, Cell.swap]

theorem attempt_version {o : Option ρ} (h : (cell.attempt o call).row? = some row') :
    cell.version row' = cell.expected call + 1 := by
  cases hswap : o.bind (cell.swap · call) with
  | some written =>
    rw [attempt_swapped hswap] at h
    cases h
    obtain ⟨row, _, hrow⟩ := Option.bind_eq_some_iff.1 hswap
    rw [← (swap_some.1 hrow).2, cell.version_apply]
  | none =>
    rw [attempt_refused hswap] at h
    split at h <;> cases h

theorem foldl_of_foldlM {calls : List κ} (h : calls.foldlM cell.swap row = some row') :
    calls.foldl (fun row call => cell.apply call row) row = row' := by
  induction calls generalizing row with
  | nil =>
    cases h
    rfl
  | cons call calls ih =>
    obtain ⟨mid, hmid, hrest⟩ := Option.bind_eq_some_iff.1 h
    rw [List.foldl_cons, (swap_some.1 hmid).2]
    exact ih hrest

/-- The versions that a sequential execution passes through. -/
theorem versions_of_foldlM {calls : List κ} (h : calls.foldlM cell.swap row = some row') :
    calls.map cell.expected = List.range' (cell.version row) calls.length ∧
      cell.version row' = cell.version row + calls.length := by
  induction calls generalizing row with
  | nil =>
    cases h
    exact ⟨rfl, rfl⟩
  | cons call calls ih =>
    obtain ⟨mid, hmid, hrest⟩ := Option.bind_eq_some_iff.1 h
    obtain ⟨⟨_, hversion⟩, happly⟩ := swap_some.1 hmid
    obtain ⟨hexpected, hlast⟩ := ih hrest
    have hnext : cell.version mid = cell.version row + 1 := by
      rw [← happly, cell.version_apply, hversion]
    rw [hnext] at hexpected hlast
    constructor
    · rw [List.map_cons, hexpected, ← hversion]
      rfl
    · rw [hlast, List.length_cons]
      omega

/-- The calls of a shared cell behave as if each were taken at one moment, and
those that commit as if they were taken one after the other. -/
structure Linearized (cell : Cell ρ κ) (row₀ : Option ρ) (s : State ρ κ) : Prop where
  outcome : ∀ e ∈ s.finished, e.reply = cell.attempt (e.moment cell) e.call
  sequential : ∀ row ∈ row₀, ∃ row', s.row = some row' ∧
    (committed s.finished).foldlM cell.swap row = some row'
  absent : row₀ = none → s.row = none ∧ committed s.finished = []

/-- A lock is held on the row that the UPDATE matched, and a call that has
missed would miss on what it has seen. -/
structure Inv (cell : Cell ρ κ) (row₀ : Option ρ) (s : State ρ κ) : Prop
    extends Linearized cell row₀ s where
  held : ∀ h ∈ s.holder, s.row.bind (cell.swap · h.2.1) = some h.2.2
  passed : ∀ client call seen, s.missed client = some (call, seen) →
    seen.bind (cell.swap · call) = none ∧ (s.row.any cell.live = true → seen.any cell.live = true)

variable {row₀ : Option ρ} {s t : State ρ κ}

theorem Linearized.versions (h : Linearized cell row₀ s) (hrow : row ∈ row₀) :
    (committed s.finished).map cell.expected =
      List.range' (cell.version row) (committed s.finished).length := by
  obtain ⟨row', _, hfold⟩ := h.sequential row hrow
  exact (versions_of_foldlM hfold).1

theorem map_version_history (finished : List (Finished ρ κ))
    (h : ∀ e ∈ finished, e.reply = cell.attempt (e.moment cell) e.call) :
    (history finished).map cell.version =
      (committed finished).map (fun call => cell.expected call + 1) := by
  induction finished with
  | nil => rfl
  | cons e finished ih =>
    have hrest := ih fun e' he' => h e' (List.mem_cons_of_mem _ he')
    cases hrow : e.reply.row? with
    | none => simpa [history, committed, hrow] using hrest
    | some written =>
      have hversion : cell.version written = cell.expected e.call + 1 := by
        apply attempt_version (o := e.moment cell)
        rw [← h e List.mem_cons_self, hrow]
      simpa [history, committed, hrow, hversion] using hrest

/-- Each commit takes the version up by one. -/
theorem Linearized.history (h : Linearized cell row₀ s) (hrow : row ∈ row₀) :
    (history s.finished).map cell.version =
      List.range' (cell.version row + 1) (history s.finished).length := by
  have hmap := map_version_history s.finished h.outcome
  have hlength := congrArg List.length hmap
  rw [List.length_map, List.length_map] at hlength
  rw [hmap, hlength, List.range'_succ_left, ← h.versions hrow, List.map_map]
  rfl

theorem inv_start (row₀ : Option ρ) : Inv cell row₀ { row := row₀ } := by
  refine ⟨⟨?_, ?_, fun h => ⟨h, rfl⟩⟩, ?_, ?_⟩
  · rintro e ⟨⟩
  · intro row hrow
    exact ⟨row, hrow, rfl⟩
  · rintro h ⟨⟩
  · rintro client call seen ⟨⟩

theorem committed_refused (finished : List (Finished ρ κ)) {e : Finished ρ κ}
    (h : e.reply.row? = none) : committed (finished ++ [e]) = committed finished := by
  simp [committed, h]

theorem committed_written (finished : List (Finished ρ κ)) {e : Finished ρ κ}
    (h : e.reply.row? = some row) : committed (finished ++ [e]) = committed finished ++ [e.call] := by
  simp [committed, h]

theorem clear_missed {client i : Nat} {call : κ} {seen : Option ρ}
    (h : (s.clear client).missed i = some (call, seen)) : s.missed i = some (call, seen) := by
  obtain ⟨_, hnone⟩ | hold := entry_update h
  · cases hnone
  · exact hold

/-- The UPDATE of one client changes nothing for the others. -/
theorem inv_update {client : Nat} (hinv : Inv cell row₀ s)
    (h : step cell s (.update client call) = some t) : Inv cell row₀ t := by
  simp only [step] at h
  split at h
  · cases h
  · split at h
    next row' hswap hfree =>
      cases h
      refine ⟨⟨hinv.outcome, hinv.sequential, hinv.absent⟩, ?_, hinv.passed⟩
      rintro h ⟨⟩
      exact hswap
    next => cases h
    next hswap =>
      cases h
      refine ⟨⟨hinv.outcome, hinv.sequential, hinv.absent⟩, hinv.held, ?_⟩
      intro i call' seen hmissed
      obtain ⟨_, hnew⟩ | hold := entry_update hmissed
      · cases hnew
        exact ⟨hswap, id⟩
      · exact hinv.passed i call' seen hold

theorem inv_lookUp {client : Nat} (hinv : Inv cell row₀ s)
    (h : step cell s (.lookUp client) = some t) : Inv cell row₀ t := by
  obtain ⟨⟨call, seen⟩, hmissed, rfl⟩ := Option.map_eq_some_iff.1 h
  obtain ⟨hmiss, hlive⟩ := hinv.passed client call seen hmissed
  have hrefused : (if s.row.any cell.live then Reply.stale else Reply.missing : Reply ρ).row? =
      none := by
    split <;> rfl
  refine ⟨⟨?_, ?_, ?_⟩, hinv.held, ?_⟩
  · intro e he
    obtain hold | hnew := List.mem_append.1 he
    · exact hinv.outcome e hold
    · rw [List.mem_singleton.1 hnew, Finished.moment]
      cases hany : s.row.any cell.live with
      | true => simp [attempt_refused hmiss, hlive hany]
      | false =>
        have hnone : s.row.bind (cell.swap · call) = none := by
          by_contra hsome
          obtain ⟨row', hswap⟩ := Option.ne_none_iff_exists'.1 hsome
          have hlive' := any_live_of_swap hswap
          rw [hany] at hlive'
          cases hlive'
        simp [attempt_refused hnone, hany]
  · intro row hrow
    obtain ⟨row', hrow', hfold⟩ := hinv.sequential row hrow
    refine ⟨row', hrow', ?_⟩
    rw [committed_refused _ hrefused]
    exact hfold
  · intro hnone
    refine ⟨(hinv.absent hnone).1, ?_⟩
    rw [committed_refused _ hrefused]
    exact (hinv.absent hnone).2
  · intro i call' seen' hi
    exact hinv.passed i call' seen' (clear_missed hi)

theorem inv_commit {client : Nat} (hinv : Inv cell row₀ s)
    (h : step cell s (.commit client) = some t) : Inv cell row₀ t := by
  simp only [step] at h
  split at h
  next i call written hholder =>
    split at h <;> cases h
    have hswap : s.row.bind (cell.swap · call) = some written := hinv.held _ hholder
    obtain ⟨old, hold, hwritten⟩ := Option.bind_eq_some_iff.1 hswap
    refine ⟨⟨?_, ?_, ?_⟩, by rintro h ⟨⟩, ?_⟩
    · intro e he
      obtain hold | hnew := List.mem_append.1 he
      · exact hinv.outcome e hold
      · rw [List.mem_singleton.1 hnew]
        simp [Finished.moment, attempt_swapped hswap]
    · intro row hrow
      obtain ⟨row', hrow', hfold⟩ := hinv.sequential row hrow
      obtain rfl : old = row' := by simpa [hold] using hrow'
      refine ⟨written, rfl, ?_⟩
      rw [committed_written _ rfl, List.foldlM_append, hfold]
      simpa using hwritten
    · intro hnone
      rw [(hinv.absent hnone).1] at hold
      cases hold
    · intro i call' seen hmissed
      obtain ⟨hmiss, hlive⟩ := hinv.passed i call' seen hmissed
      refine ⟨hmiss, fun _ => hlive ?_⟩
      rw [hold]
      exact (swap_some.1 hwritten).1.1
  next => cases h

theorem inv_step (s : State ρ κ) (a : Action κ) (t : State ρ κ) (hinv : Inv cell row₀ s)
    (_ : free s a) (h : step cell s a = some t) : Inv cell row₀ t := by
  cases a with
  | update client call => exact inv_update hinv h
  | lookUp client => exact inv_lookUp hinv h
  | commit client => exact inv_commit hinv h
  | rollback client =>
    cases h
    refine ⟨⟨hinv.outcome, hinv.sequential, hinv.absent⟩, ?_, ?_⟩
    · intro h hh
      exact hinv.held h (Option.filter_eq_some_iff.1 hh).1
    · intro i call' seen hi
      exact hinv.passed i call' seen (clear_missed hi)

/-- Every execution of a shared cell is linearizable. -/
theorem linearized_of_exec (h : Exec (step cell) free { row := row₀ } s) : Linearized cell row₀ s :=
  (h.invariant (inv_start row₀) inv_step).toLinearized

end EvalEngine.CompareAndSwap
