import EvalEngine.CompareAndSwap
import EvalEngine.RunModel

namespace EvalEngine.OptimisticLock

open EvalEngine.Exceptions EvalEngine.RunModel EvalEngine.CompareAndSwap EvalEngine.Transitions

/-- A call of `update_with_optimistic_lock`, with what its keyword values do to the row. -/
structure Call where
  expectedVersion : Nat
  now : Time
  values : EvaluationRun → EvaluationRun

/-- The SET clause. Neither the version nor the time stamp can be among the
keyword values, and the row keeps its id. -/
def Call.apply (call : Call) (run : EvaluationRun) : EvaluationRun :=
  { call.values run with
    id := run.id
    version := call.expectedVersion + 1
    updatedAt := call.now }

def runCell : Cell EvaluationRun Call where
  live run := run.deletedAt.isNone
  version := EvaluationRun.version
  expected := Call.expectedVersion
  apply := Call.apply
  version_apply _ _ := rfl

variable (runId : UUID)

/-- What the caller gets: the row, or the exception that the second query chooses. -/
def answer (call : Call) : Reply EvaluationRun → Except PyException EvaluationRun
  | .written run => .ok run
  | .stale => .error (.conflict (concurrentModification runId call.expectedVersion))
  | .missing => .error (.notFound "Evaluation run" runId)

theorem filter_matches (row : Option EvaluationRun) (call : Call) :
    row.bind (runCell.swap · call) =
      (row.filter (matchesVersion call.expectedVersion)).map call.apply := by
  cases row with
  | none => rfl
  | some run =>
    cases hm : matchesVersion call.expectedVersion run with
    | true =>
      have hswap : runCell.live run = true ∧ runCell.version run = runCell.expected call := by
        simp only [matchesVersion, Bool.and_eq_true, decide_eq_true_eq] at hm
        exact ⟨hm.2, hm.1⟩
      simp only [Option.bind_some, Cell.swap, if_pos hswap, Option.filter, hm]
      rfl
    | false =>
      have hswap : ¬ (runCell.live run = true ∧ runCell.version run = runCell.expected call) := by
        rintro ⟨hlive, hversion⟩
        have htrue : matchesVersion call.expectedVersion run = true := by
          simp only [matchesVersion, Bool.and_eq_true, decide_eq_true_eq]
          exact ⟨hversion, hlive⟩
        rw [hm] at htrue
        cases htrue
      simp only [Option.bind_some, Cell.swap, if_neg hswap, Option.filter, hm]
      rfl

/-- The method of the repository, run alone, is a call taken at one moment. -/
theorem updateWithOptimisticLock_eq (row : Option EvaluationRun) (version : Nat) (now : Time)
    (values : RunValues) :
    updateWithOptimisticLock row runId version now values =
      answer runId ⟨version, now, values.apply⟩
        (runCell.attempt row ⟨version, now, values.apply⟩) := by
  have hswap := filter_matches row ⟨version, now, values.apply⟩
  unfold updateWithOptimisticLock
  cases hrow : row.filter (matchesVersion version) with
  | some run =>
    rw [hrow] at hswap
    rw [attempt_swapped hswap]
    rfl
  | none =>
    rw [hrow] at hswap
    rw [attempt_refused hswap]
    change (if existsRow row then _ else _) = answer _ _ (if existsRow row then _ else _)
    cases existsRow row <;> rfl

/-- The calls for one row: what each of them answers, and what becomes of the row. -/
structure Serialized (row₀ : Option EvaluationRun) (s : State EvaluationRun Call) : Prop where
  notFound : ∀ e ∈ s.finished,
    answer runId e.call e.reply = .error (.notFound "Evaluation run" runId) ↔
      ∀ run ∈ e.moment runCell, run.deletedAt.isSome = true
  conflict : ∀ e ∈ s.finished,
    answer runId e.call e.reply =
        .error (.conflict (concurrentModification runId e.call.expectedVersion)) ↔
      ∃ run ∈ e.moment runCell, run.deletedAt = none ∧ run.version ≠ e.call.expectedVersion
  unchanged : ∀ client t, step runCell s (.lookUp client) = some t → t.row = s.row
  versions : ∀ run ∈ row₀, (history s.finished).map EvaluationRun.version =
    List.range' (run.version + 1) (history s.finished).length
  once : ((committed s.finished).map Call.expectedVersion).Nodup
  final : s.row = row₀.map fun run =>
    (committed s.finished).foldl (fun run call => call.apply run) run

variable {runId}

theorem answer_notFound_iff {call : Call} {reply : Reply EvaluationRun} :
    answer runId call reply = .error (.notFound "Evaluation run" runId) ↔ reply = .missing := by
  cases reply <;> simp [answer]

theorem answer_conflict_iff {call : Call} {reply : Reply EvaluationRun} :
    answer runId call reply =
      .error (.conflict (concurrentModification runId call.expectedVersion)) ↔ reply = .stale := by
  cases reply <;> simp [answer]

theorem step_lookUp_row {s t : State EvaluationRun Call} {client : Nat}
    (h : step runCell s (.lookUp client) = some t) : t.row = s.row := by
  obtain ⟨_, _, rfl⟩ := Option.map_eq_some_iff.1 h
  rfl

variable {row₀ : Option EvaluationRun} {s : State EvaluationRun Call}

theorem final_of_linearized (h : Linearized runCell row₀ s) :
    s.row = row₀.map fun run =>
      (committed s.finished).foldl (fun run call => call.apply run) run := by
  cases hrow : row₀ with
  | none => exact (h.absent hrow).1
  | some run =>
    obtain ⟨run', hrun', hfold⟩ := h.sequential run hrow
    rw [hrun', ← foldl_of_foldlM hfold]
    rfl

theorem once_of_linearized (h : Linearized runCell row₀ s) :
    ((committed s.finished).map Call.expectedVersion).Nodup := by
  cases hrow : row₀ with
  | none =>
    rw [(h.absent hrow).2]
    exact List.nodup_nil
  | some run =>
    have hversions := h.versions (Option.mem_def.2 hrow)
    change ((committed s.finished).map runCell.expected).Nodup
    rw [hversions]
    exact List.nodup_range'

theorem serialized_of_linearized (h : Linearized runCell row₀ s) : Serialized runId row₀ s := by
  refine ⟨?_, ?_, fun _ _ => step_lookUp_row, ?_, once_of_linearized h, final_of_linearized h⟩
  · intro e he
    rw [answer_notFound_iff, h.outcome e he, attempt_missing_iff]
    simp [runCell]
  · intro e he
    rw [answer_conflict_iff, h.outcome e he, attempt_stale_iff]
    simp [runCell]
  · intro run hrun
    exact h.history hrun

/-- The optimistic lock among its own users. -/
def OptimisticLocking (runId : UUID) : Prop :=
  ∀ row₀ s, Exec (step runCell) free { row := row₀ } s → Serialized runId row₀ s

theorem optimisticLocking (runId : UUID) : OptimisticLocking runId := by
  intro row₀ s h
  exact serialized_of_linearized (linearized_of_exec h)

end EvalEngine.OptimisticLock
