import EvalEngine.Exceptions

namespace EvalEngine.RunModel

open EvalEngine.JsonValues EvalEngine.Exceptions

abbrev Time := Nat

inductive RunStatus
  | pending
  | running
  | completed
  | failed
  | cancelled
  deriving DecidableEq, Repr

def RunStatus.value : RunStatus → String
  | .pending => "pending"
  | .running => "running"
  | .completed => "completed"
  | .failed => "failed"
  | .cancelled => "cancelled"

def RunStatus.isTerminal : RunStatus → Bool
  | .completed | .failed | .cancelled => true
  | .pending | .running => false

structure EvaluationRun where
  id : UUID
  submissionId : UUID
  configId : Option UUID
  organizationId : UUID
  triggeredById : Option UUID
  status : RunStatus := .pending
  version : Nat := 1
  startedAt : Option Time := none
  completedAt : Option Time := none
  totalWorkers : Nat := 0
  completedWorkers : Nat := 0
  failedWorkers : Nat := 0
  overallScore : Option ℚ := none
  errorMessage : Option String := none
  celeryTaskId : Option String := none
  configSnapshot : Dict := []
  runMetadata : Dict := []
  createdAt : Time
  updatedAt : Time
  deletedAt : Option Time := none

def EvaluationRun.isTerminal (run : EvaluationRun) : Bool := run.status.isTerminal

/-- The columns that the callers of the repository pass as keyword values. -/
structure RunValues where
  status : Option RunStatus := none
  startedAt : Option Time := none
  completedAt : Option Time := none
  totalWorkers : Option Nat := none
  completedWorkers : Option Nat := none
  failedWorkers : Option Nat := none
  overallScore : Option ℚ := none
  errorMessage : Option String := none

def RunValues.apply (values : RunValues) (run : EvaluationRun) : EvaluationRun :=
  { run with
    status := values.status.getD run.status
    startedAt := values.startedAt.or run.startedAt
    completedAt := values.completedAt.or run.completedAt
    totalWorkers := values.totalWorkers.getD run.totalWorkers
    completedWorkers := values.completedWorkers.getD run.completedWorkers
    failedWorkers := values.failedWorkers.getD run.failedWorkers
    overallScore := values.overallScore.or run.overallScore
    errorMessage := values.errorMessage.or run.errorMessage }

/-- `BaseRepository.exists`, for the row that carries the requested id. -/
def existsRow (row : Option EvaluationRun) : Bool := row.any (fun run => run.deletedAt.isNone)

/-- The WHERE clause of the versioned UPDATE. -/
def matchesVersion (expectedVersion : Nat) (run : EvaluationRun) : Bool :=
  decide (run.version = expectedVersion) && run.deletedAt.isNone

def concurrentModification (runId : UUID) (expectedVersion : Nat) : String :=
  "Concurrent modification detected on evaluation run " ++ uuidText runId ++
    ". Expected version " ++ toString expectedVersion ++
    " but it has been updated. Retry your operation."

/-- One UPDATE on the row with the given id, if there is one: compare the
version, write the values and bump the version. -/
def updateWithOptimisticLock (row : Option EvaluationRun) (runId : UUID)
    (expectedVersion : Nat) (now : Time) (values : RunValues) :
    Except PyException EvaluationRun :=
  match row.filter (matchesVersion expectedVersion) with
  | some run => .ok { values.apply run with version := expectedVersion + 1, updatedAt := now }
  | none =>
    if existsRow row then .error (.conflict (concurrentModification runId expectedVersion))
    else .error (.notFound "Evaluation run" runId)

def transitionValues (newStatus : RunStatus) (now : Time) (extra : RunValues) : RunValues :=
  { extra with
    status := some newStatus
    startedAt := if newStatus = .running then some now else extra.startedAt
    completedAt := if newStatus.isTerminal then some now else extra.completedAt }

def transitionStatus (row : Option EvaluationRun) (runId : UUID) (expectedVersion : Nat)
    (newStatus : RunStatus) (now : Time) (extra : RunValues) : Except PyException EvaluationRun :=
  updateWithOptimisticLock row runId expectedVersion now (transitionValues newStatus now extra)

theorem updateWithOptimisticLock_some (run : EvaluationRun) (runId : UUID) (v : Nat) (now : Time)
    (values : RunValues) (h : matchesVersion v run = true) :
    updateWithOptimisticLock (some run) runId v now values =
      .ok { values.apply run with version := v + 1, updatedAt := now } := by
  simp [updateWithOptimisticLock, Option.filter, h]

theorem updateWithOptimisticLock_miss (row : Option EvaluationRun) (runId : UUID) (v : Nat)
    (now : Time) (values : RunValues) (h : ∀ run ∈ row, matchesVersion v run = false) :
    ∃ e, updateWithOptimisticLock row runId v now values = .error e := by
  have hrow : row.filter (matchesVersion v) = none := by
    cases row with
    | none => rfl
    | some run => simp [Option.filter, h run rfl]
  cases hex : existsRow row with
  | true => exact ⟨_, by simp [updateWithOptimisticLock, hrow, hex]; rfl⟩
  | false => exact ⟨_, by simp [updateWithOptimisticLock, hrow, hex]; rfl⟩

theorem transitionStatus_live (run : EvaluationRun) (runId : UUID) (status : RunStatus) (now : Time)
    (extra : RunValues) (hdel : run.deletedAt = none) :
    ∃ run', transitionStatus (some run) runId run.version status now extra = .ok run' ∧
      run'.id = run.id ∧ run'.status = status ∧ run'.deletedAt = none ∧
      run'.configSnapshot = run.configSnapshot := by
  have hm : matchesVersion run.version run = true := by simp [matchesVersion, hdel]
  exact ⟨_, updateWithOptimisticLock_some run runId run.version now _ hm, rfl, rfl, hdel, rfl⟩

theorem transitionStatus_deleted (run : EvaluationRun) (runId : UUID) (status : RunStatus)
    (now : Time) (extra : RunValues) (hdel : run.deletedAt.isSome = true) :
    ∃ e, transitionStatus (some run) runId run.version status now extra = .error e := by
  refine updateWithOptimisticLock_miss _ runId run.version now _ ?_
  rintro r ⟨⟩
  simp [matchesVersion, Option.isNone_eq_false_iff.2 hdel]

end EvalEngine.RunModel
