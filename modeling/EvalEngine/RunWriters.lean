import EvalEngine.RunModel
import EvalEngine.Transitions
import Mathlib.Logic.Function.Basic

namespace EvalEngine.RunWriters

open EvalEngine.JsonValues EvalEngine.Exceptions EvalEngine.RunModel

/-- What `trigger_evaluation` passes to the constructor of the new row. -/
structure TriggerRequest where
  submissionId : UUID
  configId : Option UUID
  organizationId : UUID
  userId : UUID
  configSnapshot : Dict
  runMetadata : Dict
  taskId : String

def TriggerRequest.newRun (req : TriggerRequest) (runId : UUID) (now : Time) : EvaluationRun :=
  { id := runId
    submissionId := req.submissionId
    configId := req.configId
    organizationId := req.organizationId
    triggeredById := some req.userId
    celeryTaskId := some req.taskId
    configSnapshot := req.configSnapshot
    runMetadata := req.runMetadata
    createdAt := now
    updatedAt := now }

/-- The writers of one run that read first and write later. -/
inductive Writer
  | triggerEvaluation (req : TriggerRequest) (now : Time)
  | prepareRun (now : Time)
  | failRun (error : String) (now : Time)
  | finalize (finalScore : ℚ) (completedWorkers failedWorkers : Nat) (now : Time)
  | cancelEvaluationRun (orgId : UUID) (now : Time)

/-- The SELECT of a writer with the guard behind it: the version it will work
from, or nothing when the writer stops without an UPDATE. A finalizer exists
only once `evaluate_submission` has published the pipeline. -/
def Writer.select (dispatched : Bool) : Writer → Option EvaluationRun → Option Nat
  | .triggerEvaluation _ _, row => if row.isNone then some 0 else none
  | .prepareRun _, row | .failRun _ _, row =>
    (row.filter (fun run => !run.isTerminal)).map EvaluationRun.version
  | .finalize _ _ _ _, row =>
    (row.filter (fun run => !run.isTerminal && dispatched)).map EvaluationRun.version
  | .cancelEvaluationRun orgId _, row =>
    (row.filter (fun run => decide (run.organizationId = orgId) && run.deletedAt.isNone &&
      !run.isTerminal)).map EvaluationRun.version

/-- Keep the old row when the versioned UPDATE raises: the transaction rolls back. -/
def orRollback (row : Option EvaluationRun) :
    Except PyException EvaluationRun → Option EvaluationRun
  | .ok run => some run
  | .error _ => row

/-- The ORM flush of `cancel_evaluation_run`: UPDATE ... WHERE id, no version. -/
def cancelFlush (now : Time) (run : EvaluationRun) : EvaluationRun :=
  { run with status := .cancelled, completedAt := some now, updatedAt := now }

/-- The write of a writer that read `version`, on the row as it is committed now. -/
def Writer.write (runId : UUID) (version : Nat) : Writer → Option EvaluationRun → Option EvaluationRun
  | .triggerEvaluation req now, row => row.or (some (req.newRun runId now))
  | .prepareRun now, row =>
    orRollback row (transitionStatus row runId version .running now { totalWorkers := some 4 })
  | .failRun error now, row =>
    orRollback row (transitionStatus row runId version .failed now { errorMessage := some error })
  | .finalize finalScore completed failed now, row =>
    orRollback row (transitionStatus row runId version .completed now
      { overallScore := some finalScore
        completedWorkers := some completed
        failedWorkers := some failed })
  | .cancelEvaluationRun _ now, row => row.map (cancelFlush now)

def staleRunHours : Nat := 24

def staleMessage : String :=
  "Run exceeded 24h timeout — marked as failed by cleanup worker"

/-- The bulk UPDATE of `_cleanup_stale_runs`, which neither compares nor bumps
the version. -/
def cleanupStaleRuns (now : Time) (run : EvaluationRun) : EvaluationRun :=
  if !run.isTerminal && decide (run.createdAt < now - staleRunHours * 3600) then
    { run with
      status := .failed
      errorMessage := some staleMessage
      completedAt := some now
      updatedAt := now }
  else run

structure InFlight where
  writer : Writer
  version : Nat

structure Store where
  row : Option EvaluationRun := none
  inFlight : Nat → Option InFlight := fun _ => none
  dispatched : Bool := false

def start : Store := {}

inductive Action
  | begin (tx : Nat) (writer : Writer)
  | commit (tx : Nat)
  | rollback (tx : Nat)
  | cleanup (now : Time)

/-- `evaluate_submission` publishes its pipeline only behind a committed
transition to RUNNING. -/
def publishes (f : InFlight) (row : Option EvaluationRun) : Bool :=
  match f.writer with
  | .prepareRun _ => row.any (matchesVersion f.version)
  | _ => false

def step (runId : UUID) (s : Store) : Action → Option Store
  | .begin tx w =>
    match s.inFlight tx, w.select s.dispatched s.row with
    | none, some v => some { s with inFlight := Function.update s.inFlight tx (some ⟨w, v⟩) }
    | _, _ => none
  | .commit tx => (s.inFlight tx).map fun f =>
    { row := f.writer.write runId f.version s.row
      inFlight := Function.update s.inFlight tx none
      dispatched := s.dispatched || publishes f s.row }
  | .rollback tx => (s.inFlight tx).map fun _ =>
    { s with inFlight := Function.update s.inFlight tx none }
  | .cleanup now => some { s with row := s.row.map (cleanupStaleRuns now) }

end EvalEngine.RunWriters
