import EvalEngine.QueryResults
import EvalEngine.Transitions
import Mathlib.Logic.Function.Basic

namespace EvalEngine.BaseEvalTask

open EvalEngine.JsonValues EvalEngine.Exceptions EvalEngine.QueryResults

inductive WorkerStatus
  | pending
  | running
  | completed
  | failed
  deriving DecidableEq, Repr

structure WorkerResult where
  id : UUID
  organizationId : UUID
  workerId : Option String := none
  celeryTaskId : Option String := none
  status : WorkerStatus := .pending
  outputData : Dict := []
  errorMessage : Option String := none

/-- Where one invocation of `BaseEvalTask.run` stands: its transactions are
separate, and `_create_worker_result` reads before it writes. -/
inductive Phase
  | idle
  | started
  | checked
  | creating (existing : Option WorkerResult)
  | executing
  | completing (output : Dict)
  | completed (output : Dict)
  | failing (error : String)
  | returned (output : Dict)
  | raised
  | dead

/-- Inside the `try` block, where an exception leads to `_mark_failed`. -/
def Phase.inTry : Phase → Bool
  | .started | .checked | .creating _ | .executing | .completing _ | .completed _ => true
  | _ => false

structure Request where
  taskId : String
  hostname : String

/-- The live `worker_results` rows of one run and worker type, the counters of
the run, and all invocations of the task for that run. -/
structure State where
  organizationId : UUID
  rows : List WorkerResult := []
  nextId : UUID := 0
  completedWorkers : Nat
  failedWorkers : Nat
  request : Nat → Request := fun _ => ⟨"", "unknown"⟩
  phase : Nat → Phase := fun _ => .idle

def State.goto (s : State) (i : Nat) (p : Phase) : State :=
  { s with phase := Function.update s.phase i p }

/-- Follow the normal path of a statement, or leave the `try` block. -/
def State.orFail (s : State) (i : Nat) {α : Type} (k : α → State) : Except PyException α → State
  | .ok x => k x
  | .error _ => s.goto i (.failing "exception")

/-- `_check_idempotent`: the output of the completed row, unless it is falsy. -/
def checkIdempotent (rows : List WorkerResult) : Except PyException (Option Dict) :=
  (scalarOneOrNone (rows.filter (fun wr => decide (wr.status = .completed)))).map fun existing =>
    (existing.map WorkerResult.outputData).filter (fun output => !output.isEmpty)

def newRow (s : State) (req : Request) : WorkerResult :=
  { id := s.nextId
    organizationId := s.organizationId
    celeryTaskId := some req.taskId
    workerId := some req.hostname
    status := .running }

/-- An ORM attribute is part of the UPDATE only if it differs from the value
that was loaded. -/
def flushed {α : Type} [DecidableEq α] (loaded new current : α) : α :=
  if new = loaded then current else new

def flushRow (loaded : WorkerResult) (req : Request) (wr : WorkerResult) : WorkerResult :=
  if wr.id = loaded.id then
    { wr with
      status := flushed loaded.status .running wr.status
      celeryTaskId := flushed loaded.celeryTaskId (some req.taskId) wr.celeryTaskId
      workerId := flushed loaded.workerId (some req.hostname) wr.workerId }
  else wr

/-- The second half of `_create_worker_result`. -/
def createWrite (s : State) (req : Request) : Option WorkerResult → State
  | some loaded => { s with rows := s.rows.map (flushRow loaded req) }
  | none => { s with rows := s.rows ++ [newRow s req], nextId := s.nextId + 1 }

def markCompleted (s : State) (output : Dict) : State :=
  { s with
    rows := s.rows.map (fun wr => { wr with status := .completed, outputData := output })
    completedWorkers := s.completedWorkers + 1 }

def truncated (error : String) : String := String.ofList (error.toList.take 2000)

def markFailed (s : State) (error : String) : State :=
  { s with
    rows := s.rows.map (fun wr => { wr with status := .failed, errorMessage := some (truncated error) })
    failedWorkers := s.failedWorkers + 1 }

inductive Action
  | start (i : Nat) (req : Request)
  | checkIdempotent (i : Nat)
  | createRead (i : Nat)
  | createWrite (i : Nat)
  | execute (i : Nat) (outcome : Except String Dict)
  | markCompleted (i : Nat)
  | finish (i : Nat)
  | fault (i : Nat) (error : String)
  | markFailed (i : Nat)
  | markFailedError (i : Nat)
  | crash (i : Nat)

def step (s : State) : Action → Option State
  | .start i req =>
    match s.phase i with
    | .idle => some ({ s with request := Function.update s.request i req }.goto i .started)
    | _ => none
  | .checkIdempotent i =>
    match s.phase i with
    | .started => some (s.orFail i (fun cached =>
        match cached with
        | some output => s.goto i (.returned output)
        | none => s.goto i .checked) (BaseEvalTask.checkIdempotent s.rows))
    | _ => none
  | .createRead i =>
    match s.phase i with
    | .checked => some (s.orFail i (fun existing => s.goto i (.creating existing))
        (scalarOneOrNone s.rows))
    | _ => none
  | .createWrite i =>
    match s.phase i with
    | .creating existing => some ((BaseEvalTask.createWrite s (s.request i) existing).goto i .executing)
    | _ => none
  | .execute i outcome =>
    match s.phase i, outcome with
    | .executing, .ok output => some (s.goto i (.completing output))
    | .executing, .error error => some (s.goto i (.failing error))
    | _, _ => none
  | .markCompleted i =>
    match s.phase i with
    | .completing output => some ((BaseEvalTask.markCompleted s output).goto i (.completed output))
    | _ => none
  | .finish i =>
    match s.phase i with
    | .completed output => some (s.goto i (.returned output))
    | _ => none
  | .fault i error => if (s.phase i).inTry then some (s.goto i (.failing error)) else none
  | .markFailed i =>
    match s.phase i with
    | .failing error => some ((BaseEvalTask.markFailed s error).goto i .raised)
    | _ => none
  | .markFailedError i =>
    match s.phase i with
    | .failing _ => some (s.goto i .raised)
    | _ => none
  | .crash i => some (s.goto i .dead)

def start (organizationId : UUID) (completedWorkers failedWorkers : Nat) : State :=
  { organizationId, completedWorkers, failedWorkers }

end EvalEngine.BaseEvalTask
