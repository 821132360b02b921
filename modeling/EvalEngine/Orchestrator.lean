import EvalEngine.QueryResults
import EvalEngine.SubmissionModel

namespace EvalEngine.Orchestrator

open EvalEngine.JsonValues EvalEngine.Exceptions EvalEngine.QueryResults EvalEngine.RunModel
open EvalEngine.SubmissionModel

/-- The tables that the orchestrator reads and writes. -/
structure Tables where
  runs : List EvaluationRun
  submissions : List Submission

def Tables.runsById (db : Tables) (runId : UUID) : List EvaluationRun :=
  db.runs.filter (fun run => decide (run.id = runId))

/-- Put the new version of a run where the old one was. -/
def Tables.replaceRun (db : Tables) (run : EvaluationRun) : Tables :=
  { db with runs := db.runs.map (fun r => if r.id = run.id then run else r) }

def optionalText : Option String → Json
  | some s => .str s
  | none => .null

def pipelineContext (runId : UUID) (run : EvaluationRun) (submission : Submission) : Dict :=
  [("run_id", .str (uuidText runId)),
    ("org_id", .str (uuidText run.organizationId)),
    ("submission_id", .str (uuidText submission.id)),
    ("startup_name", .str submission.startupName),
    ("website_url", optionalText submission.websiteUrl),
    ("pitch_deck_url", optionalText submission.pitchDeckUrl),
    ("raw_content", .obj submission.rawContent),
    ("metadata", .obj submission.metadata),
    ("config_snapshot", .obj run.configSnapshot)]

/-- One transaction: the tables that it commits and the context that it
returns, or the exception that rolls it back. -/
def prepareRun (db : Tables) (runId : UUID) (now : Time) : Except PyException (Tables × Dict) := do
  match ← scalarOneOrNone (db.runsById runId) with
  | none => .error (.valueError ("Evaluation run " ++ uuidText runId ++ " not found"))
  | some run =>
    if run.isTerminal then
      return (db, [])
    else
      let started ← transitionStatus (some run) runId run.version .running now
        { totalWorkers := some 4 }
      let submission ← scalarOne
        (db.submissions.filter (fun sub => decide (sub.id = run.submissionId)))
      return (db.replaceRun started, pipelineContext runId run submission)

def failRun (db : Tables) (runId : UUID) (error : String) (now : Time) :
    Except PyException Tables := do
  match ← scalarOneOrNone (db.runsById runId) with
  | none => return db
  | some run =>
    if run.isTerminal then
      return db
    else
      let failed ← transitionStatus (some run) runId run.version .failed now
        { errorMessage := some error }
      return db.replaceRun failed

def maxRetries : Nat := 1

/-- What goes wrong from outside during one delivery: an exception inside the
transaction of `_prepare_run`, one between its commit and the publication of
the chord, and a failure of the transaction of `_fail_run`. -/
structure Faults where
  prepare : Option PyException := none
  dispatch : Option PyException := none
  failRun : Bool := false

inductive Outcome
  | skipped
  | dispatched (context : Dict)
  | retry (exc : PyException)
  | raised (exc : PyException)

/-- The `try` block of `evaluate_submission`. -/
def tryDispatch (db : Tables) (runId : UUID) (now : Time) (faults : Faults) :
    Tables × Except PyException Outcome :=
  match faults.prepare, prepareRun db runId now with
  | some exc, _ | none, .error exc => (db, .error exc)
  | none, .ok (db', context) =>
    if context.isEmpty then (db', .ok .skipped)
    else match faults.dispatch with
      | some exc => (db', .error exc)
      | none => (db', .ok (.dispatched context))

/-- `_fail_run` with its own `except`, which logs and goes on. -/
def failRunLogged (db : Tables) (runId : UUID) (exc : PyException) (now : Time) (faults : Faults) :
    Tables :=
  match faults.failRun, failRun db runId exc.str now with
  | false, .ok db' => db'
  | _, _ => db

def evaluateSubmission (db : Tables) (runId : UUID) (retries : Nat) (now : Time) (faults : Faults) :
    Tables × Outcome :=
  match tryDispatch db runId now faults with
  | (db', .ok outcome) => (db', outcome)
  | (db', .error exc) =>
    (failRunLogged db' runId exc now faults,
      if retries < maxRetries then .retry exc else .raised exc)

end EvalEngine.Orchestrator
