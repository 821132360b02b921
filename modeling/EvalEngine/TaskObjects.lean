import EvalEngine.Orchestrator
import EvalEngine.PythonCall

namespace EvalEngine.TaskObjects

open EvalEngine.JsonValues EvalEngine.Exceptions EvalEngine.RunModel EvalEngine.SubmissionModel
open EvalEngine.Orchestrator EvalEngine.PythonCall

inductive Analysis
  | analyzeGithub
  | analyzePitchDeck
  | analyzeVideo
  | verifyWeb
  deriving DecidableEq, Repr

/-- What a task's functions are called with: the task itself, or decoded JSON. -/
inductive Value
  | task
  | json (value : Json)

abbrev Kwargs := List (String × Value)

/-- The bodies of the functions that meet on a task object. -/
inductive Body
  | entry (workerType : String)
  | baseRun
  | baseExecute
  | analyse (analysis : Analysis)

/-- The first attribute of `self` that a body needs. -/
def Body.firstAttribute : Body → String
  | .entry _ => "worker_type"
  | .baseRun => "request"
  | .baseExecute => ""
  | .analyse _ => "update_progress"

structure Function where
  name : String
  signature : Signature
  body : Body

/-- An attribute of a task object: a method of its class is bound to the
object, a function assigned to the object is not. -/
inductive Attribute
  | method (f : Function)
  | plain (f : Function)

structure TaskObject where
  run : Attribute
  execute : Attribute

def selfRunId : Signature := { params := ["self", "run_id"], varKeywords := true }

def baseEvalTask : TaskObject :=
  { run := .method { name := "run", signature := selfRunId, body := .baseRun }
    execute := .method { name := "execute", signature := selfRunId, body := .baseExecute } }

/-- `celery_app.task(base=..., bind=True)`: a class whose `run` is the function. -/
def decorate (base : TaskObject) (f : Function) : TaskObject := { base with run := .method f }

def assignExecute (task : TaskObject) (f : Function) : TaskObject := { task with execute := .plain f }

def entryPoint (name workerType : String) : Function :=
  { name, signature := selfRunId, body := .entry workerType }

def analysisLambda (analysis : Analysis) : Function :=
  { name := "<lambda>", signature := selfRunId, body := .analyse analysis }

def analysisTask (name workerType : String) (analysis : Analysis) : TaskObject :=
  assignExecute (decorate baseEvalTask (entryPoint name workerType)) (analysisLambda analysis)

def githubAnalysisTask : TaskObject :=
  analysisTask "github_analysis_task" "github_analysis" .analyzeGithub

def pitchDeckTask : TaskObject :=
  analysisTask "pitch_deck_task" "pitch_deck" .analyzePitchDeck

def videoAnalysisTask : TaskObject :=
  analysisTask "video_analysis_task" "video_analysis" .analyzeVideo

def webVerificationTask : TaskObject :=
  analysisTask "web_verification_task" "web_verification" .verifyWeb

def Analysis.task : Analysis → TaskObject
  | .analyzeGithub => githubAnalysisTask
  | .analyzePitchDeck => pitchDeckTask
  | .analyzeVideo => videoAnalysisTask
  | .verifyWeb => webVerificationTask

def Analysis.workerType : Analysis → String
  | .analyzeGithub => "github_analysis"
  | .analyzePitchDeck => "pitch_deck"
  | .analyzeVideo => "video_analysis"
  | .verifyWeb => "web_verification"

/-- The observable steps of a call. -/
inductive Event
  | checkIdempotent (workerType : String) (runId : Value)
  | createWorkerResult (workerType : String) (runId : Value)
  | analyse (analysis : Analysis) (runId : Value) (context : Kwargs)
  | markCompleted (workerType : String) (runId : Value) (output : Dict)
  | markFailed (workerType : String) (runId : Value)

abbrev Outcome := Except PyException Dict × List Event

/-- How the database and the analyses answer during one invocation. -/
structure Outside where
  cached : Except PyException (Option Dict)
  created : Except PyException Unit
  output : Analysis → Except PyException Dict
  marked : Except PyException Unit

def bindErrorText (name : String) : BindError → String
  | .tooManyPositional takes given =>
    name ++ "() takes " ++ toString takes ++ " positional arguments but " ++ toString given ++
      " were given"
  | .multipleValues param => name ++ "() got multiple values for argument '" ++ param ++ "'"
  | .unexpectedKeyword keyword =>
    name ++ "() got an unexpected keyword argument '" ++ keyword ++ "'"
  | .missing param => name ++ "() missing 1 required positional argument: '" ++ param ++ "'"

/-- `BaseEvalTask.run` around its call of `execute`. -/
def lifecycle (out : Outside) (workerType : String) (runId : Value) (execute : Option Outcome) :
    Option Outcome :=
  match out.cached with
  | .error e => some (.error e, [.checkIdempotent workerType runId, .markFailed workerType runId])
  | .ok (some output) => some (.ok output, [.checkIdempotent workerType runId])
  | .ok none =>
    let opened := [.checkIdempotent workerType runId, .createWorkerResult workerType runId]
    match out.created with
    | .error e => some (.error e, opened ++ [.markFailed workerType runId])
    | .ok () => execute.map fun r =>
      match r.1, out.marked with
      | .error e, _ => (.error e, opened ++ r.2 ++ [.markFailed workerType runId])
      | .ok output, .error e => (.error e, opened ++ r.2 ++
          [.markCompleted workerType runId output, .markFailed workerType runId])
      | .ok output, .ok () =>
        (.ok output, opened ++ r.2 ++ [.markCompleted workerType runId output])

/-- Call a function with at most `fuel` nested calls. -/
def callFunction (out : Outside) (task : TaskObject) :
    Nat → String → Function → List Value → Kwargs → Option Outcome
  | 0, _, _, _, _ => none
  | fuel + 1, workerType, f, args, kwargs =>
    let callSelf (attr : Attribute) (workerType : String) (runId : Value) (kws : Kwargs) :=
      match attr with
      | .method g => callFunction out task fuel workerType g [.task, runId] kws
      | .plain g => callFunction out task fuel workerType g [runId] kws
    match bindCall f.signature args kwargs with
    | .error e => some (.error (.typeError (bindErrorText f.name e)), [])
    | .ok b =>
      match f.body, b.get "self", b.get "run_id" with
      | .baseExecute, _, _ => some (.error .notImplemented, [])
      | .entry workerType, some .task, some runId => callSelf task.run workerType runId b.rest
      | .baseRun, some .task, some runId =>
        lifecycle out workerType runId (callSelf task.execute workerType runId b.rest)
      | .analyse analysis, some .task, some runId =>
        some (out.output analysis, [.analyse analysis runId b.rest])
      | body, _, _ => some (.error (.attributeError "'str' object" body.firstAttribute), [])

/-- A worker runs the message `task.s(run_id, **context)`. -/
def invoke (out : Outside) (task : TaskObject) (fuel : Nat) (runId : UUID) (context : Dict) :
    Option Outcome :=
  let runIdValue := Value.json (.str (uuidText runId))
  let kwargs := context.map (fun kv => (kv.1, Value.json kv.2))
  match task.run with
  | .method f => callFunction out task fuel "unknown" f [.task, runIdValue] kwargs
  | .plain f => callFunction out task fuel "unknown" f [runIdValue] kwargs

end EvalEngine.TaskObjects
