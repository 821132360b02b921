import EvalEngine.TaskObjects
import EvalEngine.Transitions
import Mathlib.Logic.Function.Basic

namespace EvalEngine.PipelineMessages

open EvalEngine.RunModel EvalEngine.TaskObjects
open EvalEngine.Orchestrator (maxRetries)

/-- The tasks of the chord body, in the order of the chain. -/
inductive Stage
  | crossCheck
  | fabricationDetection
  | llmJudge
  | finalizeAndNotify
  deriving DecidableEq, Repr

def Stage.next : Stage → Option Stage
  | .crossCheck => some .fabricationDetection
  | .fabricationDetection => some .llmJudge
  | .llmJudge => some .finalizeAndNotify
  | .finalizeAndNotify => none

/-- A published chord: its header tasks in flight, and whether one of the
others has failed; then its body, one task of the chain at a time. -/
inductive Pipeline
  | gathering (headers : List Analysis) (broken : Bool)
  | chaining (stage : Stage)
  | ended

def parallelTasks : List Analysis := [.analyzeGithub, .analyzePitchDeck, .analyzeVideo, .verifyWeb]

def Pipeline.published : Pipeline := .gathering parallelTasks false

/-- How far the delivery of an orchestrator message has got. -/
inductive Progress
  | received
  | prepared
  | dispatched
  deriving DecidableEq, Repr

structure Delivery where
  retries : Nat := 0
  progress : Progress := .received

structure State where
  status : RunStatus
  orchestrator : Nat → Option Delivery
  pipeline : Nat → Option Pipeline

/-- The first message for a run is in flight, whatever has become of the run by then. -/
def start (status : RunStatus) : State :=
  { status
    orchestrator := fun i => if i = 0 then some {} else none
    pipeline := fun _ => none }

def State.setOrchestrator (s : State) (i : Nat) (d : Option Delivery) : State :=
  { s with orchestrator := Function.update s.orchestrator i d }

def State.setPipeline (s : State) (k : Nat) (p : Pipeline) : State :=
  { s with pipeline := Function.update s.pipeline k (some p) }

/-- A write behind the `is_terminal` guard. -/
def State.close (s : State) (status : RunStatus) : State :=
  if s.status.isTerminal then s else { s with status := status }

/-- The chord counts the header tasks that have returned; only when all four
have succeeded is the body sent. -/
def headerDone (headers : List Analysis) (broken : Bool) : Pipeline :=
  if headers = [] ∧ broken = false then .chaining .crossCheck else .gathering headers broken

def stageDone (stage : Stage) : Pipeline :=
  match stage.next with
  | some next => .chaining next
  | none => .ended

inductive Action
  | prepareRun (i : Nat)
  | skip (i : Nat)
  | publish (i k : Nat)
  | finish (i : Nat)
  | orchestratorFails (i : Nat) (failRunCommits : Bool)
  | workerLost (i : Nat)
  | headerSucceeds (k : Nat) (a : Analysis)
  | headerFails (k : Nat) (a : Analysis)
  | finalizeCommits (k : Nat)
  | stageSucceeds (k : Nat)
  | stageFails (k : Nat)
  | cancelEvaluationRun
  | cleanupStaleRun

def step (s : State) : Action → Option State
  | .prepareRun i =>
    match s.orchestrator i with
    | some ⟨r, .received⟩ =>
      if s.status.isTerminal then none
      else some ({ s with status := .running }.setOrchestrator i (some ⟨r, .prepared⟩))
    | _ => none
  | .skip i =>
    match s.orchestrator i with
    | some ⟨_, .received⟩ =>
      if s.status.isTerminal then some (s.setOrchestrator i none) else none
    | _ => none
  | .publish i k =>
    match s.orchestrator i, s.pipeline k with
    | some ⟨r, .prepared⟩, none =>
      some ((s.setOrchestrator i (some ⟨r, .dispatched⟩)).setPipeline k .published)
    | _, _ => none
  | .finish i =>
    match s.orchestrator i with
    | some ⟨_, .dispatched⟩ => some (s.setOrchestrator i none)
    | _ => none
  | .orchestratorFails i failRunCommits =>
    (s.orchestrator i).map fun d =>
      let closed := if failRunCommits then s.close .failed else s
      closed.setOrchestrator i (if d.retries < maxRetries then some ⟨d.retries + 1, .received⟩ else none)
  | .workerLost i =>
    (s.orchestrator i).map fun d => s.setOrchestrator i (some ⟨d.retries, .received⟩)
  | .headerSucceeds k a =>
    match s.pipeline k with
    | some (.gathering headers broken) =>
      if a ∈ headers then some (s.setPipeline k (headerDone (headers.erase a) broken)) else none
    | _ => none
  | .headerFails k a =>
    match s.pipeline k with
    | some (.gathering headers _) =>
      if a ∈ headers then some (s.setPipeline k (headerDone (headers.erase a) true)) else none
    | _ => none
  | .finalizeCommits k =>
    match s.pipeline k with
    | some (.chaining .finalizeAndNotify) => some (s.close .completed)
    | _ => none
  | .stageSucceeds k =>
    match s.pipeline k with
    -- the finalizer returns only from a run that it found closed or has closed
    | some (.chaining .finalizeAndNotify) =>
      if s.status.isTerminal then some (s.setPipeline k .ended) else none
    | some (.chaining stage) => some (s.setPipeline k (stageDone stage))
    | _ => none
  | .stageFails k =>
    match s.pipeline k with
    | some (.chaining _) => some (s.setPipeline k .ended)
    | _ => none
  | .cancelEvaluationRun => some (s.close .cancelled)
  | .cleanupStaleRun => some (s.close .failed)

end EvalEngine.PipelineMessages
