import EvalEngine.PipelineDispatch
import EvalEngine.SubmissionService

namespace EvalEngine.RunTransactions

open EvalEngine.Exceptions EvalEngine.RunModel EvalEngine.RunWriters EvalEngine.PipelineDispatch
open EvalEngine.ConstrainedTables EvalEngine.ServiceTables
open Entity

/-- A transaction that has read and has still to write. -/
inductive Pending
  | trigger (req : TriggerRequest)
  | writer (runId : UUID) (f : InFlight)

/-- The committed runs of all organizations, and the transactions that are open. -/
structure State where
  runs : Table EvaluationRun
  pending : Nat → Option Pending := fun _ => none
  dispatched : UUID → Bool := fun _ => false

def State.find (s : State) (runId : UUID) : Option EvaluationRun :=
  s.runs.rows.find? (fun run => decide (run.id = runId))

def State.wait (s : State) (tx : Nat) (p : Option Pending) : State :=
  { s with pending := Function.update s.pending tx p }

def isActive (orgId : UUID) (run : EvaluationRun) : Bool :=
  decide (run.organizationId = orgId) &&
    (decide (run.status = .pending) || decide (run.status = .running))

/-- The count that `trigger_evaluation` compares with the limit. -/
def activeRuns (orgId : UUID) (runs : Table EvaluationRun) : Nat := runs.rows.countP (isActive orgId)

theorem activeCount_eq (orgId : UUID) (tables : Tables) :
    SubmissionService.activeCount orgId tables = activeRuns orgId tables.evaluationRuns :=
  List.countP_eq_length_filter.symm

inductive Action
  | count (tx : Nat) (req : TriggerRequest)
  | insert (tx : Nat) (runId : UUID) (now : Time)
  | select (tx : Nat) (runId : UUID) (writer : Writer)
  | write (tx : Nat)
  | rollback (tx : Nat)
  | cleanup (now : Time)

/-- Every statement sees what is committed, and what a transaction has written
is seen once it commits. -/
def step (limit : UUID → Int) (s : State) : Action → Option State
  | .count tx req =>
    match s.pending tx with
    | none =>
      if limit req.organizationId ≤ activeRuns req.organizationId s.runs then none
      else some (s.wait tx (some (.trigger req)))
    | some _ => none
  | .insert tx runId now =>
    match s.pending tx with
    | some (.trigger req) =>
      (s.runs.insert (req.newRun runId now)).map fun runs => { s with runs }.wait tx none
    | _ => none
  | .select tx runId w =>
    match s.pending tx, w.select (s.dispatched runId) (s.find runId) with
    | none, some version => some (s.wait tx (some (.writer runId ⟨w, version⟩)))
    | _, _ => none
  | .write tx =>
    match s.pending tx with
    | some (.writer runId f) =>
      match s.find runId with
      | some run =>
        (s.runs.update (written runId f.version f.writer run)).map fun runs =>
          { s with
            runs
            dispatched := Function.update s.dispatched runId
              (s.dispatched runId || publishes f (some run)) }.wait tx none
      | none => some (s.wait tx none)
    | _ => none
  | .rollback tx => (s.pending tx).map fun _ => s.wait tx none
  | .cleanup now =>
    (Table.write (s.runs.rows.map (cleanupStaleRuns now))).map fun runs => { s with runs }

theorem find_some {s : State} {runId : UUID} {run : EvaluationRun} (h : s.find runId = some run) :
    run ∈ s.runs.rows ∧ run.id = runId := by
  have hid := List.find?_some h
  exact ⟨List.mem_of_find?_eq_some h, of_decide_eq_true hid⟩

theorem isActive_terminal (orgId : UUID) {run : EvaluationRun} (h : run.isTerminal = true) :
    isActive orgId run = false := by
  cases hs : run.status <;> simp_all [isActive, EvaluationRun.isTerminal, RunStatus.isTerminal]

theorem isActive_open (orgId : UUID) {run : EvaluationRun} (h : run.isTerminal = false) :
    isActive orgId run = decide (run.organizationId = orgId) := by
  cases hs : run.status <;> simp_all [isActive, EvaluationRun.isTerminal, RunStatus.isTerminal]

end EvalEngine.RunTransactions
