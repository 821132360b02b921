import EvalEngine.BaseEvalTask
import EvalEngine.LostUpdates
import EvalEngine.PipelineDispatch
import EvalEngine.ServiceRequests
import EvalEngine.StageContracts

namespace EvalEngine.PipelineDatabase

open EvalEngine.JsonValues EvalEngine.Exceptions EvalEngine.QueryResults EvalEngine.RunModel
open EvalEngine.SubmissionModel EvalEngine.ConstrainedTables EvalEngine.ServiceTables
open EvalEngine.StageTables
open EvalEngine.AuditService (Context Database Request)
open EvalEngine.BaseEvalTask (WorkerResult WorkerStatus flushRow truncated)
open EvalEngine.LostUpdates (countCompleted countFailed)
open EvalEngine.PipelineDispatch (written)
open EvalEngine.RunWriters (Writer cleanupStaleRuns)
open EvalEngine.ServiceRequests (Operation serve)
open EvalEngine.CrossCheck (Finding)
open EvalEngine.Fabrication (Risk flagClaim inRun)
open EvalEngine.LlmJudge (Answers)
open Entity Stored

/-- A row of `worker_results`, with the columns that an invocation leaves alone. -/
structure WorkerResultRow extends WorkerResult where
  evaluationRunId : UUID
  workerType : String
  processingTimeMs : Int := 0
  createdAt : Time
  deletedAt : Option Time := none

instance : Entity WorkerResultRow where
  key row := row.id
  indexed _ := none
  fits row := varchar 100 row.workerType && row.workerId.all (varchar 255) &&
    row.celeryTaskId.all (varchar 255) && int4 row.processingTimeMs &&
    dictStorable row.outputData && row.errorMessage.all textStorable

/-- The live rows of one worker type of a run. -/
def isWorker (runId : UUID) (workerType : String) (row : WorkerResultRow) : Bool :=
  decide (row.evaluationRunId = runId) && decide (row.workerType = workerType) && row.deletedAt.isNone

/-- The column `created_at` of the tables whose rows do not carry it here. -/
structure CreatedAt where
  datasets : UUID → Time
  evaluationConfigs : UUID → Time
  claims : UUID → Time

/-- `server_default=text("NOW()")`, for the rows that a transaction inserts. -/
def stamp (now : Time) (present : List UUID) (column : UUID → Time) (id : UUID) : Time :=
  if id ∈ present then column id else now

/-- What an execution holds between two of its transactions: the run that a
stage has read, the row of its worker that it has looked for, or the claims
that are still to be assessed. -/
inductive Pending
  | started (run : EvaluationRun)
  | creating (run : EvaluationRun) (workerType : String) (existing : Option WorkerResultRow)
  | flagging (claims : List Claim)

/-- All that is committed, and the executions that are under way. The runs are
those of the services; the stages' own list of runs is not used. -/
structure State where
  db : Database
  workerResults : Table WorkerResultRow := .empty
  store : Store
  createdAt : CreatedAt := ⟨fun _ => 0, fun _ => 0, fun _ => 0⟩
  pending : Nat → Option Pending := fun _ => none

def State.runs (s : State) : Table EvaluationRun := s.db.tables.evaluationRuns

def emptyStore : Store where
  runs := []
  claims := []
  contradictions := []
  scores := []
  nextId := 1
  keys := List.nodup_nil
  fresh := fresh_nil

/-- The pipeline has not written anything yet. -/
def start (db : Database) : State where
  db
  store := emptyStore

def State.wait (s : State) (i : Nat) (p : Option Pending) : State :=
  { s with pending := Function.update s.pending i p }

def State.put {ρ : Type} [Stored ρ] (s : State) (t : Table ρ) : State :=
  { s with db := { s.db with tables := Stored.put t s.db.tables } }

/-- A bulk statement; one that violates a constraint changes nothing. -/
def State.write {ρ : Type} [Stored ρ] (s : State) (rows : List ρ) : State :=
  match Table.write rows with
  | some t => s.put t
  | none => s

/-- The end of a stage's transaction; one that raises changes nothing. -/
def State.commit (s : State) (now : Time) {α : Type} (r : Except PyException (Store × α)) : State :=
  match r with
  | .ok (store, _) =>
    { s with
      store
      createdAt := { s.createdAt with
        claims := stamp now (s.store.claims.map Claim.id) s.createdAt.claims } }
  | .error _ => s

/-- The tables as a stage finds them that has read its run. -/
def State.after (s : State) (run : EvaluationRun) : Store := { s.store with runs := [run] }

def newWorker (s : State) (run : EvaluationRun) (workerType : String) (req : BaseEvalTask.Request)
    (now : Time) : WorkerResultRow where
  id := s.workerResults.freshKey
  organizationId := run.organizationId
  celeryTaskId := some req.taskId
  workerId := some req.hostname
  status := .running
  evaluationRunId := run.id
  workerType
  createdAt := now

def restarted (loaded : WorkerResultRow) (req : BaseEvalTask.Request) (row : WorkerResultRow) :
    WorkerResultRow := { row with toWorkerResult := flushRow loaded.toWorkerResult req row.toWorkerResult }

/-- The second half of `_create_worker_result`. -/
def createWrite (s : State) (run : EvaluationRun) (workerType : String) (req : BaseEvalTask.Request)
    (now : Time) : Option WorkerResultRow → Option (Table WorkerResultRow)
  | some loaded => Table.write (s.workerResults.rows.map (restarted loaded req))
  | none => s.workerResults.insert (newWorker s run workerType req now)

/-- The two UPDATEs of `_mark_completed` and of `_mark_failed`, one transaction. -/
def State.mark (s : State) (runId : UUID) (workerType : String)
    (f : WorkerResultRow → WorkerResultRow) (g : EvaluationRun → EvaluationRun) : State :=
  match Table.write (s.workerResults.rows.map fun row => if isWorker runId workerType row then f row else row),
      Table.write (s.runs.rows.map fun run => if run.id = runId then g run else run) with
  | some workerResults, some runs => { s.put runs with workerResults }
  | _, _ => s

def completed (output : Dict) (elapsed : Int) (row : WorkerResultRow) : WorkerResultRow :=
  { row with status := .completed, outputData := output, processingTimeMs := elapsed }

def failed (error : String) (row : WorkerResultRow) : WorkerResultRow :=
  { row with status := .failed, errorMessage := some (truncated error) }

def evaluated (now : Time) (submission : Submission) : Submission :=
  { submission with status := .evaluated, updatedAt := now }

inductive Action
  | request (ctx : Context) (request : Request) (uuid4 : UUID) (op : Operation)
  | writeRun (runId : UUID) (version : Nat) (writer : Writer)
  | cleanup (now : Time)
  | updateSubmission (submissionId : UUID) (now : Time)
  | createRead (i : Nat) (runId : UUID) (workerType : String)
  | createWrite (i : Nat) (req : BaseEvalTask.Request) (now : Time)
  | markCompleted (runId : UUID) (workerType : String) (output : Dict) (elapsed : Int) (now : Time)
  | markFailed (runId : UUID) (workerType error : String) (now : Time)
  | readRun (i : Nat) (runId : UUID)
  | crossCheck (i : Nat) (parallelResults : List Json) (now : Time)
  | judge (i : Nat) (answers : Answers) (now : Time)
  | readClaims (i : Nat) (runId : UUID)
  | flag (i : Nat) (now : Time)
  | stop (i : Nat)

variable (detect : String → String → Option Finding) (assess : String → String → ℚ → Risk)

/-- A request is one transaction; a writer of a run comes with the version
that it has read, and `updateSubmission` is the last statement of `_finalize`. -/
def step (s : State) : Action → Option State
  | .request ctx request uuid4 op =>
    some { s with
      db := (serve ctx request uuid4 op s.db).2
      createdAt := { s.createdAt with
        datasets := stamp ctx.now (s.db.tables.datasets.rows.map Dataset.id) s.createdAt.datasets
        evaluationConfigs := stamp ctx.now
          (s.db.tables.evaluationConfigs.rows.map EvaluationConfig.id) s.createdAt.evaluationConfigs } }
  | .writeRun runId version w =>
    some (s.write (s.runs.rows.map fun run => if run.id = runId then written runId version w run else run))
  | .cleanup now => some (s.write (s.runs.rows.map (cleanupStaleRuns now)))
  | .updateSubmission submissionId now =>
    some (s.write (s.db.tables.submissions.rows.map fun submission =>
      if submission.id = submissionId then evaluated now submission else submission))
  | .createRead i runId workerType =>
    match scalarOne (s.runs.rows.filter fun run => decide (run.id = runId)),
        scalarOneOrNone (s.workerResults.rows.filter (isWorker runId workerType)) with
    | .ok run, .ok existing => some (s.wait i (some (.creating run workerType existing)))
    | _, _ => none
  | .createWrite i req now =>
    match s.pending i with
    | some (.creating run workerType existing) =>
      match PipelineDatabase.createWrite s run workerType req now existing with
      | some workerResults => some ({ s with workerResults }.wait i none)
      | none => some (s.wait i none)
    | _ => none
  | .markCompleted runId workerType output elapsed now =>
    some (s.mark runId workerType (completed output elapsed) (countCompleted now))
  | .markFailed runId workerType error now =>
    some (s.mark runId workerType (failed error) (countFailed now))
  | .readRun i runId =>
    match scalarOne (s.runs.rows.filter fun run => decide (run.id = runId)) with
    | .ok run => some (s.wait i (some (.started run)))
    | .error _ => none
  | .crossCheck i parallelResults now =>
    match s.pending i with
    | some (.started run) =>
      some ((s.commit now (CrossCheck.crossCheck detect (s.after run) run.id parallelResults)).wait i none)
    | _ => none
  | .judge i answers now =>
    match s.pending i with
    | some (.started run) =>
      some ((s.commit now (LlmJudge.runLlmJudge (s.after run) run.id answers)).wait i none)
    | _ => none
  | .readClaims i runId => some (s.wait i (some (.flagging (s.store.claims.filter (inRun runId)))))
  | .flag i now =>
    match s.pending i with
    | some (.flagging (claim :: claims)) =>
      let r := flagClaim assess (fun _ => now) s.store claim
      some ((s.commit now (r.map fun store => (store, ()))).wait i (r.toOption.map fun _ => .flagging claims))
    | _ => none
  | .stop i => some (s.wait i none)

section Task

variable {s : State} {runId : UUID} {workerType : String}

/-- The rows that an invocation of a task works on. -/
def State.task (s : State) (runId : UUID) (workerType : String) : List WorkerResult :=
  (s.workerResults.rows.filter (isWorker runId workerType)).map WorkerResultRow.toWorkerResult

theorem filter_map_worker {f : WorkerResultRow → WorkerResultRow}
    (hf : ∀ row, isWorker runId workerType (f row) = isWorker runId workerType row)
    (rows : List WorkerResultRow) : (rows.map f).filter (isWorker runId workerType) =
      (rows.filter (isWorker runId workerType)).map f := by
  rw [List.filter_map]
  congr 1
  apply List.filter_congr
  intro row _
  exact hf row

/-- A mark that goes through is the one of the task's own model. -/
theorem mark_task {f : WorkerResultRow → WorkerResultRow} {g : EvaluationRun → EvaluationRun}
    {f' : WorkerResult → WorkerResult} (hf : ∀ row, (f row).toWorkerResult = f' row.toWorkerResult)
    (hkeep : ∀ row, isWorker runId workerType (f row) = isWorker runId workerType row) :
    s.mark runId workerType f g = s ∨
      (s.mark runId workerType f g).task runId workerType = (s.task runId workerType).map f' := by
  unfold State.mark
  split
  next workers runs hworkers _ =>
    refine .inr ?_
    have hsame : ∀ row, isWorker runId workerType (if isWorker runId workerType row then f row else row) =
        isWorker runId workerType row := by
      intro row
      split
      · exact hkeep row
      · rfl
    simp only [State.task, Table.write_some hworkers, filter_map_worker hsame, List.map_map]
    apply List.map_congr_left
    intro row hrow
    have hworker : isWorker runId workerType row = true := (List.mem_filter.1 hrow).2
    simp only [Function.comp_apply, hworker, if_true, hf]
  next => exact .inl rfl

theorem markCompleted_task (b : BaseEvalTask.State) (hb : b.rows = s.task runId workerType)
    (output : Dict) (elapsed : Int) (now : Time) :
    s.mark runId workerType (completed output elapsed) (countCompleted now) = s ∨
      (s.mark runId workerType (completed output elapsed) (countCompleted now)).task runId workerType =
        (BaseEvalTask.markCompleted b output).rows := by
  rw [BaseEvalTask.markCompleted, hb]
  exact mark_task (fun _ => rfl) fun _ => rfl

theorem markFailed_task (b : BaseEvalTask.State) (hb : b.rows = s.task runId workerType)
    (error : String) (now : Time) :
    s.mark runId workerType (failed error) (countFailed now) = s ∨
      (s.mark runId workerType (failed error) (countFailed now)).task runId workerType =
        (BaseEvalTask.markFailed b error).rows := by
  rw [BaseEvalTask.markFailed, hb]
  exact mark_task (fun _ => rfl) fun _ => rfl

theorem createWrite_task (b : BaseEvalTask.State) (run : EvaluationRun) (req : BaseEvalTask.Request)
    (now : Time) {existing : Option WorkerResultRow} {workerResults : Table WorkerResultRow}
    (hb : b.rows = s.task run.id workerType) (hnext : b.nextId = s.workerResults.freshKey)
    (horg : b.organizationId = run.organizationId)
    (h : createWrite s run workerType req now existing = some workerResults) :
    { s with workerResults }.task run.id workerType =
      (BaseEvalTask.createWrite b req (existing.map WorkerResultRow.toWorkerResult)).rows := by
  cases existing with
  | some loaded =>
    have hrows := Table.write_some h
    have hkeep : ∀ row, isWorker run.id workerType (restarted loaded req row) =
        isWorker run.id workerType row := fun _ => rfl
    simp only [State.task, hrows, BaseEvalTask.createWrite, Option.map_some, hb, filter_map_worker hkeep,
      List.map_map]
    rfl
  | none =>
    have hrows := Table.write_some h
    have hworker : isWorker run.id workerType (newWorker s run workerType req now) = true := by
      simp [isWorker, newWorker]
    simp only [State.task, hrows, BaseEvalTask.createWrite, Option.map_none, hb, List.filter_append,
      List.map_append, List.filter_cons_of_pos hworker, List.filter_nil, List.map_cons, List.map_nil]
    rw [BaseEvalTask.newRow, hnext, horg]
    rfl

end Task

end EvalEngine.PipelineDatabase
