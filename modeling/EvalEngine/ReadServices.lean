import EvalEngine.Noninterference
import EvalEngine.PipelineDatabase

namespace EvalEngine.ReadServices

open EvalEngine.JsonValues EvalEngine.Exceptions EvalEngine.QueryResults EvalEngine.RunModel
open EvalEngine.SubmissionModel EvalEngine.ConstrainedTables EvalEngine.ServiceTables
open EvalEngine.ServiceContracts EvalEngine.StageTables EvalEngine.Noninterference
open EvalEngine.PipelineDatabase (State)
open EvalEngine.AuditService (Service)
open Entity Stored

/-- A read of the services, on what is committed. -/
abbrev Query (α : Type) := Read State PyException α

/-- What an operation that only reads the service tables answers. -/
def answer {α : Type} (m : Service α) : Query α := fun s => (m.run { state := s.db }).1

/-- A row with its column `created_at`. -/
structure Stamped (ρ : Type) where
  row : ρ
  createdAt : Time

def datasets (s : State) : List (Stamped Dataset) :=
  s.db.tables.datasets.rows.map fun dataset => ⟨dataset, s.createdAt.datasets dataset.id⟩

def evaluationConfigs (s : State) : List (Stamped EvaluationConfig) :=
  s.db.tables.evaluationConfigs.rows.map fun config =>
    ⟨config, s.createdAt.evaluationConfigs config.id⟩

def claims (s : State) : List (Stamped Claim) :=
  s.store.claims.map fun claim => ⟨claim, s.createdAt.claims claim.id⟩

/-- The values that LIMIT and OFFSET take. -/
def boundary (n : Int) : Bool := decide (0 ≤ n) && int8 n

def invalidPage : PyException := .databaseError "OFFSET or LIMIT out of range"

/-- `.offset((page - 1) * page_size).limit(page_size)`. -/
def paginate {ρ : Type} (page pageSize : Int) (rows : List ρ) : Except PyException (List ρ) :=
  if boundary ((page - 1) * pageSize) && boundary pageSize then
    .ok ((rows.drop ((page - 1) * pageSize).toNat).take pageSize.toNat)
  else .error invalidPage

/-- ORDER BY. Rows that the order does not tell apart come as they are stored. -/
def orderBy {ρ : Type} (before : ρ → ρ → Bool) (rows : List ρ) : List ρ := rows.mergeSort before

/-- `.order_by(column)` and `.order_by(column.desc())` of a time. -/
def oldest {ρ : Type} (column : ρ → Time) (a b : ρ) : Bool := decide (column a ≤ column b)

def newest {ρ : Type} (column : ρ → Time) (a b : ρ) : Bool := oldest column b a

/-- A page of the rows that match, with the number of all that match. -/
def listPage {ρ : Type} (matching : State → List ρ) (before : ρ → ρ → Bool) (page pageSize : Int) :
    Query (List ρ × Nat) := do
  let total ← select fun s => (matching s).length
  let rows ← select matching
  let shown ← lift (paginate page pageSize (orderBy before rows))
  return (shown, total)

def getSubmission (submissionId orgId : UUID) : Query Submission :=
  answer (getScoped Submission "Submission" submissionId orgId)

def isListedSubmission (orgId : UUID) (statusFilter : Option SubmissionStatus)
    (submission : Submission) : Bool :=
  decide (submission.organizationId = orgId) && submission.deletedAt.isNone &&
    statusFilter.all (fun status => decide (submission.status = status))

def listSubmissions (orgId : UUID) (statusFilter : Option SubmissionStatus) (page pageSize : Int) :
    Query (List Submission × Nat) :=
  listPage (fun s => s.db.tables.submissions.rows.filter (isListedSubmission orgId statusFilter))
    (newest Submission.createdAt) page pageSize

def getEvaluationConfig (configId orgId : UUID) : Query (Stamped EvaluationConfig) := do
  let config ← answer (getScoped EvaluationConfig "Evaluation config" configId orgId)
  let createdAt ← select fun s => s.createdAt.evaluationConfigs config.id
  return ⟨config, createdAt⟩

def isListedConfig (orgId : UUID) (config : Stamped EvaluationConfig) : Bool :=
  decide (config.row.organizationId = orgId) && config.row.deletedAt.isNone

def listEvaluationConfigs (orgId : UUID) (page pageSize : Int) :
    Query (List (Stamped EvaluationConfig) × Nat) :=
  listPage (fun s => (evaluationConfigs s).filter (isListedConfig orgId)) (newest Stamped.createdAt)
    page pageSize

def getEvaluationRun (runId orgId : UUID) : Query EvaluationRun :=
  answer (getScoped EvaluationRun "Evaluation run" runId orgId)

def isListedRun (orgId : UUID) (submissionId configId : Option UUID) (statusFilter : Option RunStatus)
    (run : EvaluationRun) : Bool :=
  decide (run.organizationId = orgId) && run.deletedAt.isNone &&
    submissionId.all (fun submissionId => decide (run.submissionId = submissionId)) &&
    configId.all (fun configId => decide (run.configId = some configId)) &&
    statusFilter.all (fun status => decide (run.status = status))

def listEvaluationRuns (orgId : UUID) (submissionId configId : Option UUID)
    (statusFilter : Option RunStatus) (page pageSize : Int) : Query (List EvaluationRun × Nat) :=
  listPage (fun s => s.runs.rows.filter (isListedRun orgId submissionId configId statusFilter))
    (newest EvaluationRun.createdAt) page pageSize

def getDataset (datasetId orgId : UUID) : Query (Stamped Dataset) := do
  let dataset ← answer (getScoped Dataset "Dataset" datasetId orgId)
  let createdAt ← select fun s => s.createdAt.datasets dataset.id
  return ⟨dataset, createdAt⟩

def isListedDataset (orgId : UUID) (statusFilter : Option DatasetStatus) (dataset : Stamped Dataset) :
    Bool :=
  decide (dataset.row.organizationId = orgId) && dataset.row.deletedAt.isNone &&
    statusFilter.all (fun status => decide (dataset.row.status = status))

def listDatasets (orgId : UUID) (statusFilter : Option DatasetStatus) (page pageSize : Int) :
    Query (List (Stamped Dataset) × Nat) :=
  listPage (fun s => (datasets s).filter (isListedDataset orgId statusFilter)) (newest Stamped.createdAt)
    page pageSize

/-- The metrics that an organization sees: its own and the built-in ones. -/
def isVisible (orgId : UUID) (metric : Metric) : Bool :=
  decide (metric.organizationId = some orgId) || metric.isBuiltin

/-- `.order_by(Metric.is_builtin.desc(), Metric.name)`, for the collation of the database. -/
def metricOrder (collate : String → String → Bool) (a b : Metric) : Bool :=
  if a.isBuiltin = b.isBuiltin then collate a.name b.name else a.isBuiltin

def listMetrics (collate : String → String → Bool) (orgId : UUID) (page pageSize : Int) :
    Query (List Metric × Nat) :=
  listPage (fun s => s.db.tables.metrics.rows.filter fun metric =>
    isVisible orgId metric && metric.deletedAt.isNone) (metricOrder collate) page pageSize

def getMetric (metricId orgId : UUID) : Query Metric := do
  let rows ← select fun s => s.db.tables.metrics.rows.filter fun metric =>
    decide (metric.id = metricId) && isVisible orgId metric && metric.deletedAt.isNone
  match ← lift (scalarOneOrNone rows) with
  | some metric => return metric
  | none => refuse (.notFound "Metric" metricId)

section Contracts

variable {R : State → State → Prop}

theorem respects_listPage {ρ : Type} {matching : State → List ρ} (before : ρ → ρ → Bool)
    (page pageSize : Int) (h : ∀ s t, R s t → matching s = matching t) :
    Respects R (listPage matching before page pageSize) := by
  apply Respects.bind
  · apply respects_select
    intro s t hst
    rw [h s t hst]
  intro total
  apply Respects.bind
  · apply respects_select
    intro s t hst
    exact h s t hst.1
  intro rows
  apply Respects.bind
  · exact respects_lift _
  intro shown
  exact respects_pure _

section Scoped

variable {ρ : Type} [Scoped ρ] {resource : String} {id orgId : UUID}

theorem answer_getScoped (s : State) : answer (getScoped ρ resource id orgId) s =
    match scopedRow ρ id orgId s.db.tables with
    | some row => .ok row
    | none => .error (.notFound resource id) := by
  unfold answer
  cases h : scopedRow ρ id orgId s.db.tables with
  | some row => rw [run_getScoped_some resource h]
  | none => rw [run_getScoped_none resource h]

theorem answer_getScoped_ok {s : State} {row : ρ}
    (h : answer (getScoped ρ resource id orgId) s = .ok row) :
    scopedRow ρ id orgId s.db.tables = some row := by
  rw [answer_getScoped] at h
  split at h
  next row' hrow =>
    cases h
    exact hrow
  next => cases h

theorem respects_getScoped
    (h : ∀ s t, R s t → scopedRow ρ id orgId s.db.tables = scopedRow ρ id orgId t.db.tables) :
    Respects R (answer (getScoped ρ resource id orgId)) := by
  intro s t hst
  rw [answer_getScoped, answer_getScoped, h s t hst]

end Scoped

end Contracts

end EvalEngine.ReadServices
