import EvalEngine.ReadServices
import EvalEngine.WorkerCounters

namespace EvalEngine.ResultService

open EvalEngine.JsonValues EvalEngine.Exceptions EvalEngine.RunModel EvalEngine.StageTables
open EvalEngine.Noninterference EvalEngine.ReadServices
open EvalEngine.ServiceContracts (getScoped invalidEncoding)
open EvalEngine.PipelineDatabase (State WorkerResultRow)
open EvalEngine.BaseEvalTask (WorkerStatus)
open EvalEngine.WorkerCounters (progressPct)

/-- What `export_results` hands to a serializer: indented JSON, the rows of a
CSV file, or compact JSON. -/
inductive ExportData
  | indented (payload : Dict)
  | csv (rows : List (String × ℚ × ℚ × Option String))
  | compact (payload : Dict)

/-- What a read takes from outside the database: the collation of the text
columns, and the answers of the object storage. -/
structure ReadContext where
  collate : String → String → Bool
  uploadBytes : String → ExportData → String → Except String String
  presignDownload : String → Except String String

/-- `_verify_run`. -/
def verifyRun (runId orgId : UUID) : Query EvaluationRun :=
  answer (getScoped EvaluationRun "Evaluation run" runId orgId)

def isResultOf (runId : UUID) (row : WorkerResultRow) : Bool :=
  decide (row.evaluationRunId = runId) && row.deletedAt.isNone

def getWorkerResultsForRun (runId orgId : UUID) : Query (List WorkerResultRow) := do
  let _ ← verifyRun runId orgId
  select fun s => orderBy (oldest WorkerResultRow.createdAt) (s.workerResults.rows.filter (isResultOf runId))

/-- `if category: base_where.append(...)`, with the encoding of the bound text. -/
def bindCategory (category : Option String) : Except PyException (Option String) :=
  match category.filter (· != "") with
  | some text => if textStorable text then .ok (some text) else .error invalidEncoding
  | none => .ok none

def isClaimOf (runId orgId : UUID) (category : Option String) (claim : Stamped Claim) : Bool :=
  decide (claim.row.evaluationRunId = runId) && decide (claim.row.organizationId = orgId) &&
    claim.row.deletedAt.isNone && category.all (fun text => decide (claim.row.category = text))

def getClaimsForRun (runId orgId : UUID) (category : Option String) (page pageSize : Int) :
    Query (List (Stamped Claim) × Nat) := do
  let _ ← verifyRun runId orgId
  let category ← lift (bindCategory category)
  listPage (fun s => (claims s).filter (isClaimOf runId orgId category)) (oldest Stamped.createdAt)
    page pageSize

def isContradictionOf (runId orgId : UUID) (c : Contradiction) : Bool :=
  decide (c.evaluationRunId = runId) && decide (c.organizationId = orgId) && c.deletedAt.isNone

/-- `.order_by(Contradiction.severity.desc())`. -/
def mostSevere (a b : Contradiction) : Bool := decide (b.severity ≤ a.severity)

def getContradictionsForRun (runId orgId : UUID) : Query (List Contradiction) := do
  let _ ← verifyRun runId orgId
  select fun s => orderBy mostSevere (s.store.contradictions.filter (isContradictionOf runId orgId))

def isScoreOf (runId orgId : UUID) (score : Score) : Bool :=
  decide (score.evaluationRunId = runId) && decide (score.organizationId = orgId) &&
    score.deletedAt.isNone

def getScoresForRun (ctx : ReadContext) (runId orgId : UUID) : Query (List Score) := do
  let _ ← verifyRun runId orgId
  select fun s => orderBy (fun a b => ctx.collate a.dimension b.dimension)
    (s.store.scores.filter (isScoreOf runId orgId))

structure ResultsSummary where
  runId : String
  status : String
  overallScore : Option ℚ
  totalWorkers : Nat
  completedWorkers : Nat
  failedWorkers : Nat
  totalClaims : Nat
  totalContradictions : Nat
  scores : List Score
  progressPct : ℚ

/-- The rows that `get_results_summary` counts: by the run alone. -/
def isCountedClaim (runId : UUID) (claim : Claim) : Bool :=
  decide (claim.evaluationRunId = runId) && claim.deletedAt.isNone

def isCountedContradiction (runId : UUID) (c : Contradiction) : Bool :=
  decide (c.evaluationRunId = runId) && c.deletedAt.isNone

def getResultsSummary (ctx : ReadContext) (runId orgId : UUID) : Query ResultsSummary := do
  let run ← verifyRun runId orgId
  let totalClaims ← select fun s => (s.store.claims.filter (isCountedClaim runId)).length
  let totalContradictions ← select fun s =>
    (s.store.contradictions.filter (isCountedContradiction runId)).length
  let scores ← getScoresForRun ctx runId orgId
  return {
    runId := uuidText runId
    status := run.status.value
    overallScore := run.overallScore
    totalWorkers := run.totalWorkers
    completedWorkers := run.completedWorkers
    failedWorkers := run.failedWorkers
    totalClaims
    totalContradictions
    scores
    progressPct := progressPct run }

def statusValue : WorkerStatus → String
  | .pending => "pending"
  | .running => "running"
  | .completed => "completed"
  | .failed => "failed"

def optionalText (text : Option String) : Json := (text.map Json.str).getD .null

def workerJson (row : WorkerResultRow) : Json :=
  .obj [("worker_type", .str row.workerType),
    ("status", .str (statusValue row.status)),
    ("processing_time_ms", .num row.processingTimeMs),
    ("output_data", .obj row.outputData),
    ("error_message", optionalText row.errorMessage)]

def claimJson (claim : Claim) : Json :=
  .obj [("claim_text", .str claim.claimText),
    ("category", .str claim.category),
    ("confidence_score", .num claim.confidenceScore),
    ("verification_status", .str claim.verificationStatus),
    ("source_reference", optionalText claim.sourceReference)]

def contradictionJson (c : Contradiction) : Json :=
  .obj [("contradiction_type", .str c.contradictionType),
    ("severity", .num c.severity),
    ("explanation", .str c.explanation)]

def scoreJson (score : Score) : Json :=
  .obj [("dimension", .str score.dimension),
    ("value", .num score.value),
    ("weight", .num score.weight),
    ("rationale", optionalText score.rationale)]

def exportPayload (runId : UUID) (run : EvaluationRun) (workers : List WorkerResultRow)
    (claims : List (Stamped Claim)) (contradictions : List Contradiction) (scores : List Score) : Dict :=
  [("run_id", .str (uuidText runId)),
    ("status", .str run.status.value),
    ("overall_score", (run.overallScore.map Json.num).getD .null),
    ("workers", .arr (workers.map workerJson)),
    ("claims", .arr (claims.map fun claim => claimJson claim.row)),
    ("contradictions", .arr (contradictions.map contradictionJson)),
    ("scores", .arr (scores.map scoreJson))]

def exportData (fmt : String) (payload : Dict) (scores : List Score) : ExportData :=
  if fmt = "json" then .indented payload
  else if fmt = "csv" then
    .csv (scores.map fun score => (score.dimension, score.value, score.weight, score.rationale))
  else .compact payload

def generateExportKey (orgId runId : UUID) (fmt : String) : String :=
  "exports/" ++ uuidText orgId ++ "/" ++ uuidText runId ++ "/results." ++ fmt

def contentType (fmt : String) : String :=
  if fmt = "json" then "application/json"
  else if fmt = "csv" then "text/csv"
  else "application/octet-stream"

/-- The object that an export leaves in the bucket, and the URL that it returns. -/
structure Export where
  key : String
  data : ExportData
  contentType : String
  downloadUrl : String

/-- The answer of a service outside the database. -/
def external {α : Type} (answer : Except String α) : Query α := lift (answer.mapError .failure)

/-- `export_results`. That `orjson` refuses an integer of more than 64 bits,
which a JSONB column may hold, is left out. -/
def exportResults (ctx : ReadContext) (runId orgId : UUID) (fmt : String) : Query Export := do
  let run ← verifyRun runId orgId
  let workers ← getWorkerResultsForRun runId orgId
  let (claims, _) ← getClaimsForRun runId orgId none 1 10000
  let contradictions ← getContradictionsForRun runId orgId
  let scores ← getScoresForRun ctx runId orgId
  let data := exportData fmt (exportPayload runId run workers claims contradictions scores) scores
  let _ ← external (ctx.uploadBytes (generateExportKey orgId runId fmt) data (contentType fmt))
  let downloadUrl ← external (ctx.presignDownload (generateExportKey orgId runId fmt))
  return { key := generateExportKey orgId runId fmt, data, contentType := contentType fmt, downloadUrl }

end EvalEngine.ResultService
