import EvalEngine.AuthService
import EvalEngine.DatasetService
import EvalEngine.FromAttributes
import EvalEngine.WorkerCounters

namespace EvalEngine.ResponseSchemas

open EvalEngine.JsonValues EvalEngine.Exceptions EvalEngine.RunModel EvalEngine.SubmissionModel
open EvalEngine.ConstrainedTables EvalEngine.ServiceTables EvalEngine.Transactions
open EvalEngine.AuditService EvalEngine.ServiceContracts EvalEngine.FromAttributes
open EvalEngine.WorkerCounters (progressPct)

/-- The values of the attributes of a mapped object. A member of a string
enumeration is its value. -/
inductive Value
  | none
  | bool (b : Bool)
  | int (n : Int)
  | float (x : Float)
  | ratio (q : ℚ)
  | str (s : String)
  | uuid (id : UUID)
  | datetime (t : Time)
  | enum (value : String)
  | json (value : Json)
  | metaData

inductive FieldType
  | uuid
  | str
  | bool
  | int
  | float
  | datetime
  | dict
  | listOfStr
  | enum (values : List String)
  | optional (type : FieldType)
  deriving DecidableEq

def isText : Json → Bool
  | .str _ => true
  | _ => false

def isTextList : Json → Bool
  | .arr items => items.all isText
  | _ => false

def isObject : Json → Bool
  | .obj _ => true
  | _ => false

def accepts : FieldType → Value → Bool
  | .optional _, .none => true
  | .optional type, v => accepts type v
  | .uuid, .uuid _ | .bool, .bool _ | .int, .int _ | .datetime, .datetime _ => true
  | .float, .float _ | .float, .ratio _ | .float, .int _ => true
  | .str, .str _ | .str, .enum _ => true
  | .dict, .json value => isObject value
  | .listOfStr, .json value => isTextList value
  | .enum values, .enum value | .enum values, .str value => values.contains value
  | _, _ => false

abbrev Schema := List (SchemaField FieldType)

/-- `name: type`. -/
def required (name : String) (type : FieldType) : SchemaField FieldType := { name, type }

/-- `name: type | None`. -/
def nullable (name : String) (type : FieldType) : SchemaField FieldType := { name, type := .optional type }

def timestampSchema : Schema := [required "created_at" .datetime, required "updated_at" .datetime]

/-- `security.Role`. -/
def roleValues : List String := ["admin", "member", "viewer"]

def userResponse : Schema := timestampSchema ++
  [required "id" .uuid, required "email" .str, required "full_name" .str,
    required "role" (.enum roleValues), required "organization_id" .uuid, required "is_active" .bool,
    required "mfa_enabled" .bool, nullable "last_login_at" .datetime]

def apiKeyResponse : Schema := timestampSchema ++
  [required "id" .uuid, required "name" .str, required "key_prefix" .str, required "scopes" .listOfStr,
    nullable "expires_at" .datetime, nullable "last_used_at" .datetime, required "is_revoked" .bool]

def apiKeyCreated : Schema := apiKeyResponse ++ [required "raw_key" .str]

def datasetStatusValues : List String := ["uploading", "validating", "ready", "failed", "archived"]

def datasetCreateResponse : Schema := timestampSchema ++
  [required "id" .uuid, required "name" .str, required "status" (.enum datasetStatusValues),
    required "upload_url" .str, required "upload_expires_in" .int]

def datasetResponse : Schema := timestampSchema ++
  [required "id" .uuid, required "name" .str, nullable "description" .str,
    required "organization_id" .uuid, nullable "created_by_id" .uuid, required "sample_count" .int,
    required "schema_version" .str, required "checksum" .str, required "size_bytes" .int,
    required "status" (.enum datasetStatusValues), required "metadata" .dict]

def submissionStatusValues : List String :=
  ["draft", "submitted", "under_review", "evaluated", "archived"]

def submissionResponse : Schema := timestampSchema ++
  [required "id" .uuid, required "organization_id" .uuid, nullable "submitted_by_id" .uuid,
    required "startup_name" .str, nullable "description" .str, nullable "website_url" .str,
    nullable "pitch_deck_url" .str, required "status" (.enum submissionStatusValues),
    { name := "metadata", aliasName := "metadata_", type := .dict }]

def evaluationConfigResponse : Schema := timestampSchema ++
  [required "id" .uuid, required "name" .str, nullable "description" .str,
    required "organization_id" .uuid, nullable "created_by_id" .uuid, required "pipeline_config" .dict,
    nullable "webhook_url" .str, required "is_template" .bool, required "version" .int]

def runStatusValues : List String := ["pending", "running", "completed", "failed", "cancelled"]

def evaluationRunResponse : Schema := timestampSchema ++
  [required "id" .uuid, required "submission_id" .uuid, nullable "config_id" .uuid,
    required "organization_id" .uuid, nullable "triggered_by_id" .uuid,
    required "status" (.enum runStatusValues), nullable "started_at" .datetime,
    nullable "completed_at" .datetime, required "total_workers" .int, required "completed_workers" .int,
    required "failed_workers" .int, nullable "overall_score" .float, nullable "error_message" .str,
    nullable "celery_task_id" .str, required "config_snapshot" .dict,
    { name := "metadata", aliasName := "run_metadata", type := .dict }, required "progress_pct" .float]

def metricTypeValues : List String :=
  ["accuracy", "f1", "bleu", "rouge", "toxicity", "latency", "coherence", "relevance", "custom"]

def metricResponse : Schema := timestampSchema ++
  [required "id" .uuid, required "name" .str, required "display_name" .str, nullable "description" .str,
    nullable "organization_id" .uuid, required "metric_type" (.enum metricTypeValues),
    required "computation_config" .dict, required "higher_is_better" .bool, required "min_value" .float,
    required "max_value" .float, required "is_builtin" .bool]

/-- The columns of `TimestampMixin`. -/
structure Stamps where
  createdAt : Time
  updatedAt : Time

def optional {α : Type} (value : α → Value) : Option α → Value
  | none => .none
  | some a => value a

/-- What every mapped object has: the columns of `BaseModel`, and the attribute
`metadata` that the declarative base reserves. -/
def baseAttributes (stamps : Stamps) (id : UUID) (deletedAt : Option Time) : Attributes Value :=
  [("metadata", .metaData), ("id", .uuid id), ("created_at", .datetime stamps.createdAt),
    ("updated_at", .datetime stamps.updatedAt), ("deleted_at", optional .datetime deletedAt),
    ("is_deleted", .bool deletedAt.isSome)]

def userObject (stamps : Stamps) (user : User) : Attributes Value :=
  baseAttributes stamps user.id user.deletedAt ++
    [("email", .str user.email), ("hashed_password", .str user.hashedPassword),
      ("full_name", .str user.fullName), ("role", .enum user.role.value),
      ("organization_id", .uuid user.organizationId), ("is_active", .bool user.isActive),
      ("last_login_at", optional .datetime user.lastLoginAt),
      ("failed_login_attempts", .int user.failedLoginAttempts), ("is_locked", .bool user.isLocked),
      ("MAX_FAILED_ATTEMPTS", .int User.maxFailedAttempts)]

def apiKeyObject (stamps : Stamps) (scopes : Json) (apiKey : ApiKey) : Attributes Value :=
  baseAttributes stamps apiKey.id apiKey.deletedAt ++
    [("name", .str apiKey.name), ("key_hash", .str apiKey.keyHash), ("key_prefix", .str apiKey.keyPrefix),
      ("user_id", .uuid apiKey.userId), ("organization_id", .uuid apiKey.organizationId),
      ("scopes", .json scopes), ("expires_at", optional .datetime apiKey.expiresAt),
      ("last_used_at", optional .datetime apiKey.lastUsedAt), ("is_revoked", .bool apiKey.isRevoked)]

def datasetObject (stamps : Stamps) (schemaVersion : String) (metadata : Json) (dataset : Dataset) :
    Attributes Value :=
  baseAttributes stamps dataset.id dataset.deletedAt ++
    [("name", .str dataset.name), ("description", optional .str dataset.description),
      ("organization_id", .uuid dataset.organizationId),
      ("created_by_id", optional .uuid dataset.createdById), ("storage_path", .str dataset.storagePath),
      ("sample_count", .int dataset.sampleCount), ("schema_version", .str schemaVersion),
      ("checksum", .str dataset.checksum), ("size_bytes", .int dataset.sizeBytes),
      ("status", .enum dataset.status.value), ("metadata_", .json metadata)]

def submissionObject (metadata : Json) (submission : Submission) : Attributes Value :=
  baseAttributes ⟨submission.createdAt, submission.updatedAt⟩ submission.id submission.deletedAt ++
    [("organization_id", .uuid submission.organizationId),
      ("submitted_by_id", optional .uuid submission.submittedById),
      ("startup_name", .str submission.startupName),
      ("description", optional .str submission.description),
      ("website_url", optional .str submission.websiteUrl),
      ("pitch_deck_url", optional .str submission.pitchDeckUrl), ("status", .enum submission.status.value),
      ("metadata_", .json metadata)]

def configObject (stamps : Stamps) (pipelineConfig : Json) (config : EvaluationConfig) :
    Attributes Value :=
  baseAttributes stamps config.id config.deletedAt ++
    [("name", .str config.name), ("description", optional .str config.description),
      ("organization_id", .uuid config.organizationId),
      ("created_by_id", optional .uuid config.createdById), ("pipeline_config", .json pipelineConfig),
      ("webhook_url", optional .str config.webhookUrl), ("is_template", .bool config.isTemplate),
      ("version", .int config.version)]

def runObject (configSnapshot runMetadata : Json) (run : EvaluationRun) : Attributes Value :=
  baseAttributes ⟨run.createdAt, run.updatedAt⟩ run.id run.deletedAt ++
    [("submission_id", .uuid run.submissionId), ("config_id", optional .uuid run.configId),
      ("organization_id", .uuid run.organizationId),
      ("triggered_by_id", optional .uuid run.triggeredById), ("status", .enum run.status.value),
      ("version", .int run.version), ("started_at", optional .datetime run.startedAt),
      ("completed_at", optional .datetime run.completedAt), ("total_workers", .int run.totalWorkers),
      ("completed_workers", .int run.completedWorkers), ("failed_workers", .int run.failedWorkers),
      ("overall_score", optional .ratio run.overallScore),
      ("error_message", optional .str run.errorMessage),
      ("celery_task_id", optional .str run.celeryTaskId), ("config_snapshot", .json configSnapshot),
      ("run_metadata", .json runMetadata), ("progress_pct", .ratio (progressPct run)),
      ("is_terminal", .bool run.isTerminal)]

def metricTypeValue : MetricType → String
  | .accuracy => "accuracy"
  | .f1 => "f1"
  | .bleu => "bleu"
  | .rouge => "rouge"
  | .toxicity => "toxicity"
  | .latency => "latency"
  | .coherence => "coherence"
  | .relevance => "relevance"
  | .custom => "custom"

def metricObject (stamps : Stamps) (computationConfig : Json) (metric : Metric) : Attributes Value :=
  baseAttributes stamps metric.id metric.deletedAt ++
    [("name", .str metric.name), ("display_name", .str metric.displayName),
      ("description", optional .str metric.description),
      ("organization_id", optional .uuid metric.organizationId),
      ("metric_type", .enum (metricTypeValue metric.metricType)),
      ("computation_config", .json computationConfig), ("higher_is_better", .bool metric.higherIsBetter),
      ("min_value", .float metric.minValue), ("max_value", .float metric.maxValue),
      ("is_builtin", .bool metric.isBuiltin)]

/-- The response can be built from the object. -/
abbrev Shows (schema : Schema) (obj : Attributes Value) : Prop := Validates accepts schema obj

section Rows

theorem accepts_optional {α : Type} {type : FieldType} {value : α → Value}
    (h : ∀ a, accepts type (value a) = true) (o : Option α) :
    accepts (.optional type) (optional value o) = true := by
  cases o with
  | none => rfl
  | some a =>
    have ha := h a
    cases hv : value a <;> simp_all [optional, accepts]

@[simp]
theorem accepts_optional_uuid (o : Option UUID) :
    accepts (.optional .uuid) (optional .uuid o) = true := accepts_optional (fun _ => rfl) o

@[simp]
theorem accepts_optional_str (o : Option String) :
    accepts (.optional .str) (optional .str o) = true := accepts_optional (fun _ => rfl) o

@[simp]
theorem accepts_optional_datetime (o : Option Time) :
    accepts (.optional .datetime) (optional .datetime o) = true := accepts_optional (fun _ => rfl) o

@[simp]
theorem accepts_optional_ratio (o : Option ℚ) :
    accepts (.optional .float) (optional .ratio o) = true := accepts_optional (fun _ => rfl) o

@[simp]
theorem submissionStatus_mem (status : SubmissionStatus) : status.value ∈ submissionStatusValues := by
  cases status <;> decide

@[simp]
theorem runStatus_mem (status : RunStatus) : status.value ∈ runStatusValues := by
  cases status <;> decide

@[simp]
theorem metricType_mem (type : MetricType) : metricTypeValue type ∈ metricTypeValues := by
  cases type <;> decide

variable {stamps : Stamps}

/-- No user has the attribute `mfa_enabled`. -/
theorem not_shows_user (user : User) : ¬ Shows userResponse (userObject stamps user) := by
  intro h
  obtain ⟨v, hv, -⟩ := validates_iff.1 h (required "mfa_enabled" .bool) (by decide)
  cases hv

/-- Under the name `metadata` stands the metadata of the declarative base. -/
theorem not_shows_dataset (schemaVersion : String) (metadata : Json) (dataset : Dataset) :
    ¬ Shows datasetResponse (datasetObject stamps schemaVersion metadata dataset) := by
  intro h
  obtain ⟨v, hv, haccepts⟩ := validates_iff.1 h (required "metadata" .dict) (by decide)
  cases hv
  cases haccepts

/-- The raw key is no attribute of the stored key. -/
theorem not_shows_created (scopes : Json) (apiKey : ApiKey) :
    ¬ Shows apiKeyCreated (apiKeyObject stamps scopes apiKey) := by
  intro h
  obtain ⟨v, hv, -⟩ := validates_iff.1 h (required "raw_key" .str) (by decide)
  cases hv

/-- The upload URL is no attribute of the stored dataset. -/
theorem not_shows_upload (schemaVersion : String) (metadata : Json) (dataset : Dataset) :
    ¬ Shows datasetCreateResponse (datasetObject stamps schemaVersion metadata dataset) := by
  intro h
  obtain ⟨v, hv, -⟩ := validates_iff.1 h (required "upload_url" .str) (by decide)
  cases hv

theorem shows_apiKey (scopes : Json) (apiKey : ApiKey) :
    Shows apiKeyResponse (apiKeyObject stamps scopes apiKey) ↔ isTextList scopes = true := by
  rw [Shows, validates_iff]
  simp only [apiKeyResponse, timestampSchema, required, nullable, SchemaField.Holds, SchemaField.find,
    apiKeyObject, baseAttributes, List.cons_append, List.nil_append, List.forall_mem_cons]
  simp [lookup_cons_of_ne, accepts]

theorem shows_submission (metadata : Json) (submission : Submission) :
    Shows submissionResponse (submissionObject metadata submission) ↔ isObject metadata = true := by
  rw [Shows, validates_iff]
  simp only [submissionResponse, timestampSchema, required, nullable, SchemaField.Holds, SchemaField.find,
    submissionObject, baseAttributes, List.cons_append, List.nil_append, List.forall_mem_cons]
  simp [lookup_cons_of_ne, accepts]

theorem shows_config (pipelineConfig : Json) (config : EvaluationConfig) :
    Shows evaluationConfigResponse (configObject stamps pipelineConfig config) ↔
      isObject pipelineConfig = true := by
  rw [Shows, validates_iff]
  simp only [evaluationConfigResponse, timestampSchema, required, nullable, SchemaField.Holds,
    SchemaField.find, configObject, baseAttributes, List.cons_append, List.nil_append,
    List.forall_mem_cons]
  simp [lookup_cons_of_ne, accepts]

theorem shows_run (configSnapshot runMetadata : Json) (run : EvaluationRun) :
    Shows evaluationRunResponse (runObject configSnapshot runMetadata run) ↔
      isObject configSnapshot = true ∧ isObject runMetadata = true := by
  rw [Shows, validates_iff]
  simp only [evaluationRunResponse, timestampSchema, required, nullable, SchemaField.Holds,
    SchemaField.find, runObject, baseAttributes, List.cons_append, List.nil_append, List.forall_mem_cons]
  simp [lookup_cons_of_ne, accepts]

theorem shows_metric (computationConfig : Json) (metric : Metric) :
    Shows metricResponse (metricObject stamps computationConfig metric) ↔
      isObject computationConfig = true := by
  rw [Shows, validates_iff]
  simp only [metricResponse, timestampSchema, required, nullable, SchemaField.Holds, SchemaField.find,
    metricObject, baseAttributes, List.cons_append, List.nil_append, List.forall_mem_cons]
  simp [lookup_cons_of_ne, accepts]

end Rows

end EvalEngine.ResponseSchemas
