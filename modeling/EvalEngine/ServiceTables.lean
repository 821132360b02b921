import EvalEngine.ConstrainedTables
import EvalEngine.SubmissionModel

namespace EvalEngine.ServiceTables

open EvalEngine.JsonValues EvalEngine.Exceptions EvalEngine.RunModel EvalEngine.SubmissionModel
open EvalEngine.ConstrainedTables

structure Organization where
  id : UUID
  name : String
  slug : String
  maxConcurrentEvaluations : Int := 10
  deletedAt : Option Time := none

inductive UserRole
  | admin
  | judge
  | viewer
  deriving DecidableEq, Repr

def UserRole.value : UserRole → String
  | .admin => "admin"
  | .judge => "judge"
  | .viewer => "viewer"

structure User where
  id : UUID
  email : String
  hashedPassword : String
  fullName : String
  role : UserRole := .viewer
  organizationId : UUID
  isActive : Bool := true
  lastLoginAt : Option Time := none
  failedLoginAttempts : Nat := 0
  deletedAt : Option Time := none

def User.maxFailedAttempts : Nat := 5

def User.isLocked (user : User) : Bool :=
  decide (User.maxFailedAttempts ≤ user.failedLoginAttempts)

structure ApiKey where
  id : UUID
  name : String
  keyHash : String
  keyPrefix : String
  userId : UUID
  organizationId : UUID
  scopes : List String := []
  expiresAt : Option Time := none
  lastUsedAt : Option Time := none
  isRevoked : Bool := false
  deletedAt : Option Time := none

def ApiKey.isValid (now : Time) (apiKey : ApiKey) : Bool :=
  !apiKey.isRevoked && apiKey.expiresAt.all (fun expiresAt => decide (now ≤ expiresAt))

inductive DatasetStatus
  | uploading
  | validating
  | ready
  | failed
  | archived
  deriving DecidableEq, Repr

def DatasetStatus.value : DatasetStatus → String
  | .uploading => "uploading"
  | .validating => "validating"
  | .ready => "ready"
  | .failed => "failed"
  | .archived => "archived"

structure Dataset where
  id : UUID
  name : String
  description : Option String := none
  organizationId : UUID
  createdById : Option UUID
  storagePath : String
  sampleCount : Int := 0
  checksum : String
  sizeBytes : Int := 0
  status : DatasetStatus := .uploading
  metadata : Dict := []
  deletedAt : Option Time := none

structure EvaluationConfig where
  id : UUID
  name : String
  description : Option String := none
  organizationId : UUID
  createdById : Option UUID
  pipelineConfig : Dict := []
  webhookUrl : Option String := none
  isTemplate : Bool := false
  version : Nat := 1
  deletedAt : Option Time := none

inductive MetricType
  | accuracy
  | f1
  | bleu
  | rouge
  | toxicity
  | latency
  | coherence
  | relevance
  | custom
  deriving DecidableEq, Repr

structure Metric where
  id : UUID
  name : String
  displayName : String
  description : Option String := none
  organizationId : Option UUID
  metricType : MetricType
  computationConfig : Dict := []
  higherIsBetter : Bool := true
  minValue : Float
  maxValue : Float
  isBuiltin : Bool := false
  deletedAt : Option Time := none

/-- The values of an INTEGER and of a BIGINT column. -/
def int4 (n : Int) : Bool := decide (-2147483648 ≤ n) && decide (n < 2147483648)

def int8 (n : Int) : Bool := decide (-9223372036854775808 ≤ n) && decide (n < 9223372036854775808)

instance : Entity Organization where
  key := Organization.id
  indexed org := if org.deletedAt.isNone then some org.slug else none
  fits org := varchar 255 org.name && varchar 63 org.slug && int4 org.maxConcurrentEvaluations

instance : Entity User where
  key := User.id
  indexed user := if user.deletedAt.isNone then some user.email else none
  fits user := varchar 255 user.email && varchar 255 user.hashedPassword &&
    varchar 255 user.fullName && int4 user.failedLoginAttempts

instance : Entity ApiKey where
  key := ApiKey.id
  indexed apiKey := some apiKey.keyHash
  fits apiKey := varchar 255 apiKey.name && varchar 64 apiKey.keyHash &&
    varchar 11 apiKey.keyPrefix && apiKey.scopes.all textStorable

instance : Entity Dataset where
  key := Dataset.id
  indexed _ := none
  fits dataset := varchar 255 dataset.name && dataset.description.all textStorable &&
    varchar 1024 dataset.storagePath && int4 dataset.sampleCount && varchar 64 dataset.checksum &&
    int8 dataset.sizeBytes && dictStorable dataset.metadata

instance : Entity Submission where
  key := Submission.id
  indexed _ := none
  fits submission := varchar 255 submission.startupName &&
    submission.description.all textStorable && submission.websiteUrl.all (varchar 2048) &&
    submission.pitchDeckUrl.all (varchar 2048) && dictStorable submission.metadata &&
    dictStorable submission.rawContent

instance : Entity EvaluationConfig where
  key := EvaluationConfig.id
  indexed _ := none
  fits config := varchar 255 config.name && config.description.all textStorable &&
    dictStorable config.pipelineConfig && config.webhookUrl.all (varchar 2048) &&
    int4 config.version

instance : Entity EvaluationRun where
  key := EvaluationRun.id
  indexed _ := none
  fits run := int4 run.version && int4 run.totalWorkers && int4 run.completedWorkers &&
    int4 run.failedWorkers && run.errorMessage.all textStorable &&
    run.celeryTaskId.all (varchar 255) && dictStorable run.configSnapshot &&
    dictStorable run.runMetadata

instance : Entity Metric where
  key := Metric.id
  indexed _ := none
  fits metric := varchar 255 metric.name && varchar 255 metric.displayName &&
    metric.description.all textStorable && dictStorable metric.computationConfig

/-- The tables behind the services. -/
structure Tables where
  organizations : Table Organization
  users : Table User
  apiKeys : Table ApiKey
  datasets : Table Dataset
  submissions : Table Submission
  evaluationConfigs : Table EvaluationConfig
  evaluationRuns : Table EvaluationRun
  metrics : Table Metric

def Tables.empty : Tables :=
  ⟨.empty, .empty, .empty, .empty, .empty, .empty, .empty, .empty⟩

def Tables.hasOrganization (tables : Tables) (orgId : UUID) : Bool :=
  tables.organizations.rows.any (fun org => decide (org.id = orgId))

def Tables.hasUser (tables : Tables) (userId : UUID) : Bool :=
  tables.users.rows.any (fun user => decide (user.id = userId))

def Tables.hasSubmission (tables : Tables) (submissionId : UUID) : Bool :=
  tables.submissions.rows.any (fun submission => decide (submission.id = submissionId))

def Tables.hasConfig (tables : Tables) (configId : UUID) : Bool :=
  tables.evaluationConfigs.rows.any (fun config => decide (config.id = configId))

/-- The table of a row type, and what its foreign keys ask of the others. -/
class Stored (ρ : Type) extends Entity ρ where
  table : Tables → Table ρ
  put : Table ρ → Tables → Tables
  references : Tables → ρ → Bool
  table_put : ∀ t tables, table (put t tables) = t

instance : Stored Organization where
  table := Tables.organizations
  put t tables := { tables with organizations := t }
  references _ _ := true
  table_put _ _ := rfl

instance : Stored User where
  table := Tables.users
  put t tables := { tables with users := t }
  references tables user := tables.hasOrganization user.organizationId
  table_put _ _ := rfl

instance : Stored ApiKey where
  table := Tables.apiKeys
  put t tables := { tables with apiKeys := t }
  references tables apiKey := tables.hasUser apiKey.userId &&
    tables.hasOrganization apiKey.organizationId
  table_put _ _ := rfl

instance : Stored Dataset where
  table := Tables.datasets
  put t tables := { tables with datasets := t }
  references tables dataset := tables.hasOrganization dataset.organizationId &&
    dataset.createdById.all tables.hasUser
  table_put _ _ := rfl

instance : Stored Submission where
  table := Tables.submissions
  put t tables := { tables with submissions := t }
  references tables submission := tables.hasOrganization submission.organizationId &&
    submission.submittedById.all tables.hasUser
  table_put _ _ := rfl

instance : Stored EvaluationConfig where
  table := Tables.evaluationConfigs
  put t tables := { tables with evaluationConfigs := t }
  references tables config := tables.hasOrganization config.organizationId &&
    config.createdById.all tables.hasUser
  table_put _ _ := rfl

instance : Stored EvaluationRun where
  table := Tables.evaluationRuns
  put t tables := { tables with evaluationRuns := t }
  references tables run := tables.hasSubmission run.submissionId &&
    run.configId.all tables.hasConfig && tables.hasOrganization run.organizationId &&
    run.triggeredById.all tables.hasUser
  table_put _ _ := rfl

instance : Stored Metric where
  table := Tables.metrics
  put t tables := { tables with metrics := t }
  references tables metric := metric.organizationId.all tables.hasOrganization
  table_put _ _ := rfl

open Entity Stored

variable {ρ : Type} [Stored ρ]

/-- INSERT: the new row is the only change. -/
def Inserted (row : ρ) (before after : Tables) : Prop :=
  ∃ t : Table ρ, after = put t before ∧ t.rows = (table before : Table ρ).rows ++ [row]

/-- UPDATE: the row takes the place of the one with its key, and nothing else changes. -/
def Updated (row : ρ) (before after : Tables) : Prop :=
  ∃ t : Table ρ, after = put t before ∧ t.rows = Table.replaced row (table before : Table ρ).rows

/-- The INSERT of a row. -/
def insertRow (row : ρ) (tables : Tables) : Except PyException Tables :=
  if references tables row then
    match (table tables).insert row with
    | some t => .ok (put t tables)
    | none => .error (.databaseError "a value does not fit its column, or a key is taken")
  else .error (.databaseError "foreign key violation")

/-- The UPDATE of a row, by its primary key. -/
def updateRow (row : ρ) (tables : Tables) : Except PyException Tables :=
  match (table tables).update row with
  | some t => .ok (put t tables)
  | none => .error (.databaseError "a value does not fit its column, or a key is taken")

theorem insertRow_cases (row : ρ) (tables : Tables)
    (hkey : key row = (table tables : Table ρ).freshKey)
    (hindex : ∀ v ∈ indexed row, v ∉ (table tables : Table ρ).rows.filterMap indexed) :
    (references tables row = true ∧ fits row = true ∧
      ∃ after, insertRow row tables = .ok after ∧ Inserted row tables after) ∨
    (¬ (references tables row = true ∧ fits row = true) ∧
      ∃ message, insertRow row tables = .error (.databaseError message)) := by
  by_cases href : references tables row = true
  · obtain ⟨hfits, t, ht, hrows⟩ | ⟨hfits, hnone⟩ :=
      (table tables).insert_fresh hkey hindex
    · exact .inl ⟨href, hfits, put t tables, by simp [insertRow, href, ht], t, rfl, hrows⟩
    · refine .inr ⟨fun h => ?_, _, by simp only [insertRow, href, if_true, hnone]; rfl⟩
      rw [hfits] at h
      exact absurd h.2 (by decide)
  · exact .inr ⟨fun h => href h.1, _, by simp only [insertRow, href]; rfl⟩

theorem updateRow_cases {old : ρ} (row : ρ) (tables : Tables)
    (hold : old ∈ (table tables : Table ρ).rows)
    (hkey : key row = key old) (hindex : indexed row = indexed old) :
    (fits row = true ∧ ∃ after, updateRow row tables = .ok after ∧
      Updated row tables after) ∨
    (fits row = false ∧ ∃ message, updateRow row tables = .error (.databaseError message)) := by
  obtain ⟨hfits, t, ht, hrows⟩ | ⟨hfits, hnone⟩ :=
    (table tables).update_existing hold hkey hindex
  · exact .inl ⟨hfits, put t tables, by simp [updateRow, ht], t, rfl, hrows⟩
  · exact .inr ⟨hfits, _, by simp only [updateRow, hnone]; rfl⟩

theorem mem_of_updated {old row : ρ} {before after : Tables} (h : Updated row before after)
    (hold : old ∈ (table before : Table ρ).rows) (hkey : key row = key old) :
    row ∈ (table after : Table ρ).rows := by
  obtain ⟨t, rfl, hrows⟩ := h
  rw [table_put, hrows]
  exact List.mem_map.2 ⟨old, hold, by simp [hkey]⟩

end EvalEngine.ServiceTables
