import EvalEngine.ResponseSchemas
import EvalEngine.ServiceRequests

namespace EvalEngine.ResponseEndpoints

open EvalEngine.JsonValues EvalEngine.Exceptions EvalEngine.RunModel EvalEngine.SubmissionModel
open EvalEngine.ServiceTables EvalEngine.Transactions EvalEngine.AuditService
open EvalEngine.ServiceContracts EvalEngine.FromAttributes EvalEngine.ResponseSchemas
open EvalEngine.AuthService EvalEngine.DatasetService

structure UserCreate where
  email : String
  password : String
  fullName : String
  organizationName : String

structure ApiKeyCreate where
  name : String
  scopes : List String := ["evaluations:read"]
  expiresInDays : Option Nat := none

structure DatasetCreate where
  name : String
  description : Option String := none
  sizeBytes : Int
  metadata : Dict := []

def validationError (title : String) (errors : List FieldError) : PyException :=
  .valueError (toString errors.length ++ " validation error" ++
    (if errors.length = 1 then "" else "s") ++ " for " ++ title)

/-- `title.model_validate(obj)`. -/
def respond (title : String) (schema : Schema) (obj : Attributes Value) : Service (Attributes Value) :=
  ofExcept ((modelValidate accepts schema obj).mapError (validationError title))

/-- `response.name = value`. -/
def assign (name : String) (value : Value) (response : Attributes Value) : Attributes Value :=
  response.filter (fun field => field.1 != name) ++ [(name, value)]

def textList (texts : List String) : Json := .arr (texts.map .str)

section Endpoints

variable (ctx : Context) (ip : Option String)

def now : Stamps := ⟨ctx.now, ctx.now⟩

def register (body : UserCreate) : Service (Attributes Value) := do
  let (user, _) ← registerUser ctx body.email body.password body.fullName body.organizationName ip
  respond "UserResponse" userResponse (userObject (now ctx) user)

def createApiKey (user : User) (body : ApiKeyCreate) : Service (Attributes Value) := do
  let (apiKey, rawKey) ← createApiKeyForUser ctx user.id user.organizationId body.name body.scopes
    body.expiresInDays ip
  let response ← respond "ApiKeyCreated" apiKeyCreated
    (apiKeyObject (now ctx) (textList apiKey.scopes) apiKey)
  pure (assign "raw_key" (.str rawKey) response)

def createDataset (s3PresignedUrlExpiry : Int) (user : User) (body : DatasetCreate) :
    Service (Attributes Value) := do
  let (dataset, uploadUrl) ← initiateDatasetUpload ctx user.organizationId user.id body.name
    body.description body.sizeBytes (some body.metadata) ip
  let response ← respond "DatasetCreateResponse" datasetCreateResponse
    (datasetObject (now ctx) "1.0" (.obj dataset.metadata) dataset)
  pure (assign "upload_expires_in" (.int s3PresignedUrlExpiry)
    (assign "upload_url" (.str uploadUrl) response))

end Endpoints

section Refused

variable {α β : Type} {db : Database}

/-- The code raises whatever the transaction is. -/
def Refuses (m : Service α) : Prop := ∃ e, ∀ t, m.run t = (.error e, t)

theorem refuses_respond {title : String} {schema : Schema} {obj : Attributes Value}
    (h : ¬ Shows schema obj) : Refuses (respond title schema obj) := by
  obtain ⟨errors, herrors⟩ := modelValidate_error h
  refine ⟨validationError title errors, fun t => ?_⟩
  rw [respond, run_ofExcept, herrors]
  rfl

theorem Refuses.bind {m : Service α} (h : Refuses m) (k : α → Service β) : Refuses (m >>= k) := by
  obtain ⟨e, he⟩ := h
  exact ⟨e, fun t => run_bind_error (he t)⟩

/-- A response that cannot be built rolls back what the service has done. -/
theorem transact_refused {m : Service α} {k : α → Service β} (hk : ∀ a, Refuses (k a)) :
    ∃ e, transact (m >>= k) db = (.error e, db) := by
  cases hm : m.run { state := db } with
  | mk r t =>
    cases r with
    | error e => exact ⟨e, transact_error (run_bind_error hm)⟩
    | ok a =>
      obtain ⟨e, he⟩ := hk a
      exact ⟨e, transact_error ((run_bind_ok hm).trans (he t))⟩

theorem register_refused (ctx : Context) (ip : Option String) (body : UserCreate) :
    ∃ e, transact (register ctx ip body) db = (.error e, db) :=
  transact_refused fun result => refuses_respond (not_shows_user result.1)

theorem createApiKey_refused (ctx : Context) (ip : Option String) (user : User) (body : ApiKeyCreate) :
    ∃ e, transact (createApiKey ctx ip user body) db = (.error e, db) :=
  transact_refused fun result => (refuses_respond (not_shows_created _ result.1)).bind _

theorem createDataset_refused (ctx : Context) (ip : Option String) (expiry : Int) (user : User)
    (body : DatasetCreate) : ∃ e, transact (createDataset ctx ip expiry user body) db = (.error e, db) :=
  transact_refused fun result => (refuses_respond (not_shows_upload _ _ result.1)).bind _

end Refused

/-- No user and no dataset can be shown, the other rows exactly where their
JSON columns hold what the schema declares, and none of the three endpoints
ever builds its response. -/
theorem stored_rows_shown (ctx : Context) (ip : Option String) (db : Database) :
    (∀ stamps user, ¬ Shows userResponse (userObject stamps user)) ∧
    (∀ stamps scopes apiKey,
      Shows apiKeyResponse (apiKeyObject stamps scopes apiKey) ↔ isTextList scopes = true) ∧
    (∀ stamps schemaVersion metadata dataset,
      ¬ Shows datasetResponse (datasetObject stamps schemaVersion metadata dataset)) ∧
    (∀ metadata submission,
      Shows submissionResponse (submissionObject metadata submission) ↔ isObject metadata = true) ∧
    (∀ stamps pipelineConfig config,
      Shows evaluationConfigResponse (configObject stamps pipelineConfig config) ↔
        isObject pipelineConfig = true) ∧
    (∀ configSnapshot runMetadata run,
      Shows evaluationRunResponse (runObject configSnapshot runMetadata run) ↔
        isObject configSnapshot = true ∧ isObject runMetadata = true) ∧
    (∀ stamps computationConfig metric,
      Shows metricResponse (metricObject stamps computationConfig metric) ↔
        isObject computationConfig = true) ∧
    (∀ body, ∃ e, transact (register ctx ip body) db = (.error e, db)) ∧
    (∀ user body, ∃ e, transact (createApiKey ctx ip user body) db = (.error e, db)) ∧
    (∀ expiry user body, ∃ e, transact (createDataset ctx ip expiry user body) db = (.error e, db)) :=
  ⟨fun _ => not_shows_user, fun _ => shows_apiKey, fun _ => not_shows_dataset, shows_submission,
    fun _ => shows_config, shows_run, fun _ => shows_metric, register_refused ctx ip,
    createApiKey_refused ctx ip, createDataset_refused ctx ip⟩

section Sample

open EvalEngine.ServiceRequests (sampleContext)

def founder : UserCreate where
  email := "founder@startup.io"
  password := "correct horse"
  fullName := "Founder"
  organizationName := "Startup One"

def founderRow : User where
  id := 1
  email := "founder@startup.io"
  hashedPassword := "$2b$12$correct horse"
  fullName := "Founder"
  role := .admin
  organizationId := 1

/-- The service registers the founder, and the endpoint undoes it: the response
asks the user for `mfa_enabled`. -/
theorem registered_not_shown :
    ((transact (registerUser sampleContext founder.email founder.password founder.fullName
        founder.organizationName none) .created).2.tables.users.rows.length = 1) ∧
    (∃ e, transact (register sampleContext none founder) .created = (.error e, .created)) ∧
    ¬ Shows userResponse (userObject ⟨0, 0⟩ founderRow) :=
  ⟨by decide +kernel, register_refused sampleContext none founder, not_shows_user founderRow⟩

end Sample

end EvalEngine.ResponseEndpoints
