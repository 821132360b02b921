import EvalEngine.AuthContracts
import EvalEngine.DatasetService
import EvalEngine.EvaluationService
import EvalEngine.MetricService
import EvalEngine.TriggerEvaluation

namespace EvalEngine.ServiceRequests

open EvalEngine.JsonValues EvalEngine.Exceptions EvalEngine.ConstrainedTables
open EvalEngine.ServiceTables EvalEngine.Transactions EvalEngine.AuditService
open EvalEngine.ServiceContracts EvalEngine.RowOperations
open EvalEngine.AuthService EvalEngine.AuthContracts EvalEngine.DatasetService
open EvalEngine.SubmissionService (SubmissionCreate SubmissionUpdate)
open EvalEngine.EvaluationService (EvaluationConfigCreate EvaluationConfigUpdate)
open EvalEngine.MetricService (MetricCreate)
open Entity Stored Contract

/-- The mutating operations of the services, with their arguments. -/
inductive Operation
  | registerUser (email password fullName organizationName : String)
  | authenticateUser (email password : String)
  | refreshAccessToken (refreshTokenStr : String)
  | authenticateApiKey (rawKey : String)
  | createApiKeyForUser (userId orgId : UUID) (name : String) (scopes : List String)
      (expiresInDays : Option Nat)
  | revokeApiKey (keyId orgId userId : UUID)
  | initiateDatasetUpload (orgId userId : UUID) (name : String) (description : Option String)
      (sizeBytes : Int) (metadata : Option Dict)
  | confirmDatasetUpload (datasetId orgId : UUID) (checksum : String) (sampleCount : Int)
  | deleteDataset (datasetId orgId userId : UUID)
  | createSubmission (orgId userId : UUID) (body : SubmissionCreate)
  | updateSubmission (submissionId orgId userId : UUID) (updates : SubmissionUpdate)
  | deleteSubmission (submissionId orgId userId : UUID)
  | triggerEvaluation (submissionId orgId userId : UUID) (configId : Option UUID)
      (runMetadata : Option Dict)
  | createEvaluationConfig (orgId userId : UUID) (body : EvaluationConfigCreate)
  | updateEvaluationConfig (configId orgId userId : UUID) (updates : EvaluationConfigUpdate)
  | deleteEvaluationConfig (configId orgId userId : UUID)
  | cancelEvaluationRun (runId orgId userId : UUID)
  | createCustomMetric (orgId userId : UUID) (body : MetricCreate)
  | seedBuiltinMetrics

namespace Operation

/-- The call, whose result the contract does not mention. -/
def run (ctx : Context) (ip : Option String) : Operation → Service Unit
  | .registerUser email password fullName organizationName => do
    let _ ← AuthService.registerUser ctx email password fullName organizationName ip
    pure ()
  | .authenticateUser email password => do
    let _ ← AuthService.authenticateUser ctx email password ip
    pure ()
  | .refreshAccessToken refreshTokenStr => do
    let _ ← AuthService.refreshAccessToken ctx refreshTokenStr
    pure ()
  | .authenticateApiKey rawKey => do
    let _ ← AuthService.authenticateApiKey ctx rawKey
    pure ()
  | .createApiKeyForUser userId orgId name scopes expiresInDays => do
    let _ ← AuthService.createApiKeyForUser ctx userId orgId name scopes expiresInDays ip
    pure ()
  | .revokeApiKey keyId orgId userId => do
    let _ ← AuthService.revokeApiKey ctx keyId orgId userId ip
    pure ()
  | .initiateDatasetUpload orgId userId name description sizeBytes metadata => do
    let _ ← DatasetService.initiateDatasetUpload ctx orgId userId name description sizeBytes
      metadata ip
    pure ()
  | .confirmDatasetUpload datasetId orgId checksum sampleCount => do
    let _ ← DatasetService.confirmDatasetUpload ctx datasetId orgId checksum sampleCount ip
    pure ()
  | .deleteDataset datasetId orgId userId => do
    let _ ← DatasetService.deleteDataset ctx datasetId orgId userId ip
    pure ()
  | .createSubmission orgId userId body => do
    let _ ← SubmissionService.createSubmission ctx orgId userId body ip
    pure ()
  | .updateSubmission submissionId orgId userId updates => do
    let _ ← SubmissionService.updateSubmission ctx submissionId orgId userId updates ip
    pure ()
  | .deleteSubmission submissionId orgId userId => do
    let _ ← SubmissionService.deleteSubmission ctx submissionId orgId userId ip
    pure ()
  | .triggerEvaluation submissionId orgId userId configId runMetadata => do
    let _ ← SubmissionService.triggerEvaluation ctx submissionId orgId userId configId runMetadata ip
    pure ()
  | .createEvaluationConfig orgId userId body => do
    let _ ← EvaluationService.createEvaluationConfig ctx orgId userId body ip
    pure ()
  | .updateEvaluationConfig configId orgId userId updates => do
    let _ ← EvaluationService.updateEvaluationConfig ctx configId orgId userId updates ip
    pure ()
  | .deleteEvaluationConfig configId orgId userId => do
    let _ ← EvaluationService.deleteEvaluationConfig ctx configId orgId userId ip
    pure ()
  | .cancelEvaluationRun runId orgId userId => do
    let _ ← EvaluationService.cancelEvaluationRun ctx runId orgId userId ip
    pure ()
  | .createCustomMetric orgId userId body => do
    let _ ← MetricService.createCustomMetric ctx orgId userId body ip
    pure ()
  | .seedBuiltinMetrics => do
    let _ ← MetricService.seedBuiltinMetrics
    pure ()

/-- What the operation owes, with the change that its code makes. -/
def codeContract (ctx : Context) (ip : Option String) (tables : Tables) : Operation → Contract
  | .registerUser email password fullName organizationName =>
    registerContract ctx email password fullName organizationName ip tables
  | .authenticateUser email password => loginContract ctx email password ip tables
  | .refreshAccessToken refreshTokenStr => refreshContract ctx refreshTokenStr tables
  | .authenticateApiKey rawKey => keyContract ctx rawKey tables
  | .createApiKeyForUser userId orgId name scopes expiresInDays =>
    createKeyContract ctx orgId userId name scopes expiresInDays ip tables
  | .revokeApiKey keyId orgId userId => revokeKeyContract keyId orgId userId ip tables
  | .initiateDatasetUpload orgId userId name description sizeBytes metadata =>
    initiateContract orgId userId name description sizeBytes metadata ip tables
  | .confirmDatasetUpload datasetId orgId checksum sampleCount =>
    confirmContract ctx datasetId orgId checksum sampleCount ip tables
  | .deleteDataset datasetId orgId userId =>
    deleteDatasetContract ctx datasetId orgId userId ip tables
  | .createSubmission orgId userId body =>
    SubmissionService.createContract ctx orgId userId body ip tables
  | .updateSubmission submissionId orgId userId updates =>
    SubmissionService.appliedContract ctx submissionId orgId userId updates ip tables
  | .deleteSubmission submissionId orgId userId =>
    SubmissionService.deleteContract ctx submissionId orgId userId ip tables
  | .triggerEvaluation submissionId orgId userId configId runMetadata =>
    TriggerEvaluation.triggerContract ctx submissionId orgId userId configId runMetadata ip tables
  | .createEvaluationConfig orgId userId body =>
    EvaluationService.createContract orgId userId body ip tables
  | .updateEvaluationConfig configId orgId userId updates =>
    EvaluationService.updateContract configId orgId userId updates ip tables
  | .deleteEvaluationConfig configId orgId userId =>
    EvaluationService.deleteContract ctx configId orgId userId ip tables
  | .cancelEvaluationRun runId orgId userId =>
    EvaluationService.cancelContract ctx runId orgId userId ip tables
  | .createCustomMetric orgId userId body =>
    MetricService.createContract orgId userId body ip tables
  | .seedBuiltinMetrics => MetricService.seedContract tables

/-- What the operation owes to its caller. It differs in the metadata of an update. -/
def contract (ctx : Context) (ip : Option String) (tables : Tables) : Operation → Contract
  | .updateSubmission submissionId orgId userId updates =>
    SubmissionService.updateContract ctx submissionId orgId userId updates ip tables
  | op => op.codeContract ctx ip tables

/-- When the code follows its contract: a guard stops it, or its audit action
exists, its look-ups match one row at most, what it writes fits, and the
libraries and services it calls do not fail. -/
def Runs (ctx : Context) (tables : Tables) : Operation → Prop
  | .registerUser email password fullName organizationName =>
    Registrable ctx email password fullName organizationName tables
  | .authenticateUser email password => Verifiable ctx email password tables
  | .refreshAccessToken refreshTokenStr =>
    (refreshGuard ctx refreshTokenStr tables).isSome = true
  | .authenticateApiKey _ => True
  | .createApiKeyForUser _ _ _ _ _ => False
  | .revokeApiKey keyId orgId _ => scopedRow ApiKey keyId orgId tables = none
  | .initiateDatasetUpload orgId userId name description sizeBytes metadata =>
    Initiable ctx orgId userId name description sizeBytes metadata tables
  | .confirmDatasetUpload datasetId orgId checksum _ =>
    (confirmGuard ctx datasetId checksum (scopedRow Dataset datasetId orgId tables)).isSome = true
  | .deleteDataset datasetId orgId _ => scopedRow Dataset datasetId orgId tables = none
  | .createSubmission orgId userId body =>
    references tables (SubmissionService.addedSubmission ctx orgId userId body tables) = true ∧
      fits (SubmissionService.addedSubmission ctx orgId userId body tables) = true
  | .updateSubmission submissionId orgId _ updates =>
    ∀ submission ∈ scopedRow SubmissionModel.Submission submissionId orgId tables,
      fits (SubmissionService.updatedRow ctx.now updates submission) = true
  | .deleteSubmission _ _ _ => True
  | .triggerEvaluation submissionId orgId userId configId runMetadata =>
    TriggerEvaluation.triggerGuard submissionId orgId configId tables = none →
      TriggerEvaluation.Startable ctx orgId userId runMetadata tables
  | .createEvaluationConfig orgId userId body =>
    references tables (EvaluationService.addedConfig orgId userId body tables) = true ∧
      fits (EvaluationService.addedConfig orgId userId body tables) = true
  | .updateEvaluationConfig configId orgId _ updates =>
    ∀ config ∈ scopedRow EvaluationConfig configId orgId tables, fits (updates.apply config) = true
  | .deleteEvaluationConfig _ _ _ => True
  | .cancelEvaluationRun runId orgId _ => EvaluationService.Cancellable ctx runId orgId tables
  | .createCustomMetric orgId _ body => MetricService.Creatable orgId body tables
  | .seedBuiltinMetrics => MetricService.Seedable tables

/-- An update of a submission asks for no other metadata than the row has. -/
def KeepsMetadata (tables : Tables) : Operation → Prop
  | .updateSubmission submissionId orgId _ updates =>
    SubmissionService.KeepsMetadata submissionId orgId updates tables
  | _ => True

/-- Every operation follows the contract of its code exactly when it runs. -/
theorem run_follows (ctx : Context) (ip : Option String) (op : Operation) (db : Database) :
    (op.codeContract ctx ip db.tables).Follows (op.Runs ctx db.tables) ctx db
      ((op.run ctx ip).run { state := db }) := by
  cases op with
  | registerUser email password fullName organizationName =>
    exact (registerUser_follows db).bind_pure _
  | authenticateUser email password => exact (authenticateUser_follows db).bind_pure _
  | refreshAccessToken refreshTokenStr => exact (refreshAccessToken_follows db).bind_pure _
  | authenticateApiKey rawKey => exact (authenticateApiKey_follows db).bind_pure _
  | createApiKeyForUser userId orgId name scopes expiresInDays =>
    exact (createApiKeyForUser_follows db).bind_pure _
  | revokeApiKey keyId orgId userId => exact (revokeApiKey_follows db).bind_pure _
  | initiateDatasetUpload orgId userId name description sizeBytes metadata =>
    exact (initiateDatasetUpload_follows db).bind_pure _
  | confirmDatasetUpload datasetId orgId checksum sampleCount =>
    exact (confirmDatasetUpload_follows db).bind_pure _
  | deleteDataset datasetId orgId userId => exact (deleteDataset_follows db).bind_pure _
  | createSubmission orgId userId body =>
    exact (SubmissionService.createSubmission_follows db).bind_pure _
  | updateSubmission submissionId orgId userId updates =>
    exact (SubmissionService.updateSubmission_follows db).bind_pure _
  | deleteSubmission submissionId orgId userId =>
    exact (SubmissionService.deleteSubmission_follows db).bind_pure _
  | triggerEvaluation submissionId orgId userId configId runMetadata =>
    exact (TriggerEvaluation.triggerEvaluation_follows db).bind_pure _
  | createEvaluationConfig orgId userId body =>
    exact (EvaluationService.createEvaluationConfig_follows db).bind_pure _
  | updateEvaluationConfig configId orgId userId updates =>
    exact (EvaluationService.updateEvaluationConfig_follows db).bind_pure _
  | deleteEvaluationConfig configId orgId userId =>
    exact (EvaluationService.deleteEvaluationConfig_follows db).bind_pure _
  | cancelEvaluationRun runId orgId userId =>
    exact (EvaluationService.cancelEvaluationRun_follows db).bind_pure _
  | createCustomMetric orgId userId body =>
    exact (MetricService.createCustomMetric_follows ctx db).bind_pure _
  | seedBuiltinMetrics => exact (MetricService.seedBuiltinMetrics_follows ctx db).bind_pure _

/-- The guards and the audit entry are the code's own. -/
theorem contract_guard (ctx : Context) (ip : Option String) (op : Operation) (tables : Tables) :
    (op.contract ctx ip tables).guard = (op.codeContract ctx ip tables).guard := by
  cases op <;> rfl

theorem contract_entry (ctx : Context) (ip : Option String) (op : Operation) (tables : Tables) :
    (op.contract ctx ip tables).entry = (op.codeContract ctx ip tables).entry := by
  cases op <;> rfl

/-- The change that the code makes is the one it owes, unless it drops metadata. -/
theorem contract_change_iff {ctx : Context} {ip : Option String} {op : Operation}
    {tables after : Tables} (h : (op.codeContract ctx ip tables).change after) :
    (op.contract ctx ip tables).change after ↔ op.KeepsMetadata tables := by
  cases op with
  | updateSubmission submissionId orgId userId updates =>
    exact SubmissionService.requested_iff_keepsMetadata h
  | _ => exact iff_of_true h trivial

/-- A guard of an update leaves no metadata to drop. -/
theorem keepsMetadata_of_guard {ctx : Context} {ip : Option String} {op : Operation}
    {tables : Tables} {e : PyException} (h : (op.codeContract ctx ip tables).guard = some e) :
    op.KeepsMetadata tables := by
  cases op with
  | updateSubmission submissionId orgId userId updates =>
    intro submission hsubmission
    simp only [codeContract, SubmissionService.appliedContract, changeContract] at h
    rw [Option.mem_def.1 hsubmission] at h
    cases h
  | _ => trivial

end Operation

/-- A request: the operation runs in one transaction, under the address and the
id that its headers give. -/
def serve (ctx : Context) (request : Request) (uuid4 : UUID) (op : Operation) (db : Database) :
    Except PyException Unit × Database :=
  transact (op.run { ctx with requestId := correlationId request uuid4 } (some (getClientIp request)))
    db

section Sample

/-- Libraries and services that all answer. -/
def sampleContext : Context where
  now := 0
  requestId := ""
  unicode :=
    { lower := fun s => String.ofList (s.toList.map Char.toLower)
      isAlnum := Char.isAlphanum
      nul_not_alnum := by decide }
  hashPassword password := .ok ("$2b$12$" ++ password)
  verifyPassword password hashedPassword := .ok (hashedPassword == "$2b$12$" ++ password)
  decodeToken token :=
    if token = "refresh-token" then some { sub := 1, org := 1, type := "refresh" } else none
  encodeToken payload := payload.type ++ "-token"
  sha256 text := text
  randomHex := "0123456789abcdef0123456789abcdef01234567"
  presign key := .ok ("https://storage/" ++ key)
  objectChecksum _ := none
  delay runId := .ok (uuidText runId)
  revokeTask _ := .ok ()

/-- The database after a first registration. -/
def registered : Database :=
  (serve sampleContext {} 1
    (.registerUser "founder@startup.io" "correct horse" "Founder" "Startup One") .created).2

example : (registered.tables.organizations.rows.map Organization.slug,
    registered.tables.users.rows.map User.email, registered.auditLogs.length) =
    (["startup-one"], ["founder@startup.io"], 1) := by decide +kernel

end Sample

end EvalEngine.ServiceRequests
