import EvalEngine.PythonText
import EvalEngine.ServiceTables
import EvalEngine.Transactions

namespace EvalEngine.AuditService

open EvalEngine.JsonValues EvalEngine.Exceptions EvalEngine.RunModel EvalEngine.PythonText
open EvalEngine.ServiceTables EvalEngine.Transactions

inductive AuditAction
  | create
  | read
  | update
  | delete
  | login
  | logout
  | loginFailed
  | submissionCreated
  | submissionUpdated
  | evaluationStarted
  | evaluationCompleted
  | evaluationFailed
  | evaluationCancelled
  | claimExtracted
  | contradictionDetected
  | scoreRecorded
  | settingsChanged
  deriving DecidableEq, Repr

/-- The member's name, which the column sends to the database. -/
def AuditAction.name : AuditAction → String
  | .create => "CREATE"
  | .read => "READ"
  | .update => "UPDATE"
  | .delete => "DELETE"
  | .login => "LOGIN"
  | .logout => "LOGOUT"
  | .loginFailed => "LOGIN_FAILED"
  | .submissionCreated => "SUBMISSION_CREATED"
  | .submissionUpdated => "SUBMISSION_UPDATED"
  | .evaluationStarted => "EVALUATION_STARTED"
  | .evaluationCompleted => "EVALUATION_COMPLETED"
  | .evaluationFailed => "EVALUATION_FAILED"
  | .evaluationCancelled => "EVALUATION_CANCELLED"
  | .claimExtracted => "CLAIM_EXTRACTED"
  | .contradictionDetected => "CONTRADICTION_DETECTED"
  | .scoreRecorded => "SCORE_RECORDED"
  | .settingsChanged => "SETTINGS_CHANGED"

/-- The member's value, which the first migration makes a label of the type. -/
def AuditAction.value : AuditAction → String
  | .create => "create"
  | .read => "read"
  | .update => "update"
  | .delete => "delete"
  | .login => "login"
  | .logout => "logout"
  | .loginFailed => "login_failed"
  | .submissionCreated => "submission_created"
  | .submissionUpdated => "submission_updated"
  | .evaluationStarted => "evaluation_started"
  | .evaluationCompleted => "evaluation_completed"
  | .evaluationFailed => "evaluation_failed"
  | .evaluationCancelled => "evaluation_cancelled"
  | .claimExtracted => "claim_extracted"
  | .contradictionDetected => "contradiction_detected"
  | .scoreRecorded => "score_recorded"
  | .settingsChanged => "settings_changed"

def AuditAction.members : List AuditAction :=
  [.create, .read, .update, .delete, .login, .logout, .loginFailed, .submissionCreated,
    .submissionUpdated, .evaluationStarted, .evaluationCompleted, .evaluationFailed,
    .evaluationCancelled, .claimExtracted, .contradictionDetected, .scoreRecorded,
    .settingsChanged]

/-- The attribute of the enumeration with the given name, if it has one. -/
def AuditAction.ofName (name : String) : Option AuditAction :=
  AuditAction.members.find? (fun action => action.name == name)

/-- The keyword arguments of `create_audit_log`. -/
structure AuditEntry where
  action : AuditAction
  resourceType : String
  resourceId : Option String := none
  organizationId : Option UUID := none
  userId : Option UUID := none
  ipAddress : Option String := none
  userAgent : Option String := none
  changes : Option Dict := none
  status : String := "success"
  detail : Option String := none

structure AuditLog extends AuditEntry where
  timestamp : Time
  requestId : Option String

/-- The values that the operations choose fit their columns. The client
address and the request id come from the request. -/
def AuditEntry.fits (entry : AuditEntry) : Bool :=
  varchar 100 entry.resourceType && entry.resourceId.all (varchar 255) &&
    entry.userAgent.all (varchar 512) && entry.changes.all dictStorable &&
    varchar 20 entry.status && entry.detail.all textStorable

def AuditLog.fits (labels : List String) (row : AuditLog) : Bool :=
  labels.contains row.action.name && row.toAuditEntry.fits && row.ipAddress.all (varchar 45) &&
    row.requestId.all (varchar 36)

/-- The database: the tables of the services, the audit table and the labels
of the type `audit_action`. -/
structure Database where
  tables : Tables
  auditLogs : List AuditLog
  auditLabels : List String

/-- The tables as the metadata of the models creates them. -/
def Database.created : Database :=
  ⟨.empty, [], AuditAction.members.map AuditAction.name⟩

/-- The tables as the migrations create them. -/
def Database.migrated : Database :=
  ⟨.empty, [], AuditAction.members.map AuditAction.value⟩

abbrev Service (α : Type) := Action PyException Database α

def inFailedTransaction : PyException :=
  .databaseError "current transaction is aborted, commands ignored until end of transaction block"

/-- A SELECT. -/
def query {α : Type} (select : Tables → α) : Service α :=
  statement inFailedTransaction (fun db => .ok (select db.tables, db))

/-- `db.flush()` with one pending INSERT or UPDATE. -/
def flush (change : Tables → Except PyException Tables) : Service Unit :=
  statement inFailedTransaction
    (fun db => (change db.tables).map (fun tables => ((), { db with tables })))

structure TokenPayload where
  sub : UUID
  org : UUID
  role : Option String := none
  type : String

/-- What an operation reads from outside the database: the clock, the request
id, the interpreter's tables, and the answers of the libraries and services it calls. -/
structure Context where
  now : Time
  requestId : String
  unicode : UnicodeTables
  hashPassword : String → Except String String
  verifyPassword : String → String → Except String Bool
  decodeToken : String → Option TokenPayload
  encodeToken : TokenPayload → String
  sha256 : String → String
  randomHex : String
  presign : String → Except String String
  objectChecksum : String → Option String
  delay : UUID → Except String String
  revokeTask : String → Except String Unit

/-- The answer of a library, whose exception no service catches. -/
def external {α : Type} (answer : Except String α) : Service α :=
  ofExcept (answer.mapError .failure)

def auditRow (ctx : Context) (entry : AuditEntry) : AuditLog :=
  { entry with
    resourceId := entry.resourceId.filter (· != "")
    timestamp := ctx.now
    requestId := some ctx.requestId }

def insertAudit (row : AuditLog) (db : Database) : Except PyException (Unit × Database) :=
  if row.fits db.auditLabels then .ok ((), { db with auditLogs := db.auditLogs ++ [row] })
  else .error (.databaseError "audit_logs: value does not fit its column")

def createAuditLog (ctx : Context) (entry : AuditEntry) : Service Unit :=
  suppress (statement inFailedTransaction (insertAudit (auditRow ctx entry)))

def missingAction (name : String) : PyException :=
  .attributeError "type object 'AuditAction'" name

/-- The attribute look-up `AuditAction.NAME`. -/
def auditAction (name : String) : Service AuditAction :=
  match AuditAction.ofName name with
  | some action => pure action
  | none => raise (missingAction name)

/-- The transaction after the audit row has been sent. -/
def logged (ctx : Context) (entry : AuditEntry) (db : Database) : Transaction Database :=
  if (auditRow ctx entry).fits db.auditLabels then
    { state := { db with auditLogs := db.auditLogs ++ [auditRow ctx entry] } }
  else { state := db, aborted := true }

/-- The headers and the peer of a request. -/
structure Request where
  xForwardedFor : Option String := none
  xRequestId : Option String := none
  userAgent : Option String := none
  clientHost : Option String := none

def getClientIp (request : Request) : String :=
  match request.xForwardedFor with
  | some forwarded =>
    if forwarded = "" then request.clientHost.getD "unknown"
    else String.ofList (strip (forwarded.toList.takeWhile (· != ',')))
  | none => request.clientHost.getD "unknown"

/-- `CorrelationMiddleware`: the client's id, else a new one. -/
def correlationId (request : Request) (uuid4 : UUID) : String :=
  request.xRequestId.getD (uuidText uuid4)

theorem run_query {α : Type} (select : Tables → α) (db : Database) :
    (query select).run { state := db } = (.ok (select db.tables), { state := db }) :=
  run_statement_ok rfl

theorem run_flush_ok {change : Tables → Except PyException Tables} {db : Database} {tables : Tables}
    (h : change db.tables = .ok tables) :
    (flush change).run { state := db } = (.ok (), { state := { db with tables } }) := by
  apply run_statement_ok
  simp [h, Except.map]

theorem run_flush_error {change : Tables → Except PyException Tables} {db : Database}
    {e : PyException} (h : change db.tables = .error e) :
    (flush change).run { state := db } = (.error e, { state := db, aborted := true }) := by
  apply run_statement_error
  simp [h, Except.map]

theorem run_external_ok {α : Type} {answer : Except String α} {a : α} (h : answer = .ok a)
    (t : Transaction Database) : (external answer).run t = (.ok a, t) := by
  rw [external, run_ofExcept, h]
  rfl

theorem run_external_error {α : Type} {answer : Except String α} {message : String}
    (h : answer = .error message) (t : Transaction Database) :
    (external answer).run t = (.error (.failure message), t) := by
  rw [external, run_ofExcept, h]
  rfl

theorem run_createAuditLog (ctx : Context) (entry : AuditEntry) (db : Database) :
    (createAuditLog ctx entry).run { state := db } = (.ok (), logged ctx entry db) := by
  rw [createAuditLog, run_suppress, logged]
  by_cases h : (auditRow ctx entry).fits db.auditLabels = true
  · have hinsert : insertAudit (auditRow ctx entry) db =
        .ok ((), { db with auditLogs := db.auditLogs ++ [auditRow ctx entry] }) := by
      simp [insertAudit, h]
    rw [run_statement_ok hinsert, if_pos h]
  · have hinsert : insertAudit (auditRow ctx entry) db =
        .error (.databaseError "audit_logs: value does not fit its column") := by
      simp [insertAudit, h]
    rw [run_statement_error hinsert, if_neg h]

theorem run_auditAction {name : String} {action : AuditAction}
    (h : AuditAction.ofName name = some action) (t : Transaction Database) :
    (auditAction name).run t = (.ok action, t) := by
  rw [auditAction, h, run_pure]

theorem run_auditAction_none {name : String} (h : AuditAction.ofName name = none)
    (t : Transaction Database) :
    (auditAction name).run t = (.error (missingAction name), t) := by
  rw [auditAction, h, run_raise]

theorem logged_tables (ctx : Context) (entry : AuditEntry) (db : Database) :
    (logged ctx entry db).state.tables = db.tables := by
  unfold logged
  split <;> rfl

/-- The audit row of an entry whose own values fit is accepted exactly when
the label exists and the two values of the request fit. -/
theorem auditRow_fits (ctx : Context) {entry : AuditEntry} (h : entry.fits = true)
    (labels : List String) :
    (auditRow ctx entry).fits labels = (labels.contains entry.action.name &&
      entry.ipAddress.all (varchar 45) && varchar 36 ctx.requestId) := by
  have hentry : (auditRow ctx entry).toAuditEntry.fits = true := by
    simp only [AuditEntry.fits, Bool.and_eq_true] at h
    have hid : (entry.resourceId.filter (· != "")).all (varchar 255) = true := by
      cases hr : entry.resourceId with
      | none => rfl
      | some id =>
        by_cases hne : id = ""
        · simp [hne]
        · simpa [hr, hne] using h.1.1.1.1.2
    simp [AuditEntry.fits, auditRow, h, hid]
  unfold AuditLog.fits
  rw [hentry, Bool.and_true]
  rfl

end EvalEngine.AuditService
