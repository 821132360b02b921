import EvalEngine.ServiceRequests

namespace EvalEngine.AuditCommit

open EvalEngine.JsonValues EvalEngine.Exceptions EvalEngine.ConstrainedTables
open EvalEngine.ServiceTables EvalEngine.Transactions EvalEngine.AuditService
open EvalEngine.ServiceContracts EvalEngine.RowOperations EvalEngine.ServiceRequests
open EvalEngine.AuthService EvalEngine.AuthContracts EvalEngine.DatasetService
open EvalEngine.RunModel
open Contract

/-- The audit action under which an operation reports its success. Two operations report none. -/
def actionName : Operation → Option String
  | .registerUser _ _ _ _ => some "CREATE"
  | .authenticateUser _ _ => some "LOGIN"
  | .refreshAccessToken _ => some "TOKEN_REFRESH"
  | .authenticateApiKey _ => none
  | .createApiKeyForUser _ _ _ _ _ => some "API_KEY_CREATED"
  | .revokeApiKey _ _ _ => some "API_KEY_REVOKED"
  | .initiateDatasetUpload _ _ _ _ _ _ => some "CREATE"
  | .confirmDatasetUpload _ _ _ _ => some "DATASET_UPLOADED"
  | .deleteDataset _ _ _ => some "DATASET_DELETED"
  | .createSubmission _ _ _ => some "CREATE"
  | .updateSubmission _ _ _ _ => some "UPDATE"
  | .deleteSubmission _ _ _ => some "DELETE"
  | .triggerEvaluation _ _ _ _ _ => some "EVALUATION_STARTED"
  | .createEvaluationConfig _ _ _ => some "CREATE"
  | .updateEvaluationConfig _ _ _ _ => some "UPDATE"
  | .deleteEvaluationConfig _ _ _ => some "DELETE"
  | .cancelEvaluationRun _ _ _ => some "EVALUATION_CANCELLED"
  | .createCustomMetric _ _ _ => some "CREATE"
  | .seedBuiltinMetrics => none

/-- The change that the operation owes and exactly its own audit row are in the database. -/
def Committed (c : Contract) (ctx : Context) (before after : Database) : Prop :=
  c.change after.tables ∧
    ∃ entry ∈ c.entry, after.auditLogs = before.auditLogs ++ [auditRow ctx entry]

variable {ctx : Context} {ip : Option String} {op : Operation} {tables : Tables}

theorem entryOf_some (name : String) {report : Report} (h : (AuditAction.ofName name).isSome = true) :
    ∃ entry ∈ entryOf name report, entry.action.name = name ∧ entry.ipAddress = report.ipAddress := by
  obtain ⟨action, haction⟩ := Option.isSome_iff_exists.1 h
  refine ⟨report.entry action, by simp [entryOf, haction], ?_, rfl⟩
  have hname := List.find?_some haction
  exact beq_iff_eq.1 hname

/-- The entry of an operation that reports on a row it has found. -/
theorem entryOf_bind {ρ : Type} {found : Option ρ} {name : String} {report : ρ → Report}
    (hfound : found.isSome = true) (haddress : ∀ row, (report row).ipAddress = ip)
    (haction : (AuditAction.ofName name).isSome = true) :
    ∃ entry ∈ found.bind (fun row => entryOf name (report row)),
      entry.action.name = name ∧ entry.ipAddress = ip := by
  obtain ⟨row, rfl⟩ := Option.isSome_iff_exists.1 hfound
  rw [Option.bind_some, ← haddress row]
  exact entryOf_some name haction

theorem scopedRow_of_guard {ρ : Type} [Scoped ρ] {resource action : String} {id orgId : UUID}
    {f : ρ → ρ} {report : ρ → Report}
    (hguard : (changeContract resource action id orgId f report tables).guard = none) :
    (scopedRow ρ id orgId tables).isSome = true := by
  cases hrow : scopedRow ρ id orgId tables with
  | none =>
    simp only [changeContract, hrow] at hguard
    cases hguard
  | some row => rfl

theorem liveUser_of_guard {email password : String}
    (hguard : loginGuard ctx password (liveUser email tables) = none) :
    (liveUser email tables).isSome = true := by
  cases huser : liveUser email tables with
  | none =>
    rw [huser] at hguard
    cases hguard
  | some user => rfl

theorem run_of_guard {runId orgId : UUID}
    (hguard : EvaluationService.cancelGuard runId orgId tables = none) :
    (scopedRow EvaluationRun runId orgId tables).isSome = true := by
  cases hrow : scopedRow EvaluationRun runId orgId tables with
  | none =>
    rw [EvaluationService.cancelGuard, hrow] at hguard
    cases hguard
  | some run => rfl

/-- An operation that runs past its guards reports under its action and address. -/
theorem entry_of_runs {name : String} (haction : actionName op = some name)
    (hguard : (op.codeContract ctx ip tables).guard = none) (hruns : op.Runs ctx tables) :
    ∃ entry ∈ (op.codeContract ctx ip tables).entry,
      entry.action.name = name ∧ entry.ipAddress = ip := by
  cases op <;> cases haction
  case registerUser => exact entryOf_some "CREATE" (by decide)
  case authenticateUser email password =>
    exact entryOf_bind (liveUser_of_guard hguard) (fun _ => rfl) (by decide)
  case refreshAccessToken refreshTokenStr =>
    rw [Operation.Runs, show refreshGuard ctx refreshTokenStr tables = none from hguard] at hruns
    cases hruns
  case createApiKeyForUser => cases hruns
  case revokeApiKey keyId orgId userId =>
    have hkey := scopedRow_of_guard hguard
    rw [Operation.Runs] at hruns
    rw [hruns] at hkey
    cases hkey
  case initiateDatasetUpload => exact entryOf_some "CREATE" (by decide)
  case confirmDatasetUpload datasetId orgId checksum sampleCount =>
    rw [Operation.Runs, show confirmGuard ctx datasetId checksum
      (scopedRow Dataset datasetId orgId tables) = none from hguard] at hruns
    cases hruns
  case deleteDataset datasetId orgId userId =>
    have hdataset := scopedRow_of_guard hguard
    rw [Operation.Runs] at hruns
    rw [hruns] at hdataset
    cases hdataset
  case createSubmission => exact entryOf_some "CREATE" (by decide)
  case updateSubmission =>
    exact entryOf_bind (scopedRow_of_guard hguard) (fun _ => rfl) (by decide)
  case deleteSubmission =>
    exact entryOf_bind (scopedRow_of_guard hguard) (fun _ => rfl) (by decide)
  case triggerEvaluation => exact entryOf_some "EVALUATION_STARTED" (by decide)
  case createEvaluationConfig => exact entryOf_some "CREATE" (by decide)
  case updateEvaluationConfig =>
    exact entryOf_bind (scopedRow_of_guard hguard) (fun _ => rfl) (by decide)
  case deleteEvaluationConfig =>
    exact entryOf_bind (scopedRow_of_guard hguard) (fun _ => rfl) (by decide)
  case cancelEvaluationRun =>
    exact entryOf_bind (run_of_guard hguard) (fun _ => rfl) (by decide)
  case createCustomMetric => exact entryOf_some "CREATE" (by decide)

/-- The commit after an operation that has returned and reported. -/
theorem committed_logged_iff {c : Contract} {db : Database} {entry : AuditEntry}
    (hentry : c.entry = some entry) :
    Committed c ctx db (commit db (logged ctx entry { db with tables })) ↔
      (auditRow ctx entry).fits db.auditLabels = true ∧ c.change tables := by
  unfold logged
  by_cases hfits : (auditRow ctx entry).fits db.auditLabels = true
  · rw [if_pos hfits, commit_open]
    constructor
    · intro h
      exact ⟨hfits, h.1⟩
    · intro h
      exact ⟨h.2, entry, hentry, rfl⟩
  · rw [if_neg hfits, commit_aborted]
    refine iff_of_false ?_ fun h => hfits h.1
    -- the database is the one before, which has no new row
    rintro ⟨_, _, _, hlogs⟩
    have hlength := congrArg List.length hlogs
    simp at hlength

/-- An operation that returns leaves its change in the session and its audit
entry, under its own action and address, as the last thing sent. -/
theorem transact_of_ok {name : String} {db : Database} (haction : actionName op = some name)
    (hok : (transact (op.run ctx ip) db).1 = .ok ()) :
    ∃ tables entry, (op.codeContract ctx ip db.tables).change tables ∧
      (op.codeContract ctx ip db.tables).entry = some entry ∧ entry.fits = true ∧
      entry.action.name = name ∧ entry.ipAddress = ip ∧
      (transact (op.run ctx ip) db).2 = commit db (logged ctx entry { db with tables }) := by
  cases hrun : (op.run ctx ip).run { state := db } with
  | mk result t =>
    cases result with
    | error e =>
      rw [transact_error hrun] at hok
      cases hok
    | ok a =>
      have hfollows := op.run_follows ctx ip db
      rw [hrun] at hfollows
      obtain ⟨hruns, hguard, tables, hchange, hfits, ht⟩ := hfollows.of_ok rfl
      obtain ⟨entry, hentry, hname, haddress⟩ := entry_of_runs haction hguard hruns
      have hclose : t = logged ctx entry { db with tables } := by
        rw [Option.mem_def] at hentry
        change t = _ at ht
        rw [ht, close, hentry]
      refine ⟨tables, entry, hchange, hentry, hfits entry hentry, hname, haddress, ?_⟩
      rw [transact_ok hrun, hclose]

/-- An operation that reports success has committed its change and one audit
row exactly when the row is accepted and no metadata is dropped. -/
theorem committed_iff (request : Request) (uuid4 : UUID) (db : Database) {name : String}
    (haction : actionName op = some name) (hok : (serve ctx request uuid4 op db).1 = .ok ()) :
    Committed (op.contract { ctx with requestId := correlationId request uuid4 }
        (some (getClientIp request)) db.tables)
      { ctx with requestId := correlationId request uuid4 } db (serve ctx request uuid4 op db).2 ↔
    (name ∈ db.auditLabels ∧ varchar 45 (getClientIp request) = true ∧
      varchar 36 (correlationId request uuid4) = true) ∧ op.KeepsMetadata db.tables := by
  obtain ⟨tables, entry, hchange, hentry, hfits, hname, haddress, hafter⟩ :=
    transact_of_ok haction hok
  have hrow := auditRow_fits { ctx with requestId := correlationId request uuid4 } hfits
    db.auditLabels
  rw [hname, haddress] at hrow
  rw [← Operation.contract_entry] at hentry
  rw [serve, hafter, committed_logged_iff hentry, hrow, Operation.contract_change_iff hchange]
  simp [and_assoc]

section Sample

/-- The registered user hands in a submission. -/
def handIn : Operation := .createSubmission 1 1 { startupName := "Startup One" }

/-- Under short headers the submission and its audit row are committed. -/
theorem handIn_committed :
    Committed (handIn.contract { sampleContext with requestId := correlationId {} 2 }
        (some (getClientIp {})) registered.tables)
      { sampleContext with requestId := correlationId {} 2 } registered
      (serve sampleContext {} 2 handIn registered).2 := by
  have hok : (serve sampleContext {} 2 handIn registered).1 = .ok () := rfl
  have haccepted : "CREATE" ∈ registered.auditLabels ∧ varchar 45 (getClientIp {}) = true ∧
      varchar 36 (correlationId {} 2) = true := by decide +kernel
  exact (committed_iff {} 2 registered rfl hok).2 ⟨haccepted, trivial⟩

/-- A forwarded address of 46 characters. -/
def longAddress : Request where
  xForwardedFor := some (String.ofList (List.replicate 46 'a'))

/-- Under a longer address the same submission reports success and is rolled back. -/
theorem handIn_reported_not_committed :
    (serve sampleContext longAddress 2 handIn registered).1 = .ok () ∧
      (serve sampleContext longAddress 2 handIn registered).2.tables.submissions.rows = [] ∧
      ¬ Committed (handIn.contract { sampleContext with requestId := correlationId longAddress 2 }
          (some (getClientIp longAddress)) registered.tables)
        { sampleContext with requestId := correlationId longAddress 2 } registered
        (serve sampleContext longAddress 2 handIn registered).2 := by
  have hlogs : (serve sampleContext longAddress 2 handIn registered).2.auditLogs.length =
      registered.auditLogs.length := by decide +kernel
  have hrows : (serve sampleContext longAddress 2 handIn registered).2.tables.submissions.rows.length = 0 := by
    decide +kernel
  refine ⟨rfl, List.eq_nil_of_length_eq_zero hrows, ?_⟩
  rintro ⟨_, _, _, hafter⟩
  rw [hafter, List.length_append, List.length_singleton] at hlogs
  omega

end Sample

/-- The labels that the migration creates are not those that the column sends. -/
theorem not_mem_migrated_labels {name : String} (haction : actionName op = some name) :
    name ∉ Database.migrated.auditLabels := by
  cases op <;> cases haction <;> decide

/-- On these labels an operation that reports success leaves the database as it was. -/
theorem transact_of_migrated_labels {name : String} {db : Database}
    (hlabels : db.auditLabels = Database.migrated.auditLabels) (haction : actionName op = some name)
    (hok : (transact (op.run ctx ip) db).1 = .ok ()) : (transact (op.run ctx ip) db).2 = db := by
  obtain ⟨tables, entry, _, _, hfits, hname, _, hafter⟩ := transact_of_ok haction hok
  have hrefused : (auditRow ctx entry).fits db.auditLabels = false := by
    rw [auditRow_fits ctx hfits, hname, hlabels]
    simp [not_mem_migrated_labels haction]
  rw [hafter, logged]
  simp [hrefused]

end EvalEngine.AuditCommit
