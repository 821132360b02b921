import EvalEngine.ApiEndpoints

namespace EvalEngine.AuditTrail

open EvalEngine.Exceptions EvalEngine.RunModel EvalEngine.ServiceTables EvalEngine.Transactions
open EvalEngine.AuditService EvalEngine.ServiceContracts EvalEngine.RowOperations
open EvalEngine.ServiceRequests EvalEngine.AuditCommit EvalEngine.CurrentUser
open EvalEngine.TenantWrites EvalEngine.ApiEndpoints
open EvalEngine.AuthContracts EvalEngine.AuthService EvalEngine.DatasetService
open EvalEngine.ConstrainedTables
open Contract Stored

/-- The e-mail address that a registration or a login is about. -/
def emailOf : Operation → Option String
  | .registerUser email _ _ _ => some email
  | .authenticateUser email _ => some email
  | _ => none

/-- The row names the user and the organization of the user. -/
def Names (user : User) (row : AuditLog) : Prop :=
  row.userId = some user.id ∧ row.organizationId = some user.organizationId

/-- The row belongs to the call: it names the action of the operation that the
call has run and the user with the organization, carries the call's id and
address, and is committed with all that the operation changes. The user is the one that the call has
registered or logged in, or the one that its credentials admit. -/
def Signed (deployment : Deployment) (c : ApiCall) (db after : Database) (row : AuditLog) : Prop :=
  ∃ op before, actionName op = some row.action.name ∧ row.requestId = some c.context.requestId ∧
    row.ipAddress = c.ip ∧ SameContent db.tables before ∧
    (op.codeContract c.context c.ip before).change after.tables ∧
    ((c.endpoint.publicCall = some op ∧
        ∃ user ∈ after.tables.users.rows, emailOf op = some user.email ∧ Names user row) ∨
      ∃ auth, Admitted deployment c db auth ∧ c.endpoint.userCall auth.user = .ok (some op) ∧
        Names auth.user row)

def serveAll (deployment : Deployment) (db : Database) (calls : List ApiCall) : Database :=
  calls.foldl (fun db c => (serveCall deployment c db).2) db

/-- The rows of a run: each is signed by its call, and every other call is
silent, having changed nothing. -/
inductive Trail (deployment : Deployment) : Database → List ApiCall → List AuditLog → Prop
  | nil (db : Database) : Trail deployment db [] []
  | silent {db : Database} {c : ApiCall} {calls : List ApiCall} {rows : List AuditLog}
      (hlogs : (serveCall deployment c db).2.auditLogs = db.auditLogs)
      (hsame : SameContent db.tables (serveCall deployment c db).2.tables)
      (hrest : Trail deployment (serveCall deployment c db).2 calls rows) :
      Trail deployment db (c :: calls) rows
  | logged {db : Database} {c : ApiCall} {calls : List ApiCall} {row : AuditLog} {rows : List AuditLog}
      (hlogs : (serveCall deployment c db).2.auditLogs = db.auditLogs ++ [row])
      (hsigned : Signed deployment c db (serveCall deployment c db).2 row)
      (hrest : Trail deployment (serveCall deployment c db).2 calls rows) :
      Trail deployment db (c :: calls) (row :: rows)

variable {deployment : Deployment} {c : ApiCall} {db : Database} {op : Operation}

/-- Every operation that a route calls reports under some action. -/
theorem action_of_publicCall {endpoint : Endpoint} (h : endpoint.publicCall = some op) :
    ∃ name, actionName op = some name := by
  cases endpoint <;> cases h <;> exact ⟨_, rfl⟩

theorem action_of_userCall {user : User} {endpoint : Endpoint}
    (h : endpoint.userCall user = .ok (some op)) : ∃ name, actionName op = some name := by
  cases endpoint
  case read outcome => cases outcome <;> cases h
  case revokeApiKey keyId =>
    cases keyId <;> cases h
    exact ⟨_, rfl⟩
  all_goals cases h <;> exact ⟨_, rfl⟩

theorem entryOf_user (name : String) {report : Report} {entry : AuditEntry} {userId : UUID}
    (hentry : entry ∈ entryOf name report) (h : report.userId = some userId) :
    entry.userId = some userId := by
  obtain ⟨action, _, rfl⟩ := Option.map_eq_some_iff.1 hentry
  exact h

theorem entryOf_bind_user {ρ : Type} {found : Option ρ} {name : String} {report : ρ → Report}
    {entry : AuditEntry} {userId : UUID}
    (hentry : entry ∈ found.bind fun row => entryOf name (report row))
    (h : ∀ row, (report row).userId = some userId) : entry.userId = some userId := by
  obtain ⟨row, _, hrow⟩ := Option.bind_eq_some_iff.1 hentry
  exact entryOf_user name hrow (h row)

/-- What a route calls for its user, it reports for its user. -/
theorem entry_user {endpoint : Endpoint} {user : User} {ip : Option String} {tables : Tables}
    {entry : AuditEntry} (hcall : endpoint.userCall user = .ok (some op))
    (hguard : (op.codeContract c.context ip tables).guard = none) (hruns : op.Runs c.context tables)
    (hentry : entry ∈ (op.codeContract c.context ip tables).entry) :
    entry.userId = some user.id := by
  cases endpoint
  case register | login | refresh => cases hcall
  case read outcome => cases outcome <;> cases hcall
  case revokeApiKey keyId =>
    cases keyId <;> cases hcall
    exact entryOf_bind_user hentry fun _ => rfl
  case createApiKey =>
    cases hcall
    cases hruns
  case confirmUpload datasetId checksum sampleCount =>
    -- its report has no user, and its action is missing
    cases hcall
    rw [Operation.Runs, show confirmGuard c.context datasetId checksum
      (scopedRow Dataset datasetId user.organizationId tables) = none from hguard] at hruns
    cases hruns
  case createDataset | createSubmission | createConfig | createMetric =>
    cases hcall
    exact entryOf_user "CREATE" hentry rfl
  case triggerEvaluation =>
    cases hcall
    exact entryOf_user "EVALUATION_STARTED" hentry rfl
  all_goals
    cases hcall
    exact entryOf_bind_user hentry fun _ => rfl

/-- A registration and a login report for the user whom they leave in the table. -/
theorem entry_public {endpoint : Endpoint} {ip : Option String} {tables after : Tables}
    {entry : AuditEntry} (hcall : endpoint.publicCall = some op)
    (hguard : (op.codeContract c.context ip tables).guard = none) (hruns : op.Runs c.context tables)
    (hentry : entry ∈ (op.codeContract c.context ip tables).entry)
    (hchange : (op.codeContract c.context ip tables).change after) :
    ∃ user ∈ after.users.rows, emailOf op = some user.email ∧ entry.userId = some user.id ∧
      entry.organizationId = some user.organizationId := by
  cases endpoint <;> cases hcall
  case register body =>
    obtain ⟨hashedPassword, mid, _, _, t, rfl, hrows⟩ := hchange
    refine ⟨addedUser body.email body.fullName hashedPassword tables, ?_, rfl,
      entryOf_user "CREATE" hentry rfl, entryOf_owner "CREATE" hentry rfl⟩
    change _ ∈ (table (put t mid) : Table User).rows
    rw [table_put, hrows]
    exact List.mem_append_right _ (List.mem_singleton_self _)
  case login email password =>
    obtain ⟨user, huser, hreport⟩ := Option.bind_eq_some_iff.1 hentry
    obtain ⟨t, rfl, hrows⟩ := hchange user huser
    have hlive := List.find?_some huser
    simp only [Bool.and_eq_true, decide_eq_true_eq] at hlive
    refine ⟨loggedIn c.context.now user, ?_, congrArg some hlive.1.symm,
      entryOf_user "LOGIN" hreport rfl, entryOf_owner "LOGIN" hreport rfl⟩
    change _ ∈ (table (put t tables) : Table User).rows
    rw [table_put, hrows]
    exact List.mem_map.2 ⟨user, List.mem_of_find?_eq_some huser, if_pos rfl⟩
  case refresh refreshToken =>
    rw [Operation.Runs, show refreshGuard c.context refreshToken tables = none from hguard] at hruns
    cases hruns

/-- An operation that returns is rolled back, or committed with its audit row. -/
theorem commit_operation {name : String} {before : Database} {t : Transaction Database}
    (haction : actionName op = some name)
    (hrun : (op.run c.context c.ip).run { state := before } = (.ok (), t)) (db : Database) :
    commit db t = db ∨ (op.codeContract c.context c.ip before.tables).guard = none ∧
      op.Runs c.context before.tables ∧ ∃ entry ∈ (op.codeContract c.context c.ip before.tables).entry,
      entry.action.name = name ∧ entry.ipAddress = c.ip ∧
      (commit db t).auditLogs = before.auditLogs ++ [auditRow c.context entry] ∧
      (op.codeContract c.context c.ip before.tables).change (commit db t).tables := by
  obtain ⟨hruns, hguard, tables, hchange, _, hclose⟩ :=
    (op.run_follows c.context c.ip before).of_ok (congrArg Prod.fst hrun)
  obtain ⟨entry, hentry, hname, haddress⟩ := entry_of_runs haction hguard hruns
  have ht : t = logged c.context entry { before with tables } := by
    have hlast : t = _ := (congrArg Prod.snd hrun).symm.trans hclose
    rw [hlast, close, Option.mem_def.1 hentry]
  rw [ht, logged]
  split
  · refine .inr ⟨hguard, hruns, entry, hentry, hname, haddress, rfl, ?_⟩
    rw [commit_open]
    exact hchange
  · exact .inl (commit_aborted db _)

/-- One call is silent, or it appends one row and signs it. -/
theorem serveCall_logs (deployment : Deployment) (c : ApiCall) (db : Database) :
    ((serveCall deployment c db).2.auditLogs = db.auditLogs ∧
      SameContent db.tables (serveCall deployment c db).2.tables) ∨
    ∃ row, (serveCall deployment c db).2.auditLogs = db.auditLogs ++ [row] ∧
      Signed deployment c db (serveCall deployment c db).2 row := by
  have houtcome := serveCall_outcome deployment c db
  generalize (serveCall deployment c db).2 = after at houtcome ⊢
  cases houtcome with
  | refused => exact .inl ⟨rfl, SameContent.refl db.tables⟩
  | @opened op t hcall hrun =>
    obtain ⟨name, haction⟩ := action_of_publicCall hcall
    obtain hsame | ⟨hguard, hruns, entry, hentry, hname, haddress, hlogs, hchange⟩ :=
      commit_operation haction hrun db
    · rw [hsame]
      exact .inl ⟨rfl, SameContent.refl db.tables⟩
    · obtain ⟨user, hmem, hemail, huser⟩ := entry_public hcall hguard hruns hentry hchange
      refine .inr ⟨auditRow c.context entry, hlogs, op, db.tables, ?_, rfl, haddress,
        SameContent.refl db.tables, hchange, .inl ⟨hcall, user, hmem, hemail, huser⟩⟩
      rw [haction, ← hname]
      rfl
  | @acted auth tables op t hguarded hauth hsame hcall hrun =>
    cases op with
    | none =>
      obtain rfl : t = { state := { db with tables } } := (congrArg Prod.snd hrun).symm
      exact .inl ⟨rfl, hsame⟩
    | some op =>
      obtain ⟨name, haction⟩ := action_of_userCall hcall
      obtain hnone | ⟨hguard, hruns, entry, hentry, hname, haddress, hlogs, hchange⟩ :=
        commit_operation haction hrun db
      · rw [hnone]
        exact .inl ⟨rfl, SameContent.refl db.tables⟩
      · have howner := entry_operation (tenantOf_userCall hcall) hentry
        have huser := entry_user hcall hguard hruns hentry
        refine .inr ⟨auditRow c.context entry, hlogs, op, tables, ?_, rfl, haddress, hsame, hchange,
          .inr ⟨auth, hauth, hcall, huser, howner⟩⟩
        rw [haction, ← hname]
        rfl

theorem trail (deployment : Deployment) (db : Database) (calls : List ApiCall) :
    ∃ rows, Trail deployment db calls rows := by
  induction calls generalizing db with
  | nil => exact ⟨[], .nil db⟩
  | cons c calls ih =>
    obtain ⟨rows, hrest⟩ := ih (serveCall deployment c db).2
    obtain ⟨hlogs, hsame⟩ | ⟨row, hlogs, hsigned⟩ := serveCall_logs deployment c db
    · exact ⟨rows, .silent hlogs hsame hrest⟩
    · exact ⟨row :: rows, .logged hlogs hsigned hrest⟩

/-- The rows of a trail are what the run appends. -/
theorem Trail.appended {calls : List ApiCall} {rows : List AuditLog} (h : Trail deployment db calls rows) :
    (serveAll deployment db calls).auditLogs = db.auditLogs ++ rows := by
  induction h with
  | nil db => exact (List.append_nil db.auditLogs).symm
  | @silent db c calls rows hlogs _ _ ih =>
    change (serveAll deployment (serveCall deployment c db).2 calls).auditLogs = _
    rw [ih, hlogs]
  | @logged db c calls row rows hlogs _ _ ih =>
    change (serveAll deployment (serveCall deployment c db).2 calls).auditLogs = _
    rw [ih, hlogs, List.append_assoc]
    rfl

/-- A run that logs nothing has changed nothing. -/
theorem Trail.unchanged {calls : List ApiCall} {rows : List AuditLog} (h : Trail deployment db calls rows)
    (hrows : rows = []) : SameContent db.tables (serveAll deployment db calls).tables := by
  induction h with
  | nil db => exact SameContent.refl db.tables
  | silent _ hsame _ ih => exact hsame.trans (ih hrows)
  | logged => cases hrows

/-- The audit log of every run of calls is the one before and, in the order of
the calls, the rows signed by those that have changed anything. -/
theorem audit_trail (deployment : Deployment) (db : Database) (calls : List ApiCall) :
    ∃ rows, Trail deployment db calls rows ∧
      (serveAll deployment db calls).auditLogs = db.auditLogs ++ rows ∧
      (rows = [] → SameContent db.tables (serveAll deployment db calls).tables) := by
  obtain ⟨rows, h⟩ := trail deployment db calls
  exact ⟨rows, h, h.appended, h.unchanged⟩

end EvalEngine.AuditTrail
