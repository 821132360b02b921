import EvalEngine.CurrentUser
import EvalEngine.ResponseEndpoints
import EvalEngine.TenantWrites

namespace EvalEngine.ApiEndpoints

open EvalEngine.JsonValues EvalEngine.Exceptions EvalEngine.RunModel EvalEngine.ConstrainedTables
open EvalEngine.ServiceTables EvalEngine.Transactions EvalEngine.AuditService
open EvalEngine.ServiceContracts EvalEngine.AuthService EvalEngine.AuthContracts
open EvalEngine.ServiceRequests EvalEngine.CurrentUser EvalEngine.TenantWrites
open EvalEngine.SubmissionService (SubmissionCreate SubmissionUpdate)
open EvalEngine.EvaluationService (EvaluationConfigCreate EvaluationConfigUpdate)
open EvalEngine.MetricService (MetricCreate)
open EvalEngine.ResponseEndpoints (UserCreate ApiKeyCreate DatasetCreate)
open Entity Stored Contract

/-- The roles that the guards of the routes name. -/
inductive Role
  | admin
  | member
  | viewer
  deriving DecidableEq, Repr

def Role.value : Role → String
  | .admin => "admin"
  | .member => "member"
  | .viewer => "viewer"

def roleHierarchy : List (Role × Nat) := [(.viewer, 1), (.member, 2), (.admin, 3)]

/-- `ROLE_HIERARCHY.get(role, 0)`: the members of both enumerations are strings,
equal and hashed as such. -/
def level (value : String) : Nat :=
  ((roleHierarchy.find? fun entry => entry.1.value == value).map Prod.snd).getD 0

def hasPermission (userRole : UserRole) (requiredRole : Role) : Bool :=
  decide (level requiredRole.value ≤ level userRole.value)

/-- The exceptions of the services, and the one of the role guard. -/
inductive ApiError
  | service (e : PyException)
  | forbidden (message : String)
  deriving DecidableEq, Repr

abbrev Handler (α : Type) := Transactions.Action ApiError Database α

def call {α : Type} (m : Service α) : Handler α := fun t =>
  let (result, t') := m.run t
  (result.mapError .service, t')

def missingRole (requiredRole : Role) : ApiError :=
  .forbidden ("This action requires '" ++ requiredRole.value ++ "' role or higher")

/-- `dependencies=[Depends(require_role(...))]`, where the route has one. -/
def checkRole (user : User) : Option Role → Handler Unit
  | none => pure ()
  | some requiredRole =>
    if hasPermission user.role requiredRole then pure () else raise (missingRole requiredRole)

/-- The routes under `/api/v1`, but for health checks and the stream. The
routes that only read are one: with what the read, or its response, raises. -/
inductive Endpoint
  | register (body : UserCreate)
  | login (email password : String)
  | refresh (refreshToken : String)
  | read (outcome : Except PyException Unit)
  | createApiKey (body : ApiKeyCreate)
  | revokeApiKey (keyId : Option UUID)
  | createDataset (body : DatasetCreate)
  | confirmUpload (datasetId : UUID) (checksum : String) (sampleCount : Int)
  | deleteDataset (datasetId : UUID)
  | createSubmission (body : SubmissionCreate)
  | updateSubmission (submissionId : UUID) (updates : SubmissionUpdate)
  | deleteSubmission (submissionId : UUID)
  | triggerEvaluation (submissionId : UUID) (configId : Option UUID) (metadata : Option Dict)
  | createConfig (body : EvaluationConfigCreate)
  | updateConfig (configId : UUID) (updates : EvaluationConfigUpdate)
  | deleteConfig (configId : UUID)
  | cancelRun (runId : UUID)
  | createMetric (body : MetricCreate)

namespace Endpoint

def requiredRole : Endpoint → Option Role
  | .createDataset _ | .confirmUpload _ _ _ | .deleteDataset _ | .createSubmission _
  | .updateSubmission _ _ | .deleteSubmission _ | .triggerEvaluation _ _ _ | .createConfig _
  | .updateConfig _ _ | .cancelRun _ | .createMetric _ => some .member
  | .revokeApiKey _ | .deleteConfig _ => some .admin
  | .register _ | .login _ _ | .refresh _ | .read _ | .createApiKey _ => none

/-- What the routes without a user call. -/
def publicCall : Endpoint → Option Operation
  | .register body => some (.registerUser body.email body.password body.fullName body.organizationName)
  | .login email password => some (.authenticateUser email password)
  | .refresh refreshToken => some (.refreshAccessToken refreshToken)
  | _ => none

/-- `UUID(key_id)` -/
def badKeyId : PyException := .valueError "badly formed hexadecimal UUID string"

/-- What the other routes call for their user, or what stops them before. -/
def userCall (user : User) : Endpoint → Except PyException (Option Operation)
  | .register _ | .login _ _ | .refresh _ => .ok none
  | .read outcome => outcome.map fun _ => none
  | .createApiKey body => .ok (some (.createApiKeyForUser user.id user.organizationId body.name
      body.scopes body.expiresInDays))
  | .revokeApiKey keyId =>
    match keyId with
    | some keyId => .ok (some (.revokeApiKey keyId user.organizationId user.id))
    | none => .error badKeyId
  | .createDataset body => .ok (some (.initiateDatasetUpload user.organizationId user.id body.name
      body.description body.sizeBytes (some body.metadata)))
  | .confirmUpload datasetId checksum sampleCount =>
    .ok (some (.confirmDatasetUpload datasetId user.organizationId checksum sampleCount))
  | .deleteDataset datasetId => .ok (some (.deleteDataset datasetId user.organizationId user.id))
  | .createSubmission body => .ok (some (.createSubmission user.organizationId user.id body))
  | .updateSubmission submissionId updates =>
    .ok (some (.updateSubmission submissionId user.organizationId user.id updates))
  | .deleteSubmission submissionId =>
    .ok (some (.deleteSubmission submissionId user.organizationId user.id))
  | .triggerEvaluation submissionId configId metadata =>
    .ok (some (.triggerEvaluation submissionId user.organizationId user.id configId metadata))
  | .createConfig body => .ok (some (.createEvaluationConfig user.organizationId user.id body))
  | .updateConfig configId updates =>
    .ok (some (.updateEvaluationConfig configId user.organizationId user.id updates))
  | .deleteConfig configId => .ok (some (.deleteEvaluationConfig configId user.organizationId user.id))
  | .cancelRun runId => .ok (some (.cancelEvaluationRun runId user.organizationId user.id))
  | .createMetric body => .ok (some (.createCustomMetric user.organizationId user.id body))

end Endpoint

/-- What a route calls for its user, it calls for the user's organization. -/
theorem tenantOf_userCall {user : User} {endpoint : Endpoint} {op : Operation}
    (h : endpoint.userCall user = .ok (some op)) : tenantOf op = some user.organizationId := by
  cases endpoint
  case read outcome => cases outcome <;> cases h
  case revokeApiKey keyId =>
    cases keyId <;> cases h
    rfl
  all_goals cases h <;> rfl

/-- A call of a route: its credentials, and what building the response raises. -/
structure ApiCall where
  ctx : Context
  request : Request := {}
  uuid4 : UUID := 0
  credentials : Credentials := {}
  endpoint : Endpoint
  response : Except PyException Unit := .ok ()

namespace ApiCall

/-- What the services are handed, under the id of the request. -/
def context (c : ApiCall) : Context := { c.ctx with requestId := correlationId c.request c.uuid4 }

def ip (c : ApiCall) : Option String := some (getClientIp c.request)

end ApiCall

def runOperation (c : ApiCall) : Option Operation → Service Unit
  | some op => op.run c.context c.ip
  | none => pure ()

/-- The handler of a route with a user, behind its role guard. -/
def act (c : ApiCall) (user : User) : Handler Unit := do
  checkRole user c.endpoint.requiredRole
  let op ← call (ofExcept (c.endpoint.userCall user))
  call (runOperation c op)
  call (ofExcept c.response)

def handle (deployment : Deployment) (c : ApiCall) : Handler Unit :=
  match c.endpoint.publicCall with
  | some op => do
    call (op.run c.context c.ip)
    call (ofExcept c.response)
  | none => do
    let auth ← call (getCurrentUser c.context deployment c.credentials)
    act c auth.user

/-- The session of a request commits when its handler returns. -/
def serveCall (deployment : Deployment) (c : ApiCall) (db : Database) : Except ApiError Unit × Database :=
  transact (handle deployment c) db

variable {α β : Type} {m : Service α} {t t' : Transaction Database} {a : α} {e : PyException}

theorem run_call_ok (h : m.run t = (.ok a, t')) : (call m).run t = (.ok a, t') := by
  change ((m.run t).1.mapError ApiError.service, (m.run t).2) = _
  rw [h]
  rfl

theorem run_call_error (h : m.run t = (.error e, t')) : (call m).run t = (.error (.service e), t') := by
  change ((m.run t).1.mapError ApiError.service, (m.run t).2) = _
  rw [h]
  rfl

theorem run_call_ofExcept (r : Except PyException α) (t : Transaction Database) :
    (call (ofExcept r)).run t = (r.mapError .service, t) := by
  cases r <;> rfl

/-- Nothing but `last_used_at` of the keys differs. -/
def SameContent (before after : Tables) : Prop :=
  ∃ t : Table ApiKey, after = { before with apiKeys := t } ∧
    t.rows.map (fun apiKey => { apiKey with lastUsedAt := none }) =
      before.apiKeys.rows.map fun apiKey => { apiKey with lastUsedAt := none }

theorem SameContent.refl (tables : Tables) : SameContent tables tables := ⟨tables.apiKeys, rfl, rfl⟩

theorem SameContent.trans {before mid after : Tables} (h : SameContent before mid)
    (h' : SameContent mid after) : SameContent before after := by
  obtain ⟨t, rfl, hrows⟩ := h
  obtain ⟨t', rfl, hrows'⟩ := h'
  exact ⟨t', rfl, hrows'.trans hrows⟩

theorem sameContent_used {apiKey : ApiKey} {now : Time} {before after : Tables}
    (hmem : apiKey ∈ before.apiKeys.rows)
    (h : Updated { apiKey with lastUsedAt := some now } before after) : SameContent before after := by
  obtain ⟨t, rfl, hrows⟩ := h
  refine ⟨t, rfl, ?_⟩
  rw [hrows, Table.replaced, List.map_map]
  apply List.map_congr_left
  intro row hrow
  by_cases hkey : key row = key { apiKey with lastUsedAt := some now }
  · obtain rfl := before.apiKeys.eq_of_key hrow hmem hkey
    simp only [Function.comp_apply, hkey, if_true]
  · simp only [Function.comp_apply, if_neg hkey]

/-- How an authentication ends: it raises, or it lets an active user of the
database through, and of the content nothing changes. -/
def Authenticates (db : Database) (r : Except PyException Authenticated × Transaction Database) : Prop :=
  (∃ e t, r = (.error e, t)) ∨
    ∃ auth tables, r = (.ok auth, { state := { db with tables } }) ∧ SameContent db.tables tables ∧
      auth.user ∈ db.tables.users.rows ∧ auth.user.isActive = true

theorem authenticates_user {db : Database} {user : User} (hmem : user ∈ db.tables.users.rows)
    (hactive : user.isActive = true) :
    Authenticates db (.ok (authenticated user), { state := db }) :=
  .inr ⟨authenticated user, db.tables, rfl, SameContent.refl db.tables, hmem, hactive⟩

variable (ctx : Context) (deployment : Deployment) (db : Database)

theorem authenticates_token (payload : TokenPayload) :
    Authenticates db ((do
      match ← selectOne (fun tables => tables.users.rows.filter
        (fun user => decide (user.id = payload.sub) && user.isActive && user.deletedAt.isNone)) with
      | none => raise userGone
      | some user => pure (authenticated user) : Service Authenticated).run { state := db }) := by
  rw [run_bind_ok (run_refreshUser payload.sub db)]
  cases huser : refreshUser payload.sub db.tables with
  | none => exact .inl ⟨_, _, rfl⟩
  | some user =>
    have hactive := List.find?_some huser
    simp only [Bool.and_eq_true] at hactive
    exact authenticates_user (List.mem_of_find?_eq_some huser) hactive.1.2

theorem authenticates_key (rawKey : String) :
    Authenticates db ((do
      let (user, _) ← authenticateApiKey ctx rawKey
      pure (authenticated user) : Service Authenticated).run { state := db }) := by
  by_cases hvalid : ∃ apiKey, liveKey (ctx.sha256 rawKey) db.tables = some apiKey ∧
      apiKey.isValid ctx.now = true
  · obtain ⟨apiKey, hkey, hvalid⟩ := hvalid
    obtain ⟨after, hafter, hrun⟩ := run_validKey hkey hvalid
    cases huser : activeUser apiKey.userId db.tables with
    | none =>
      rw [huser] at hrun
      exact .inl ⟨_, _, run_bind_error hrun⟩
    | some user =>
      rw [huser] at hrun
      obtain ⟨hmem, _, hactive⟩ := activeUser_some huser
      refine .inr ⟨authenticated user, after, run_bind_ok hrun, ?_, hmem, hactive⟩
      exact sameContent_used (List.mem_of_find?_eq_some hkey) hafter
  · have hinvalid : ∀ apiKey, liveKey (ctx.sha256 rawKey) db.tables = some apiKey →
        apiKey.isValid ctx.now = false := by
      intro apiKey hkey
      exact Bool.eq_false_iff.2 fun h => hvalid ⟨apiKey, hkey, h⟩
    exact .inl ⟨_, _, run_bind_error (run_invalidKey hinvalid)⟩

theorem authenticates_first (createdAt : UUID → Time) :
    Authenticates db ((do
      match ← selectOne (firstUser createdAt) with
      | none => raise noUsers
      | some user => pure (authenticated user) : Service Authenticated).run { state := db }) := by
  have hselect := run_selectOne (firstUser createdAt) db
  rw [firstUser, scalarOneOrNone_toList] at hselect
  rw [run_bind_ok hselect]
  cases huser : (db.tables.users.rows.filter fun user => user.isActive && user.deletedAt.isNone).argmin
      fun user => createdAt user.id with
  | none => exact .inl ⟨_, _, rfl⟩
  | some user =>
    obtain ⟨hmem, hactive⟩ := List.mem_filter.1 (List.argmin_mem huser)
    exact authenticates_user hmem (Bool.and_eq_true_iff.1 hactive).1

theorem run_getCurrentUser (credentials : Credentials) :
    Authenticates db ((getCurrentUser ctx deployment credentials).run { state := db }) := by
  unfold getCurrentUser
  cases given credentials.bearer with
  | some token =>
    dsimp only
    cases ctx.decodeToken token with
    | none => exact .inl ⟨_, _, rfl⟩
    | some payload =>
      dsimp only
      by_cases htype : payload.type ≠ "access"
      · rw [if_pos htype]
        exact .inl ⟨_, _, rfl⟩
      · rw [if_neg htype]
        exact authenticates_token db payload
  | none =>
    cases given credentials.xApiKey with
    | some rawKey => exact authenticates_key ctx db rawKey
    | none =>
      dsimp only
      split
      · exact authenticates_first db deployment.createdAt
      · exact .inl ⟨_, _, rfl⟩

/-- The user of a call, if its role guard lets it through. -/
structure Admitted (deployment : Deployment) (c : ApiCall) (db : Database) (auth : Authenticated) : Prop where
  answered : answer c.context deployment c.credentials db = .ok auth
  permitted : ∀ requiredRole ∈ c.endpoint.requiredRole, hasPermission auth.user.role requiredRole = true
  stored : auth.user ∈ db.tables.users.rows
  active : auth.user.isActive = true

/-- What a call can make of the database. Whatever raises is rolled back. -/
inductive Outcome (deployment : Deployment) (c : ApiCall) (db : Database) : Database → Prop
  | refused : Outcome deployment c db db
  | opened {op : Operation} {t : Transaction Database} (hcall : c.endpoint.publicCall = some op)
      (hrun : (op.run c.context c.ip).run { state := db } = (.ok (), t)) :
      Outcome deployment c db (commit db t)
  | acted {auth : Authenticated} {tables : Tables} {op : Option Operation} {t : Transaction Database}
      (hguarded : c.endpoint.publicCall = none) (hauth : Admitted deployment c db auth)
      (hsame : SameContent db.tables tables) (hcall : c.endpoint.userCall auth.user = .ok op)
      (hrun : (runOperation c op).run { state := { db with tables } } = (.ok (), t)) :
      Outcome deployment c db (commit db t)

section Outcomes

variable {deployment} {c : ApiCall} {db}

theorem run_checkRole (user : User) (requiredRole : Option Role) (t : Transaction Database) :
    (∀ role ∈ requiredRole, hasPermission user.role role = true) ∧
        (checkRole user requiredRole).run t = (.ok (), t) ∨
      (¬ ∀ role ∈ requiredRole, hasPermission user.role role = true) ∧
        ∃ e, (checkRole user requiredRole).run t = (.error e, t) := by
  cases requiredRole with
  | none => exact .inl ⟨by simp, rfl⟩
  | some role =>
    by_cases h : hasPermission user.role role = true
    · refine .inl ⟨by simpa using h, ?_⟩
      rw [checkRole, if_pos h]
      rfl
    · refine .inr ⟨by simpa using h, missingRole role, ?_⟩
      rw [checkRole, if_neg h]
      rfl

/-- The response is built last, from what the session holds. -/
theorem run_response {h : Handler Unit} {t t' : Transaction Database} (hh : h.run t = (.ok (), t'))
    (response : Except PyException Unit) :
    ∃ r, (do h; call (ofExcept response) : Handler Unit).run t = (r, t') :=
  ⟨_, (run_bind_ok hh).trans (run_call_ofExcept response t')⟩

theorem run_act_refused {user : User} {t : Transaction Database}
    (h : ¬ ∀ role ∈ c.endpoint.requiredRole, hasPermission user.role role = true) :
    ∃ e, (act c user).run t = (.error e, t) := by
  obtain ⟨hpermitted, _⟩ | ⟨_, e, hcheck⟩ := run_checkRole user c.endpoint.requiredRole t
  · exact absurd hpermitted h
  · exact ⟨e, run_bind_error hcheck⟩

theorem run_act (c : ApiCall) (user : User) (t : Transaction Database) :
    (∃ e t', (act c user).run t = (.error e, t')) ∨
      (∀ role ∈ c.endpoint.requiredRole, hasPermission user.role role = true) ∧
        ∃ op r t', c.endpoint.userCall user = .ok op ∧ (runOperation c op).run t = (.ok (), t') ∧
          (act c user).run t = (r, t') := by
  obtain ⟨hpermitted, hcheck⟩ | ⟨_, e, hcheck⟩ := run_checkRole user c.endpoint.requiredRole t
  · rw [act, run_bind_ok hcheck]
    cases hcall : c.endpoint.userCall user with
    | error e => exact .inl ⟨_, _, run_bind_error (run_call_ofExcept (.error e) t)⟩
    | ok op =>
      rw [run_bind_ok (run_call_ofExcept (.ok op) t)]
      cases hrun : (runOperation c op).run t with
      | mk result t' =>
        cases result with
        | error e => exact .inl ⟨_, _, run_bind_error (run_call_error hrun)⟩
        | ok u =>
          obtain ⟨r, hlast⟩ := run_response (run_call_ok hrun) c.response
          exact .inr ⟨hpermitted, op, r, t', rfl, hrun, hlast⟩
  · exact .inl ⟨e, t, run_bind_error hcheck⟩

theorem transact_cases {h : Handler Unit} {r : Except ApiError Unit} {t : Transaction Database}
    (hrun : h.run { state := db } = (r, t)) :
    (transact h db).2 = db ∨ (transact h db).2 = commit db t := by
  cases r with
  | error e => exact .inl (congrArg Prod.snd (transact_error hrun))
  | ok u => exact .inr (congrArg Prod.snd (transact_ok hrun))

theorem serveCall_outcome (deployment : Deployment) (c : ApiCall) (db : Database) :
    Outcome deployment c db (serveCall deployment c db).2 := by
  unfold serveCall handle
  cases hpublic : c.endpoint.publicCall with
  | some op =>
    dsimp only
    cases hrun : (op.run c.context c.ip).run { state := db } with
    | mk result t =>
      cases result with
      | error e =>
        rw [transact_error (run_bind_error (run_call_error hrun))]
        exact .refused
      | ok u =>
        obtain ⟨r, hlast⟩ := run_response (run_call_ok hrun) c.response
        obtain hsame | hcommit := transact_cases hlast
        · rw [hsame]
          exact .refused
        · rw [hcommit]
          exact .opened hpublic hrun
  | none =>
    dsimp only
    obtain ⟨e, t, hauth⟩ | ⟨auth, tables, hauth, hsame, hstored, hactive⟩ :=
      run_getCurrentUser c.context deployment db c.credentials
    · rw [transact_error (run_bind_error (run_call_error hauth))]
      exact .refused
    · obtain ⟨e, t, hact⟩ | ⟨hpermitted, op, r, t, hcall, hrun, hact⟩ :=
        run_act c auth.user { state := { db with tables } }
      · rw [transact_error ((run_bind_ok (run_call_ok hauth)).trans hact)]
        exact .refused
      · have hlast : (do
            let auth ← call (getCurrentUser c.context deployment c.credentials)
            act c auth.user : Handler Unit).run { state := db } = (r, t) := by
          rw [run_bind_ok (run_call_ok hauth)]
          exact hact
        obtain hsame' | hcommit := transact_cases hlast
        · rw [hsame']
          exact .refused
        · rw [hcommit]
          exact .acted hpublic ⟨congrArg Prod.fst hauth, hpermitted, hstored, hactive⟩ hsame hcall hrun

/-- A route with a user answers nobody else. -/
theorem serveCall_refused (deployment : Deployment) {c : ApiCall} {db : Database}
    (hguarded : c.endpoint.publicCall = none) (h : ∀ auth, ¬ Admitted deployment c db auth) :
    ∃ e, serveCall deployment c db = (.error e, db) := by
  unfold serveCall handle
  rw [hguarded]
  obtain ⟨e, t, hauth⟩ | ⟨auth, tables, hauth, _, hstored, hactive⟩ :=
    run_getCurrentUser c.context deployment db c.credentials
  · exact ⟨_, transact_error (run_bind_error (run_call_error hauth))⟩
  · have hrefused : ¬ ∀ role ∈ c.endpoint.requiredRole, hasPermission auth.user.role role = true :=
      fun hpermitted => h auth ⟨congrArg Prod.fst hauth, hpermitted, hstored, hactive⟩
    obtain ⟨e, hact⟩ := run_act_refused hrefused
    exact ⟨e, transact_error ((run_bind_ok (run_call_ok hauth)).trans hact)⟩

end Outcomes

end EvalEngine.ApiEndpoints
