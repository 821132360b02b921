import EvalEngine.ApiEndpoints
import EvalEngine.Transitions

namespace EvalEngine.AccessControl

open EvalEngine.Exceptions EvalEngine.RunModel EvalEngine.SubmissionModel EvalEngine.ConstrainedTables
open EvalEngine.ServiceTables EvalEngine.Transactions EvalEngine.AuditService
open EvalEngine.ServiceContracts EvalEngine.AuthService EvalEngine.AuthContracts
open EvalEngine.ServiceRequests EvalEngine.CurrentUser EvalEngine.TenantRows
open EvalEngine.TenantWrites EvalEngine.ApiEndpoints EvalEngine.Transitions
open Entity Stored Contract Tenant

/-- The rows of an organization that the guarded routes work on. -/
structure Holdings where
  datasets : List Dataset
  submissions : List Submission
  evaluationConfigs : List EvaluationConfig
  evaluationRuns : List EvaluationRun
  metrics : List Metric

def holdings (orgId : UUID) (tables : Tables) : Holdings where
  datasets := kept (isTenant orgId) tables.datasets.rows
  submissions := kept (isTenant orgId) tables.submissions.rows
  evaluationConfigs := kept (isTenant orgId) tables.evaluationConfigs.rows
  evaluationRuns := kept (isTenant orgId) tables.evaluationRuns.rows
  metrics := kept (isTenant orgId) tables.metrics.rows

/-- A call that the role guard lets through for an active administrator of the organization. -/
def ByAdmin (deployment : Deployment) (orgId : UUID) (db : Database) (c : ApiCall) : Prop :=
  ∃ auth, Admitted deployment c db auth ∧ auth.user.role = .admin ∧ auth.user.organizationId = orgId

/-- A guard that asks for members is passed by administrators alone: the roles
of users have no member, and the level of a judge is that of no role. -/
theorem admin_of_permission {role : UserRole} {requiredRole : Role} (hrole : requiredRole ≠ .viewer)
    (h : hasPermission role requiredRole = true) : role = .admin := by
  cases requiredRole with
  | viewer => exact absurd rfl hrole
  | admin => cases role with
    | admin => rfl
    | judge => exact absurd h (by decide)
    | viewer => exact absurd h (by decide)
  | member => cases role with
    | admin => rfl
    | judge => exact absurd h (by decide)
    | viewer => exact absurd h (by decide)

/-- No route asks for viewers. -/
theorem requiredRole_ne_viewer {endpoint : Endpoint} {requiredRole : Role}
    (h : endpoint.requiredRole = some requiredRole) : requiredRole ≠ .viewer := by
  cases endpoint <;> cases h <;> decide

/-- Without a role guard the only thing that a route writes for its user is a key. -/
theorem key_of_unguarded {user : User} {endpoint : Endpoint} {op : Operation}
    (hguarded : endpoint.publicCall = none) (hrole : endpoint.requiredRole = none)
    (h : endpoint.userCall user = .ok (some op)) : ∃ name scopes expiresInDays,
      op = .createApiKeyForUser user.id user.organizationId name scopes expiresInDays := by
  cases endpoint <;> cases hrole
  case createApiKey body =>
    cases h
    exact ⟨body.name, body.scopes, body.expiresInDays, rfl⟩
  case read outcome => cases outcome <;> cases h
  all_goals cases hguarded

section Frame

variable {orgId : UUID} {before after : Tables}

theorem kept_of_others {ρ : Type} [Tenant ρ] {userOrg : UUID} (hne : orgId ≠ userOrg)
    {rows rows' : List ρ} (h : kept (isOther userOrg) rows' = kept (isOther userOrg) rows) :
    kept (isTenant orgId) rows' = kept (isTenant orgId) rows := by
  have hsub : ∀ rows : List ρ, kept (isTenant orgId) (kept (isOther userOrg) rows) =
      kept (isTenant orgId) rows := by
    intro rows
    unfold kept
    rw [List.filter_filter]
    apply List.filter_congr
    intro row _
    by_cases hown : owner row = some orgId
    · have hother : owner row ≠ some userOrg := by
        rw [hown]
        exact fun heq => hne (Option.some.inj heq)
      simp [isTenant, isOther, hown, hne]
    · simp [isTenant, hown]
  rw [← hsub rows', h, hsub rows]

theorem holdings_of_others {userOrg : UUID} (hne : orgId ≠ userOrg) (h : SameOthers userOrg before after) :
    holdings orgId after = holdings orgId before := by
  unfold holdings
  rw [kept_of_others hne h.datasets, kept_of_others hne h.submissions,
    kept_of_others hne h.evaluationConfigs, kept_of_others hne h.evaluationRuns,
    kept_of_others hne h.metrics]

theorem holdings_sameContent (h : SameContent before after) : holdings orgId after = holdings orgId before := by
  obtain ⟨t, rfl, _⟩ := h
  rfl

/-- A key is none of the holdings. -/
theorem holdings_key {apiKey : ApiKey} (h : Inserted apiKey before after) :
    holdings orgId after = holdings orgId before := by
  obtain ⟨t, rfl, _⟩ := h
  rfl

/-- Registration, login and refresh write organizations and users alone. -/
theorem holdings_public {ctx : Context} {ip : Option String} {endpoint : Endpoint} {op : Operation}
    (hcall : endpoint.publicCall = some op) (hguard : (op.codeContract ctx ip before).guard = none)
    (h : (op.codeContract ctx ip before).change after) : holdings orgId after = holdings orgId before := by
  cases endpoint <;> cases hcall
  case register body =>
    obtain ⟨_, mid, _, ⟨t, rfl, _⟩, ⟨t', rfl, _⟩⟩ := h
    rfl
  case login email password =>
    obtain ⟨user, huser⟩ := Option.isSome_iff_exists.1 (AuditCommit.liveUser_of_guard hguard)
    obtain ⟨t, rfl, _⟩ := h user huser
    rfl
  case refresh refreshToken =>
    obtain rfl : after = before := h
    rfl

end Frame

section Calls

variable {deployment : Deployment} {orgId : UUID} {c : ApiCall} {db : Database}

/-- What is committed is what was there, or what the session held. -/
theorem commit_tables (t : Transaction Database) {P : Tables → Prop} (hbefore : P db.tables)
    (hsession : P t.state.tables) : P (commit db t).tables := by
  unfold commit
  split
  · exact hbefore
  · exact hsession

/-- A call of a route leaves the holdings of an organization alone, or it is
one of an administrator of that organization. -/
theorem holdings_call (deployment : Deployment) (orgId : UUID) (c : ApiCall) (db : Database) :
    holdings orgId (serveCall deployment c db).2.tables = holdings orgId db.tables ∨
      ByAdmin deployment orgId db c := by
  have houtcome := serveCall_outcome deployment c db
  generalize (serveCall deployment c db).2 = after at houtcome ⊢
  cases houtcome with
  | refused => exact .inl rfl
  | @opened op t hcall hrun =>
    obtain ⟨_, hguard, tables, hchange, _, hclose⟩ :=
      (op.run_follows c.context c.ip db).of_ok (congrArg Prod.fst hrun)
    rw [hrun] at hclose
    refine .inl (commit_tables (P := fun tables => holdings orgId tables = holdings orgId db.tables) t rfl ?_)
    rw [show t = _ from hclose, close_tables]
    exact holdings_public hcall hguard hchange
  | @acted auth tables op t hguarded hauth hsame hcall hrun =>
    cases op with
    | none =>
      obtain rfl : t = { state := { db with tables } } := (congrArg Prod.snd hrun).symm
      exact .inl (holdings_sameContent hsame)
    | some op =>
      obtain ⟨_, hguard, tables', hchange, _, hclose⟩ :=
        (op.run_follows c.context c.ip { db with tables }).of_ok (congrArg Prod.fst hrun)
      have hstate : t.state.tables = tables' := by
        have ht : t = _ := (congrArg Prod.snd hrun).symm.trans hclose
        rw [ht, close_tables]
      have hsession : holdings orgId tables' = holdings orgId tables →
          holdings orgId (commit db t).tables = holdings orgId db.tables := by
        intro hframe
        apply commit_tables (P := fun tables => holdings orgId tables = holdings orgId db.tables) t rfl
        rw [hstate, hframe, holdings_sameContent hsame]
      by_cases horg : auth.user.organizationId = orgId
      · cases hrole : c.endpoint.requiredRole with
        | none =>
          obtain ⟨name, scopes, expiresInDays, rfl⟩ := key_of_unguarded hguarded hrole hcall
          exact .inl (hsession (holdings_key hchange))
        | some requiredRole =>
          refine .inr ⟨auth, hauth, ?_, horg⟩
          exact admin_of_permission (requiredRole_ne_viewer hrole) (hauth.permitted requiredRole hrole)
      · left
        apply hsession
        exact holdings_of_others (Ne.symm horg) (others_operation (tenantOf_userCall hcall) hguard hchange)

/-- One call after the other, each in its own session. -/
def step (deployment : Deployment) (db : Database) (c : ApiCall) : Option Database :=
  some (serveCall deployment c db).2

end Calls

/-- Over every run of calls, whatever their credentials, in which no call is
one of an active administrator of the organization at that moment, the
organization's datasets, submissions, configurations, runs and metrics are
what they were; and a call of a guarded route by anybody else is refused. -/
theorem holdings_change_by_admins (deployment : Deployment) (orgId : UUID) {db db' : Database}
    (h : Exec (step deployment) (fun db c => ¬ ByAdmin deployment orgId db c) db db') :
    holdings orgId db'.tables = holdings orgId db.tables ∧
      ∀ c : ApiCall, c.endpoint.requiredRole.isSome = true →
        (∀ orgId, ¬ ByAdmin deployment orgId db' c) →
          ∃ e, serveCall deployment c db' = (.error e, db') := by
  constructor
  · induction h with
    | refl => rfl
    | tail _ hnot hst ih =>
      cases hst
      obtain hsame | hadmin := holdings_call deployment orgId _ _
      · exact hsame.trans ih
      · exact absurd hadmin hnot
  · intro c hrole hnobody
    obtain ⟨requiredRole, hrole⟩ := Option.isSome_iff_exists.1 hrole
    have hguarded : c.endpoint.publicCall = none := by
      cases hendpoint : c.endpoint <;> rw [hendpoint] at hrole <;> first | rfl | cases hrole
    apply serveCall_refused deployment hguarded
    intro auth hauth
    refine hnobody auth.user.organizationId ⟨auth, hauth, ?_, rfl⟩
    exact admin_of_permission (requiredRole_ne_viewer hrole) (hauth.permitted requiredRole hrole)

section Sample

/-- The founder of the organization is made a judge. -/
def judged : Database :=
  { registered with
    tables := { registered.tables with
      users := (Table.write (registered.tables.users.rows.map fun user =>
        { user with role := .judge })).getD .empty } }

def judgeCall : ApiCall where
  ctx := { sampleContext with decodeToken := fun _ => some { sub := 1, org := 1, type := "access" } }
  credentials := byToken "access-token"
  endpoint := .createSubmission { startupName := "Startup One" }

theorem not_byAdmin_judge : ¬ ByAdmin {} 1 judged judgeCall := by
  rintro ⟨auth, hauth, hrole, _⟩
  have hrun : (answer judgeCall.context {} judgeCall.credentials judged).map (fun auth => auth.user.role) =
      .ok .judge := rfl
  rw [hauth.answered] at hrun
  cases hrole.symm.trans (Except.ok.inj hrun)

/-- A judge is let through as a user, and can not hand in a submission. -/
theorem judged_refused :
    holdings 1 (serveCall {} judgeCall judged).2.tables = holdings 1 judged.tables ∧
      ∀ c : ApiCall, c.endpoint.requiredRole.isSome = true →
        (∀ orgId, ¬ ByAdmin {} orgId (serveCall {} judgeCall judged).2 c) →
          ∃ e, serveCall {} c (serveCall {} judgeCall judged).2 =
            (.error e, (serveCall {} judgeCall judged).2) :=
  holdings_change_by_admins {} 1 (Exec.single not_byAdmin_judge rfl)

example : (serveCall {} judgeCall judged).1 = .error (missingRole .member) := rfl

end Sample

end EvalEngine.AccessControl
