import EvalEngine.AuditCommit
import EvalEngine.TenantRows

namespace EvalEngine.TenantWrites

open EvalEngine.JsonValues EvalEngine.Exceptions EvalEngine.RunModel EvalEngine.SubmissionModel
open EvalEngine.ConstrainedTables EvalEngine.ServiceTables EvalEngine.Transactions
open EvalEngine.AuditService EvalEngine.ServiceContracts EvalEngine.RowOperations
open EvalEngine.AuthContracts EvalEngine.DatasetService EvalEngine.ServiceRequests
open EvalEngine.Noninterference EvalEngine.TenantRows
open EvalEngine.PipelineDispatch (SameRow)
open EvalEngine.AuditCommit (scopedRow_of_guard run_of_guard)
open Entity Stored Contract Tenant

/-- The tables of the services, as far as they belong to others. -/
structure SameOthers (orgId : UUID) (before after : Tables) : Prop where
  organizations : kept (isOther orgId) after.organizations.rows =
    kept (isOther orgId) before.organizations.rows
  users : kept (isOther orgId) after.users.rows = kept (isOther orgId) before.users.rows
  apiKeys : kept (isOther orgId) after.apiKeys.rows = kept (isOther orgId) before.apiKeys.rows
  datasets : kept (isOther orgId) after.datasets.rows = kept (isOther orgId) before.datasets.rows
  submissions : kept (isOther orgId) after.submissions.rows =
    kept (isOther orgId) before.submissions.rows
  evaluationConfigs : kept (isOther orgId) after.evaluationConfigs.rows =
    kept (isOther orgId) before.evaluationConfigs.rows
  evaluationRuns : kept (isOther orgId) after.evaluationRuns.rows =
    kept (isOther orgId) before.evaluationRuns.rows
  metrics : kept (isOther orgId) after.metrics.rows = kept (isOther orgId) before.metrics.rows

theorem SameOthers.refl (orgId : UUID) (tables : Tables) : SameOthers orgId tables tables :=
  ⟨rfl, rfl, rfl, rfl, rfl, rfl, rfl, rfl⟩

theorem SameOthers.trans {orgId : UUID} {before mid after : Tables} (h : SameOthers orgId before mid)
    (h' : SameOthers orgId mid after) : SameOthers orgId before after where
  organizations := h'.organizations.trans h.organizations
  users := h'.users.trans h.users
  apiKeys := h'.apiKeys.trans h.apiKeys
  datasets := h'.datasets.trans h.datasets
  submissions := h'.submissions.trans h.submissions
  evaluationConfigs := h'.evaluationConfigs.trans h.evaluationConfigs
  evaluationRuns := h'.evaluationRuns.trans h.evaluationRuns
  metrics := h'.metrics.trans h.metrics

/-- A row type whose table can change for one organization alone. -/
class Framed (ρ : Type) [Stored ρ] [Tenant ρ] : Prop where
  put_others : ∀ (orgId : UUID) (t : Table ρ) (tables : Tables),
    kept (isOther orgId) t.rows = kept (isOther orgId) (table tables : Table ρ).rows →
      SameOthers orgId tables (put t tables)

instance : Framed ApiKey :=
  ⟨fun orgId _ tables h => { SameOthers.refl orgId tables with apiKeys := h }⟩

instance : Framed Dataset :=
  ⟨fun orgId _ tables h => { SameOthers.refl orgId tables with datasets := h }⟩

instance : Framed Submission :=
  ⟨fun orgId _ tables h => { SameOthers.refl orgId tables with submissions := h }⟩

instance : Framed EvaluationConfig :=
  ⟨fun orgId _ tables h => { SameOthers.refl orgId tables with evaluationConfigs := h }⟩

instance : Framed EvaluationRun :=
  ⟨fun orgId _ tables h => { SameOthers.refl orgId tables with evaluationRuns := h }⟩

instance : Framed Metric :=
  ⟨fun orgId _ tables h => { SameOthers.refl orgId tables with metrics := h }⟩

theorem isOther_of_owner {orgId : UUID} {org : Option UUID} (h : org = some orgId) :
    isOther orgId org = false := by
  simp [isOther, isTenant, h]

section Frame

variable {ρ : Type} [Stored ρ] [Tenant ρ] [Framed ρ] {orgId : UUID} {row old : ρ}
  {before after : Tables}

theorem others_inserted (howner : owner row = some orgId) (h : Inserted row before after) :
    SameOthers orgId before after := by
  obtain ⟨t, rfl, hrows⟩ := h
  apply Framed.put_others
  rw [hrows, kept, List.filter_append]
  simp [kept, isOther_of_owner howner]

theorem others_updated (h : Updated row before after) (hold : old ∈ (table before : Table ρ).rows)
    (hkey : key row = key old) (howner : owner old = some orgId) (howner' : owner row = some orgId) :
    SameOthers orgId before after := by
  obtain ⟨t, rfl, hrows⟩ := h
  apply Framed.put_others
  rw [hrows]
  apply filter_map_of_fixed
  intro r hr
  by_cases hrkey : key r = key row
  · have hsame : r = old := (table before).eq_of_key hr hold (hrkey.trans hkey)
    rw [if_pos hrkey, hsame]
    exact .inr ⟨isOther_of_owner howner, isOther_of_owner howner'⟩
  · exact .inl (if_neg hrkey)

end Frame

section Change

variable {ρ : Type} [Scoped ρ] [Tenant ρ] [Framed ρ] {resource action : String} {id orgId : UUID}
  {f : ρ → ρ} {report : ρ → Report} {before after : Tables}

theorem others_scoped {row : ρ} (howner : ∀ row : ρ, owner row = some (Scoped.organizationId row))
    (hkey : key (f row) = key row) (hf : owner (f row) = owner row)
    (hrow : scopedRow ρ id orgId before = some row) (h : Updated (f row) before after) :
    SameOthers orgId before after := by
  obtain ⟨hmem, _, horg, _⟩ := scopedRow_some hrow
  have hold : owner row = some orgId := by rw [howner, horg]
  exact others_updated h hmem hkey hold (hf.trans hold)

/-- An operation that changes one row of the organization changes no other. -/
theorem others_change
    (hguard : (changeContract resource action id orgId f report before).guard = none)
    (h : (changeContract resource action id orgId f report before).change after)
    (howner : ∀ row : ρ, owner row = some (Scoped.organizationId row))
    (hkey : ∀ row, key (f row) = key row) (hf : ∀ row, owner (f row) = owner row) :
    SameOthers orgId before after := by
  obtain ⟨row, hrow⟩ := Option.isSome_iff_exists.1 (scopedRow_of_guard hguard)
  exact others_scoped howner (hkey row) (hf row) hrow (h row hrow)

end Change

/-- The organization that an operation is called with. -/
def tenantOf : Operation → Option UUID
  | .createApiKeyForUser _ orgId _ _ _ | .revokeApiKey _ orgId _ | .initiateDatasetUpload orgId _ _ _ _ _
  | .confirmDatasetUpload _ orgId _ _ | .deleteDataset _ orgId _ | .createSubmission orgId _ _
  | .updateSubmission _ orgId _ _ | .deleteSubmission _ orgId _ | .triggerEvaluation _ orgId _ _ _
  | .createEvaluationConfig orgId _ _ | .updateEvaluationConfig _ orgId _ _
  | .deleteEvaluationConfig _ orgId _ | .cancelEvaluationRun _ orgId _
  | .createCustomMetric orgId _ _ => some orgId
  | .registerUser _ _ _ _ | .authenticateUser _ _ | .refreshAccessToken _ | .authenticateApiKey _
  | .seedBuiltinMetrics => none

variable {ctx : Context} {ip : Option String} {op : Operation} {orgId : UUID} {before after : Tables}

theorem owner_updatedRow (now : Time) (updates : SubmissionService.SubmissionUpdate)
    (submission : Submission) : owner (SubmissionService.updatedRow now updates submission) =
      owner submission := by
  unfold SubmissionService.updatedRow SubmissionService.stamp
  split <;> rfl

theorem key_updatedRow (now : Time) (updates : SubmissionService.SubmissionUpdate)
    (submission : Submission) : key (SubmissionService.updatedRow now updates submission) =
      key submission := by
  unfold SubmissionService.updatedRow SubmissionService.stamp
  split <;> rfl

theorem underReview_same (now : Time) (submission : Submission) :
    key (SubmissionService.underReview now submission) = key submission ∧
      owner (SubmissionService.underReview now submission) = owner submission := by
  unfold SubmissionService.underReview
  split <;> exact ⟨rfl, rfl⟩

theorem scopedRow_of_confirmGuard {datasetId : UUID} {checksum : String} {found : Option Dataset}
    (h : confirmGuard ctx datasetId checksum found = none) : found.isSome = true := by
  cases found with
  | none => cases h
  | some dataset => rfl

theorem submission_of_triggerGuard {submissionId : UUID} {configId : Option UUID}
    (h : TriggerEvaluation.triggerGuard submissionId orgId configId before = none) :
    (scopedRow Submission submissionId orgId before).isSome = true := by
  cases hrow : scopedRow Submission submissionId orgId before with
  | none =>
    rw [TriggerEvaluation.triggerGuard, hrow] at h
    cases h
  | some submission => rfl

theorem others_trigger {submissionId userId : UUID} {configId : Option UUID} {runMetadata : Option Dict}
    (hguard : TriggerEvaluation.triggerGuard submissionId orgId configId before = none)
    (h : (TriggerEvaluation.triggerContract ctx submissionId orgId userId configId runMetadata ip
      before).change after) : SameOthers orgId before after := by
  obtain ⟨submission, hrow⟩ := Option.isSome_iff_exists.1 (submission_of_triggerGuard hguard)
  obtain ⟨taskId, mid, mid', _, hsubmission, hrun, hdispatched⟩ := h submission hrow
  obtain ⟨hkey, howner⟩ := underReview_same ctx.now submission
  have hreview : SameOthers orgId before mid :=
    others_scoped (fun _ => rfl) hkey howner hrow hsubmission
  have hadded : SameOthers orgId mid mid' := others_inserted rfl hrun
  have hmem : TriggerEvaluation.addedRun ctx submissionId orgId userId configId runMetadata before ∈
      (table mid' : Table EvaluationRun).rows := by
    obtain ⟨t, rfl, hrows⟩ := hrun
    rw [table_put, hrows]
    exact List.mem_append_right _ (List.mem_singleton_self _)
  have hsent : SameOthers orgId mid' after := others_updated hdispatched hmem rfl rfl rfl
  exact (hreview.trans hadded).trans hsent

/-- What an operation changes for an organization, it changes for no other. -/
theorem others_operation (horg : tenantOf op = some orgId)
    (hguard : (op.codeContract ctx ip before).guard = none)
    (h : (op.codeContract ctx ip before).change after) : SameOthers orgId before after := by
  cases op <;> cases horg
  case createApiKeyForUser => exact others_inserted rfl h
  case revokeApiKey => exact others_change hguard h (fun _ => rfl) (fun _ => rfl) (fun _ => rfl)
  case initiateDatasetUpload => exact others_inserted rfl h
  case confirmDatasetUpload datasetId checksum sampleCount =>
    obtain ⟨dataset, hrow⟩ := Option.isSome_iff_exists.1 (scopedRow_of_confirmGuard hguard)
    exact others_scoped (fun _ => rfl) rfl rfl hrow (h dataset hrow)
  case deleteDataset => exact others_change hguard h (fun _ => rfl) (fun _ => rfl) (fun _ => rfl)
  case createSubmission => exact others_inserted rfl h
  case updateSubmission submissionId userId updates =>
    exact others_change hguard h (fun _ => rfl) (key_updatedRow ctx.now updates)
      (owner_updatedRow ctx.now updates)
  case deleteSubmission => exact others_change hguard h (fun _ => rfl) (fun _ => rfl) (fun _ => rfl)
  case triggerEvaluation => exact others_trigger hguard h
  case createEvaluationConfig => exact others_inserted rfl h
  case updateEvaluationConfig =>
    exact others_change hguard h (fun _ => rfl) (fun _ => rfl) (fun _ => rfl)
  case deleteEvaluationConfig =>
    exact others_change hguard h (fun _ => rfl) (fun _ => rfl) (fun _ => rfl)
  case cancelEvaluationRun runId userId =>
    obtain ⟨run, hrow⟩ := Option.isSome_iff_exists.1 (run_of_guard hguard)
    exact others_scoped (fun _ => rfl) rfl rfl hrow (h run hrow)
  case createCustomMetric => exact others_inserted rfl h

theorem entryOf_owner (name : String) {report : Report} {entry : AuditEntry}
    (hentry : entry ∈ entryOf name report) (h : report.organizationId = orgId) :
    entry.organizationId = some orgId := by
  obtain ⟨action, _, rfl⟩ := Option.map_eq_some_iff.1 hentry
  exact congrArg some h

theorem entryOf_bind_owner {ρ : Type} {found : Option ρ} {name : String} {report : ρ → Report}
    {entry : AuditEntry} (hentry : entry ∈ found.bind fun row => entryOf name (report row))
    (h : ∀ row, (report row).organizationId = orgId) : entry.organizationId = some orgId := by
  obtain ⟨row, _, hrow⟩ := Option.bind_eq_some_iff.1 hentry
  exact entryOf_owner name hrow (h row)

/-- An operation reports to the organization that it is called with. -/
theorem entry_operation (horg : tenantOf op = some orgId) {entry : AuditEntry}
    (hentry : entry ∈ (op.codeContract ctx ip before).entry) : entry.organizationId = some orgId := by
  cases op <;> cases horg
  case createApiKeyForUser userId name scopes expiresInDays =>
    have hreport : entry ∈ entryOf "API_KEY_CREATED"
      (AuthService.keyReport before.apiKeys.freshKey orgId userId ip) := hentry
    exact entryOf_owner "API_KEY_CREATED" hreport rfl
  case revokeApiKey => exact entryOf_bind_owner hentry fun _ => rfl
  case initiateDatasetUpload => exact entryOf_owner "CREATE" hentry rfl
  case confirmDatasetUpload => exact entryOf_bind_owner hentry fun _ => rfl
  case deleteDataset => exact entryOf_bind_owner hentry fun _ => rfl
  case createSubmission => exact entryOf_owner "CREATE" hentry rfl
  case updateSubmission => exact entryOf_bind_owner hentry fun _ => rfl
  case deleteSubmission => exact entryOf_bind_owner hentry fun _ => rfl
  case triggerEvaluation => exact entryOf_owner "EVALUATION_STARTED" hentry rfl
  case createEvaluationConfig => exact entryOf_owner "CREATE" hentry rfl
  case updateEvaluationConfig => exact entryOf_bind_owner hentry fun _ => rfl
  case deleteEvaluationConfig => exact entryOf_bind_owner hentry fun _ => rfl
  case cancelEvaluationRun => exact entryOf_bind_owner hentry fun _ => rfl
  case createCustomMetric => exact entryOf_owner "CREATE" hentry rfl

/-- A request leaves the database alone, or commits the change of its operation. -/
theorem serve_cases (ctx : Context) (request : Request) (uuid4 : UUID) (op : Operation) (db : Database) :
    (serve ctx request uuid4 op db).2 = db ∨ ∃ tables ctx' ip,
      ctx'.now = ctx.now ∧ (op.codeContract ctx' ip db.tables).guard = none ∧
        (op.codeContract ctx' ip db.tables).change tables ∧
        (serve ctx request uuid4 op db).2 =
          ((op.codeContract ctx' ip db.tables).close ctx' { db with tables }).state := by
  unfold serve
  let ctx' := { ctx with requestId := correlationId request uuid4 }
  let ip := some (getClientIp request)
  cases hrun : (op.run ctx' ip).run { state := db } with
  | mk r t =>
    cases r with
    | error e => exact .inl (congrArg Prod.snd (transact_error hrun))
    | ok a =>
      have hok := (op.run_follows ctx' ip db).of_ok (congrArg Prod.fst hrun)
      obtain ⟨_, hguard, tables, hchange, _, hclose⟩ := hok
      have hstate : t = (op.codeContract ctx' ip db.tables).close ctx' { db with tables } := by
        rw [← hclose, hrun]
      cases haborted : t.aborted with
      | true =>
        refine .inl ?_
        rw [transact_ok hrun, commit, haborted]
        rfl
      | false =>
        refine .inr ⟨tables, ctx', ip, rfl, hguard, hchange, ?_⟩
        rw [transact_ok hrun, commit, haborted, hstate]
        rfl

end EvalEngine.TenantWrites
