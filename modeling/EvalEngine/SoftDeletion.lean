import EvalEngine.TenantWrites

namespace EvalEngine.SoftDeletion

open EvalEngine.Exceptions EvalEngine.RunModel EvalEngine.SubmissionModel EvalEngine.ConstrainedTables
open EvalEngine.ServiceTables EvalEngine.AuditService EvalEngine.ServiceContracts
open EvalEngine.RowOperations EvalEngine.AuthService EvalEngine.AuthContracts
open EvalEngine.DatasetService EvalEngine.ServiceRequests EvalEngine.Transitions
open EvalEngine.PipelineDatabase EvalEngine.TenantWrites
open EvalEngine.AuditCommit (scopedRow_of_guard liveUser_of_guard run_of_guard)
open EvalEngine.PipelineDispatch (written written_sameRow cleanup_sameRow)
open EvalEngine.LostUpdates (countCompleted countFailed)
open EvalEngine.RunWriters (cleanupStaleRuns)
open EvalEngine.CrossCheck (Finding)
open EvalEngine.Fabrication (Risk)
open Entity Stored Contract

/-- The rows that nothing is to use any more. -/
class Retirable (ρ : Type) where
  Retired : ρ → Prop

open Retirable

/-- `deleted_at` is set. -/
instance : Retirable Organization := ⟨fun org => org.deletedAt ≠ none⟩

instance : Retirable User := ⟨fun user => user.deletedAt ≠ none⟩

/-- A revoked key is as good as deleted. -/
instance : Retirable ApiKey := ⟨fun apiKey => apiKey.deletedAt ≠ none ∨ apiKey.isRevoked = true⟩

instance : Retirable Dataset := ⟨fun dataset => dataset.deletedAt ≠ none⟩

instance : Retirable Submission := ⟨fun submission => submission.deletedAt ≠ none⟩

instance : Retirable EvaluationConfig := ⟨fun config => config.deletedAt ≠ none⟩

instance : Retirable EvaluationRun := ⟨fun run => run.deletedAt ≠ none⟩

instance : Retirable Metric := ⟨fun metric => metric.deletedAt ≠ none⟩

/-- What is left of a retired row: it is retired, or even the same. -/
def Remains {ρ : Type} [Entity ρ] [Retirable ρ] (exact : Prop) (row row' : ρ) : Prop :=
  key row' = key row ∧ Retired row' ∧ (exact → row' = row)

/-- Every retired row of the type remains. -/
def Keeps (exact : Prop) (ρ : Type) [Stored ρ] [Retirable ρ] (before after : Tables) : Prop :=
  ∀ row ∈ (table before : Table ρ).rows, Retired row →
    ∃ row' ∈ (table after : Table ρ).rows, Remains exact row row'

/-- The pipeline writes submissions and runs by their keys alone, so that their
retired rows are the same only if `exact`. -/
structure Buried (exact : Prop) (before after : Tables) : Prop where
  organizations : Keeps True Organization before after
  users : Keeps True User before after
  apiKeys : Keeps True ApiKey before after
  datasets : Keeps True Dataset before after
  submissions : Keeps exact Submission before after
  evaluationConfigs : Keeps True EvaluationConfig before after
  evaluationRuns : Keeps exact EvaluationRun before after
  metrics : Keeps True Metric before after

section Rows

variable {ρ : Type} [Stored ρ] [Retirable ρ] {exact : Prop} {before mid after : Tables}

theorem Keeps.refl (exact : Prop) (tables : Tables) : Keeps exact ρ tables tables :=
  fun row hrow hretired => ⟨row, hrow, rfl, hretired, fun _ => rfl⟩

theorem Keeps.trans (h : Keeps exact ρ before mid) (h' : Keeps exact ρ mid after) :
    Keeps exact ρ before after := by
  intro row hrow hretired
  obtain ⟨row', hrow', hkey, hretired', hsame⟩ := h row hrow hretired
  obtain ⟨row'', hrow'', hkey', hretired'', hsame'⟩ := h' row' hrow' hretired'
  exact ⟨row'', hrow'', hkey'.trans hkey, hretired'', fun hexact => (hsame' hexact).trans (hsame hexact)⟩

theorem Keeps.weaken (h : Keeps True ρ before after) : Keeps exact ρ before after := by
  intro row hrow hretired
  obtain ⟨row', hrow', hkey, hretired', hsame⟩ := h row hrow hretired
  exact ⟨row', hrow', hkey, hretired', fun _ => hsame trivial⟩

end Rows

section Tables

variable {exact : Prop} {before mid after : Tables}

theorem Buried.refl (exact : Prop) (tables : Tables) : Buried exact tables tables :=
  ⟨Keeps.refl True tables, Keeps.refl True tables, Keeps.refl True tables, Keeps.refl True tables,
    Keeps.refl exact tables, Keeps.refl True tables, Keeps.refl exact tables, Keeps.refl True tables⟩

theorem Buried.trans (h : Buried exact before mid) (h' : Buried exact mid after) :
    Buried exact before after where
  organizations := h.organizations.trans h'.organizations
  users := h.users.trans h'.users
  apiKeys := h.apiKeys.trans h'.apiKeys
  datasets := h.datasets.trans h'.datasets
  submissions := h.submissions.trans h'.submissions
  evaluationConfigs := h.evaluationConfigs.trans h'.evaluationConfigs
  evaluationRuns := h.evaluationRuns.trans h'.evaluationRuns
  metrics := h.metrics.trans h'.metrics

/-- Where nothing is to be exact, any of it will do. -/
theorem Buried.of_not (h : Buried False before after) (hexact : ¬ exact) : Buried exact before after := by
  have hfalse : exact = False := eq_false hexact
  rwa [hfalse]

end Tables

/-- A row type whose table can change alone. -/
class Framed (ρ : Type) [Stored ρ] [Retirable ρ] : Prop where
  put_buried : ∀ (exact : Prop) (t : Table ρ) (tables : Tables),
    Keeps True ρ tables (put t tables) → Buried exact tables (put t tables)

instance : Framed Organization :=
  ⟨fun exact _ tables h => { Buried.refl exact tables with organizations := h }⟩

instance : Framed User := ⟨fun exact _ tables h => { Buried.refl exact tables with users := h }⟩

instance : Framed ApiKey := ⟨fun exact _ tables h => { Buried.refl exact tables with apiKeys := h }⟩

instance : Framed Dataset := ⟨fun exact _ tables h => { Buried.refl exact tables with datasets := h }⟩

instance : Framed Submission :=
  ⟨fun exact _ tables h => { Buried.refl exact tables with submissions := h.weaken }⟩

instance : Framed EvaluationConfig :=
  ⟨fun exact _ tables h => { Buried.refl exact tables with evaluationConfigs := h }⟩

instance : Framed EvaluationRun :=
  ⟨fun exact _ tables h => { Buried.refl exact tables with evaluationRuns := h.weaken }⟩

instance : Framed Metric := ⟨fun exact _ tables h => { Buried.refl exact tables with metrics := h }⟩

section Statements

variable {ρ : Type} [Stored ρ] [Retirable ρ] [Framed ρ] {exact : Prop} {row old : ρ}
  {before after : Tables}

/-- Rows that are only added to. -/
theorem buried_appended {t : Table ρ} {added : List ρ}
    (h : t.rows = (table before : Table ρ).rows ++ added) : Buried exact before (put t before) := by
  apply Framed.put_buried
  intro row hrow hretired
  refine ⟨row, ?_, rfl, hretired, fun _ => rfl⟩
  rw [table_put, h]
  exact List.mem_append_left _ hrow

theorem buried_inserted (h : Inserted row before after) : Buried exact before after := by
  obtain ⟨t, rfl, hrows⟩ := h
  exact buried_appended hrows

/-- An UPDATE of a row leaves the others alone, and a retired row as it is. -/
theorem buried_updated (h : Updated row before after) (hold : old ∈ (table before : Table ρ).rows)
    (hkey : key row = key old) (hused : Retired old → row = old) : Buried exact before after := by
  obtain ⟨t, rfl, hrows⟩ := h
  apply Framed.put_buried
  intro r hr hretired
  refine ⟨r, ?_, rfl, hretired, fun _ => rfl⟩
  rw [table_put, hrows]
  refine List.mem_map.2 ⟨r, hr, ?_⟩
  by_cases hsame : key r = key row
  · obtain rfl := (table before).eq_of_key hr hold (hsame.trans hkey)
    rw [if_pos hsame, hused hretired]
  · exact if_neg hsame

end Statements

section Change

variable {ρ : Type} [Scoped ρ] [Retirable ρ] [Framed ρ] {exact : Prop} {resource action : String}
  {id orgId : UUID} {f : ρ → ρ} {report : ρ → Report} {before after : Tables}

theorem buried_scoped {row row' : ρ} (h : Updated row' before after)
    (hrow : scopedRow ρ id orgId before = some row) (hkey : key row' = key row)
    (hused : Scoped.deletedAt row = none → Retired row → row' = row) : Buried exact before after := by
  obtain ⟨hmem, _, _, hlive⟩ := scopedRow_some hrow
  exact buried_updated h hmem hkey (hused hlive)

/-- An operation that changes one row finds it by a look-up. -/
theorem buried_change
    (hguard : (changeContract resource action id orgId f report before).guard = none)
    (h : (changeContract resource action id orgId f report before).change after)
    (hkey : ∀ row, key (f row) = key row)
    (hused : ∀ row : ρ, Scoped.deletedAt row = none → Retired row → f row = row) :
    Buried exact before after := by
  obtain ⟨row, hrow⟩ := Option.isSome_iff_exists.1 (scopedRow_of_guard hguard)
  exact buried_scoped (h row hrow) hrow (hkey row) (hused row)

end Change

variable {ctx : Context} {ip : Option String} {op : Operation} {exact : Prop} {before after : Tables}

theorem liveUser_some {email : String} {user : User} (h : liveUser email before = some user) :
    user ∈ before.users.rows ∧ user.deletedAt = none := by
  have hlive := List.find?_some h
  simp only [Bool.and_eq_true, Option.isNone_iff_eq_none] at hlive
  exact ⟨List.mem_of_find?_eq_some h, hlive.2⟩

theorem liveKey_some {keyHash : String} {apiKey : ApiKey} (h : liveKey keyHash before = some apiKey) :
    apiKey ∈ before.apiKeys.rows ∧ apiKey.isRevoked = false ∧ apiKey.deletedAt = none := by
  have hlive := List.find?_some h
  simp only [Bool.and_eq_true, Bool.not_eq_true', Option.isNone_iff_eq_none] at hlive
  exact ⟨List.mem_of_find?_eq_some h, hlive.1.2, hlive.2⟩

theorem key_of_guard {rawKey : String} (h : keyGuard ctx rawKey before = none) :
    (liveKey (ctx.sha256 rawKey) before).isSome = true := by
  cases hkey : liveKey (ctx.sha256 rawKey) before with
  | none =>
    rw [keyGuard, hkey] at h
    cases h
  | some apiKey => rfl

theorem buried_trigger {submissionId orgId userId : UUID} {configId : Option UUID}
    {runMetadata : Option JsonValues.Dict}
    (hguard : TriggerEvaluation.triggerGuard submissionId orgId configId before = none)
    (h : (TriggerEvaluation.triggerContract ctx submissionId orgId userId configId runMetadata ip
      before).change after) : Buried exact before after := by
  obtain ⟨submission, hrow⟩ := Option.isSome_iff_exists.1 (submission_of_triggerGuard hguard)
  obtain ⟨taskId, mid, mid', _, hsubmission, hrun, hdispatched⟩ := h submission hrow
  have hreview : Buried exact before mid := by
    apply buried_scoped hsubmission hrow (underReview_same ctx.now submission).1
    intro hlive hretired
    exact absurd hlive hretired
  have hadded : Buried exact mid mid' := buried_inserted hrun
  have hmem : TriggerEvaluation.addedRun ctx submissionId orgId userId configId runMetadata before ∈
      (table mid' : Table EvaluationRun).rows := by
    obtain ⟨t, rfl, hrows⟩ := hrun
    rw [table_put, hrows]
    exact List.mem_append_right _ (List.mem_singleton_self _)
  have hsent : Buried exact mid' after :=
    buried_updated hdispatched hmem rfl fun hretired => absurd rfl hretired
  exact (hreview.trans hadded).trans hsent

/-- No operation of the services touches a retired row. -/
theorem buried_operation (hguard : (op.codeContract ctx ip before).guard = none)
    (h : (op.codeContract ctx ip before).change after) : Buried exact before after := by
  have hdeleted : ∀ {o : Option Time}, o = none → o ≠ none → False := fun hlive hretired => hretired hlive
  cases op with
  | registerUser email password fullName organizationName =>
    obtain ⟨_, mid, _, horganization, huser⟩ := h
    exact (buried_inserted horganization).trans (buried_inserted huser)
  | authenticateUser email password =>
    obtain ⟨user, huser⟩ := Option.isSome_iff_exists.1 (liveUser_of_guard hguard)
    obtain ⟨hmem, hlive⟩ := liveUser_some huser
    exact buried_updated (h user huser) hmem rfl fun hretired => (hdeleted hlive hretired).elim
  | refreshAccessToken refreshTokenStr =>
    obtain rfl : after = before := h
    exact Buried.refl exact after
  | authenticateApiKey rawKey =>
    obtain ⟨apiKey, hkey⟩ := Option.isSome_iff_exists.1 (key_of_guard hguard)
    obtain ⟨hmem, hrevoked, hlive⟩ := liveKey_some hkey
    refine buried_updated (h apiKey hkey) hmem rfl ?_
    rintro (hretired | hretired)
    · exact (hdeleted hlive hretired).elim
    · rw [hrevoked] at hretired
      cases hretired
  | createApiKeyForUser userId orgId name scopes expiresInDays => exact buried_inserted h
  | revokeApiKey keyId orgId userId =>
    refine buried_change hguard h (fun _ => rfl) ?_
    rintro row hlive (hretired | hrevoked)
    · exact (hdeleted hlive hretired).elim
    · rw [revoked, ← hrevoked]
  | initiateDatasetUpload orgId userId name description sizeBytes metadata => exact buried_inserted h
  | confirmDatasetUpload datasetId orgId checksum sampleCount =>
    obtain ⟨dataset, hrow⟩ := Option.isSome_iff_exists.1 (scopedRow_of_confirmGuard hguard)
    exact buried_scoped (h dataset hrow) hrow rfl fun hlive hretired => (hdeleted hlive hretired).elim
  | deleteDataset datasetId orgId userId =>
    exact buried_change hguard h (fun _ => rfl) fun _ hlive hretired => (hdeleted hlive hretired).elim
  | createSubmission orgId userId body => exact buried_inserted h
  | updateSubmission submissionId orgId userId updates =>
    exact buried_change hguard h (key_updatedRow ctx.now updates)
      fun _ hlive hretired => (hdeleted hlive hretired).elim
  | deleteSubmission submissionId orgId userId =>
    exact buried_change hguard h (fun _ => rfl) fun _ hlive hretired => (hdeleted hlive hretired).elim
  | triggerEvaluation submissionId orgId userId configId runMetadata => exact buried_trigger hguard h
  | createEvaluationConfig orgId userId body => exact buried_inserted h
  | updateEvaluationConfig configId orgId userId updates =>
    exact buried_change hguard h (fun _ => rfl) fun _ hlive hretired => (hdeleted hlive hretired).elim
  | deleteEvaluationConfig configId orgId userId =>
    exact buried_change hguard h (fun _ => rfl) fun _ hlive hretired => (hdeleted hlive hretired).elim
  | cancelEvaluationRun runId orgId userId =>
    obtain ⟨run, hrow⟩ := Option.isSome_iff_exists.1 (run_of_guard hguard)
    exact buried_scoped (h run hrow) hrow rfl fun hlive hretired => (hdeleted hlive hretired).elim
  | createCustomMetric orgId userId body => exact buried_inserted h
  | seedBuiltinMetrics =>
    obtain ⟨t, rfl, ⟨added, hrows, _⟩, _⟩ := h
    exact buried_appended hrows

/-- Statements that write every row of a table by its key. -/
theorem keeps_mapped {ρ : Type} [Stored ρ] [Retirable ρ] {f : ρ → ρ} {t : Table ρ}
    (hrows : t.rows = (table before : Table ρ).rows.map f) (hkey : ∀ row, key (f row) = key row)
    (hretired : ∀ row, Retired row → Retired (f row)) : Keeps False ρ before (put t before) := by
  intro row hrow hrow'
  refine ⟨f row, ?_, hkey row, hretired row hrow', False.elim⟩
  rw [table_put, hrows]
  exact List.mem_map_of_mem hrow

section Steps

variable {detect : String → String → Option Finding} {assess : String → String → ℚ → Risk} {s t : State}

theorem buried_runs {f : EvaluationRun → EvaluationRun}
    (hf : ∀ run, (f run).id = run.id ∧ (f run).deletedAt = run.deletedAt) {t : Table EvaluationRun}
    (ht : Table.write (s.runs.rows.map f) = some t) : Buried False s.db.tables (s.put t).db.tables := by
  have hkeeps : Keeps False EvaluationRun s.db.tables (put t s.db.tables) := by
    apply keeps_mapped (Table.write_some ht)
    · exact fun run => (hf run).1
    · intro run hrun
      change (f run).deletedAt ≠ none
      rwa [(hf run).2]
  exact { Buried.refl False s.db.tables with evaluationRuns := hkeeps }

theorem buried_write {f : EvaluationRun → EvaluationRun}
    (hf : ∀ run, (f run).id = run.id ∧ (f run).deletedAt = run.deletedAt) :
    Buried False s.db.tables (s.write (s.runs.rows.map f)).db.tables := by
  unfold State.write
  split
  next t ht => exact buried_runs hf ht
  next => exact Buried.refl False _

theorem buried_mark {runId : UUID} {workerType : String} {f : WorkerResultRow → WorkerResultRow}
    {g : EvaluationRun → EvaluationRun}
    (hg : ∀ run, (g run).id = run.id ∧ (g run).deletedAt = run.deletedAt) :
    Buried False s.db.tables (s.mark runId workerType f g).db.tables := by
  unfold State.mark
  split
  next workers runs _ hruns =>
    refine buried_runs ?_ hruns
    intro run
    split
    · exact hg run
    · exact ⟨rfl, rfl⟩
  next => exact Buried.refl False _

theorem buried_submissions {f : Submission → Submission}
    (hf : ∀ submission, (f submission).id = submission.id ∧
      (f submission).deletedAt = submission.deletedAt) :
    Buried False s.db.tables (s.write (s.db.tables.submissions.rows.map f)).db.tables := by
  unfold State.write
  split
  next t ht =>
    have hkeeps : Keeps False Submission s.db.tables (put t s.db.tables) := by
      apply keeps_mapped (Table.write_some ht)
      · exact fun submission => (hf submission).1
      · intro submission hsubmission
        change (f submission).deletedAt ≠ none
        rwa [(hf submission).2]
    exact { Buried.refl False s.db.tables with submissions := hkeeps }
  next => exact Buried.refl False _

theorem buried_request (ctx : Context) (request : Request) (uuid4 : UUID) (op : Operation)
    (db : Database) : Buried exact db.tables (serve ctx request uuid4 op db).2.tables := by
  obtain hsame | ⟨tables, ctx', ip, _, hguard, hchange, hafter⟩ := serve_cases ctx request uuid4 op db
  · rw [hsame]
    exact Buried.refl exact db.tables
  · rw [hafter, close_tables]
    exact buried_operation hguard hchange

theorem commit_db {now : Time} {α : Type} {r : Except PyException (StageTables.Store × α)} :
    (s.commit now r).db = s.db := by
  unfold State.commit
  split <;> rfl

/-- The steps that serve a request. -/
def isRequest : Action → Bool
  | .request _ _ _ _ => true
  | _ => false

/-- Every step leaves the retired rows retired, and a request leaves them as they are. -/
theorem buried_step {a : Action} (h : step detect assess s a = some t)
    (hexact : exact → isRequest a = true) :
    Buried exact s.db.tables t.db.tables := by
  cases a with
  | request ctx request uuid4 op =>
    cases h
    exact buried_request ctx request uuid4 op s.db
  | writeRun runId version w =>
    cases h
    refine (buried_write fun run => ?_).of_not fun he => Bool.false_ne_true (hexact he)
    split
    · have hsame := written_sameRow runId version w run
      exact ⟨hsame.id, hsame.deletedAt⟩
    · exact ⟨rfl, rfl⟩
  | cleanup now =>
    cases h
    refine (buried_write fun run => ?_).of_not fun he => Bool.false_ne_true (hexact he)
    have hsame := cleanup_sameRow now run
    exact ⟨hsame.id, hsame.deletedAt⟩
  | updateSubmission submissionId now =>
    cases h
    refine (buried_submissions fun submission => ?_).of_not fun he => Bool.false_ne_true (hexact he)
    split <;> exact ⟨rfl, rfl⟩
  | createRead i runId workerType =>
    simp only [step] at h
    split at h <;> cases h
    exact Buried.refl exact s.db.tables
  | createWrite i req now =>
    simp only [step] at h
    split at h
    · split at h <;> cases h
      · exact Buried.refl exact s.db.tables
      · exact Buried.refl exact s.db.tables
    · cases h
  | markCompleted runId workerType output elapsed now =>
    cases h
    have hmark : Buried False s.db.tables
        (s.mark runId workerType (completed output elapsed) (countCompleted now)).db.tables :=
      buried_mark fun _ => ⟨rfl, rfl⟩
    exact hmark.of_not fun he => Bool.false_ne_true (hexact he)
  | markFailed runId workerType error now =>
    cases h
    have hmark : Buried False s.db.tables
        (s.mark runId workerType (failed error) (countFailed now)).db.tables :=
      buried_mark fun _ => ⟨rfl, rfl⟩
    exact hmark.of_not fun he => Bool.false_ne_true (hexact he)
  | readRun i runId =>
    simp only [step] at h
    split at h <;> cases h
    exact Buried.refl exact s.db.tables
  | crossCheck i parallelResults now =>
    simp only [step] at h
    split at h <;> cases h
    rw [State.wait, commit_db]
    exact Buried.refl exact s.db.tables
  | judge i answers now =>
    simp only [step] at h
    split at h <;> cases h
    rw [State.wait, commit_db]
    exact Buried.refl exact s.db.tables
  | readClaims i runId =>
    cases h
    exact Buried.refl exact s.db.tables
  | flag i now =>
    simp only [step] at h
    split at h <;> cases h
    rw [State.wait, commit_db]
    exact Buried.refl exact s.db.tables
  | stop i =>
    cases h
    exact Buried.refl exact s.db.tables

end Steps

/-- Neither a login nor the user of a token, neither a key nor a row of the organization's own is
found once it is retired. The look-ups of `register_user` and that of a key's owner do not ask
for `deleted_at`, and `revoke_api_key` finds keys that are revoked already. -/
structure NeverFound (before after : Tables) : Prop where
  logins : ∀ user ∈ before.users.rows, Retired user →
    ∀ email, ∀ found ∈ liveUser email after, found.id ≠ user.id
  users : ∀ user ∈ before.users.rows, Retired user → refreshUser user.id after = none
  apiKeys : ∀ apiKey ∈ before.apiKeys.rows, Retired apiKey → liveKey apiKey.keyHash after = none
  deletedKeys : ∀ apiKey ∈ before.apiKeys.rows, apiKey.deletedAt ≠ none →
    ∀ orgId, scopedRow ApiKey apiKey.id orgId after = none
  datasets : ∀ dataset ∈ before.datasets.rows, Retired dataset →
    ∀ orgId, scopedRow Dataset dataset.id orgId after = none
  submissions : ∀ submission ∈ before.submissions.rows, Retired submission →
    ∀ orgId, scopedRow Submission submission.id orgId after = none
  evaluationConfigs : ∀ config ∈ before.evaluationConfigs.rows, Retired config →
    ∀ orgId, scopedRow EvaluationConfig config.id orgId after = none
  evaluationRuns : ∀ run ∈ before.evaluationRuns.rows, Retired run →
    ∀ orgId, scopedRow EvaluationRun run.id orgId after = none

/-- The row that remains is the only one with its key. -/
theorem scopedRow_retired {ρ : Type} [Scoped ρ] [Retirable ρ] (h : Keeps exact ρ before after)
    {row : ρ} (hretired : ∀ row' : ρ, Remains exact row row' → Scoped.deletedAt row' ≠ none)
    (hrow : row ∈ (table before : Table ρ).rows) (hold : Retired row) (orgId : UUID) :
    scopedRow ρ (key row) orgId after = none := by
  rw [Option.eq_none_iff_forall_ne_some]
  intro found hfound
  obtain ⟨hmem, hkey, _, hlive⟩ := scopedRow_some hfound
  obtain ⟨row', hrow', hremains⟩ := h row hrow hold
  have hsame : found = row' := (table after).eq_of_key hmem hrow' (hkey.trans hremains.1.symm)
  exact hretired row' hremains (hsame ▸ hlive)

theorem liveUser_retired (h : Keeps True User before after) {user found : User}
    (hrow : user ∈ before.users.rows) (hold : Retired user) {email : String}
    (hfound : found ∈ liveUser email after) : found.id ≠ user.id := by
  intro hid
  obtain ⟨hmem, hlive⟩ := liveUser_some hfound
  obtain ⟨user', huser', hkey', hretired', _⟩ := h user hrow hold
  have hsame : found = user' := after.users.eq_of_key hmem huser' (hid.trans hkey'.symm)
  exact hretired' (hsame ▸ hlive)

theorem refreshUser_retired (h : Keeps True User before after) {user : User}
    (hrow : user ∈ before.users.rows) (hold : Retired user) : refreshUser user.id after = none := by
  rw [Option.eq_none_iff_forall_ne_some]
  intro found hfound
  have hlive := List.find?_some hfound
  simp only [Bool.and_eq_true, decide_eq_true_eq, Option.isNone_iff_eq_none] at hlive
  obtain ⟨user', huser', hkey', hretired', _⟩ := h user hrow hold
  have hmem : found ∈ after.users.rows := List.mem_of_find?_eq_some hfound
  have hsame : found = user' := after.users.eq_of_key hmem huser' (hlive.1.1.trans hkey'.symm)
  exact hretired' (hsame ▸ hlive.2)

theorem eq_of_indexed {ρ : Type} [Entity ρ] (t : Table ρ) {r r' : ρ} {v : String} (hr : r ∈ t.rows)
    (hr' : r' ∈ t.rows) (hv : indexed r = some v) (hv' : indexed r' = some v) : r = r' := by
  have hfilter := t.filter_indexed (fun row => decide (indexed row = some v)) v (by simp)
  have hmem : r ∈ t.rows.filter fun row => decide (indexed row = some v) :=
    List.mem_filter.2 ⟨hr, by simp [hv]⟩
  have hmem' : r' ∈ t.rows.filter fun row => decide (indexed row = some v) :=
    List.mem_filter.2 ⟨hr', by simp [hv']⟩
  rw [hfilter, Option.mem_toList] at hmem hmem'
  exact Option.mem_unique hmem hmem'

theorem liveKey_retired (h : Keeps True ApiKey before after) {apiKey : ApiKey}
    (hrow : apiKey ∈ before.apiKeys.rows) (hold : Retired apiKey) :
    liveKey apiKey.keyHash after = none := by
  rw [Option.eq_none_iff_forall_ne_some]
  intro found hfound
  have hhash := List.find?_some hfound
  simp only [Bool.and_eq_true, decide_eq_true_eq] at hhash
  obtain ⟨hmem, hrevoked, hlive⟩ := liveKey_some hfound
  obtain ⟨apiKey', hrow', _, hretired', hsame'⟩ := h apiKey hrow hold
  obtain rfl := hsame' trivial
  -- the index on the hash is over all rows, the retired ones too
  obtain rfl := eq_of_indexed after.apiKeys hmem hrow' (congrArg some hhash.1.1) rfl
  obtain hdeleted | hrevoked' := hretired'
  · exact hdeleted hlive
  · rw [hrevoked] at hrevoked'
    cases hrevoked'

theorem neverFound_of_buried (h : Buried exact before after) : NeverFound before after where
  logins _ hrow hold _ _ hfound := liveUser_retired h.users hrow hold hfound
  users _ hrow hold := refreshUser_retired h.users hrow hold
  apiKeys _ hrow hold := liveKey_retired h.apiKeys hrow hold
  deletedKeys _ hrow hold := by
    refine scopedRow_retired h.apiKeys (fun row' hremains => ?_) hrow (.inl hold)
    rwa [hremains.2.2 trivial]
  datasets _ hrow hold := scopedRow_retired h.datasets (fun _ hremains => hremains.2.1) hrow hold
  submissions _ hrow hold :=
    scopedRow_retired h.submissions (fun _ hremains => hremains.2.1) hrow hold
  evaluationConfigs _ hrow hold :=
    scopedRow_retired h.evaluationConfigs (fun _ hremains => hremains.2.1) hrow hold
  evaluationRuns _ hrow hold :=
    scopedRow_retired h.evaluationRuns (fun _ hremains => hremains.2.1) hrow hold

/-- Over every run of requests and pipeline steps the retired rows stay and are not found, and in
a run of requests alone they are the same rows. -/
theorem retired_for_good {detect : String → String → Option Finding} {assess : String → String → ℚ → Risk}
    {ok : State → Action → Prop} {s t : State} (h : Exec (step detect assess) ok s t) :
    Buried (∀ u a, ok u a → isRequest a = true) s.db.tables t.db.tables ∧
      NeverFound s.db.tables t.db.tables := by
  have hburied : Buried (∀ u a, ok u a → isRequest a = true) s.db.tables t.db.tables := by
    induction h with
    | refl => exact Buried.refl _ s.db.tables
    | tail _ hok hst ih => exact ih.trans (buried_step hst fun hrequests => hrequests _ _ hok)
  exact ⟨hburied, neverFound_of_buried hburied⟩

section Sample

/-- The founder has handed in a submission and taken it back. -/
def takenBack : Database :=
  (serve sampleContext {} 3 (.deleteSubmission 1 1 1)
    (serve sampleContext {} 2 (.createSubmission 1 1 { startupName := "Startup One" }) registered).2).2

/-- An update comes for the submission, and then the last statement of a worker. -/
def tooLate : List Action :=
  [.request sampleContext {} 4 (.updateSubmission 1 1 1 {}), .updateSubmission 1 5]

def afterwards : State :=
  (runList (step (fun _ _ => none) fun _ _ _ => ⟨0, []⟩) (start takenBack) tooLate).get rfl

theorem takenBack_for_good :
    Buried (∀ (u : State) (a : Action), free u a → isRequest a = true) takenBack.tables
        afterwards.db.tables ∧
      NeverFound takenBack.tables afterwards.db.tables :=
  retired_for_good (exec_get (step (fun _ _ => none) fun _ _ _ => ⟨0, []⟩) (start takenBack) tooLate rfl)

example : takenBack.tables.submissions.rows.map (fun submission => submission.deletedAt.isSome) = [true] := by
  decide +kernel

end Sample

end EvalEngine.SoftDeletion
