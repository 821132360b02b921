import EvalEngine.WebhookNotification
import EvalEngine.WebhookValidation

namespace EvalEngine.StoredWebhooks

open EvalEngine.JsonValues EvalEngine.Exceptions EvalEngine.RunModel EvalEngine.ConstrainedTables
open EvalEngine.ServiceTables EvalEngine.AuditService EvalEngine.ServiceContracts
open EvalEngine.AuthContracts EvalEngine.EvaluationService EvalEngine.ServiceRequests
open EvalEngine.Transitions EvalEngine.PipelineDatabase EvalEngine.KeptRuns
open EvalEngine.WebhookValidation
open EvalEngine.WebhookNotification (SameSnapshot sameSnapshot_lasting)
open EvalEngine.TenantWrites (serve_cases scopedRow_of_confirmGuard submission_of_triggerGuard)
open EvalEngine.AuditCommit (scopedRow_of_guard run_of_guard liveUser_of_guard)
open EvalEngine.CrossCheck (Finding)
open EvalEngine.Fabrication (Risk)
open EvalEngine.TriggerEvaluation (snapshotOf)
open Stored

/-- What an operation may do to the configurations. -/
inductive ConfigChange (op : Operation) (before : List EvaluationConfig) :
    List EvaluationConfig → Prop
  | same : ConfigChange op before before
  | created {orgId userId : UUID} {body : EvaluationConfigCreate} (id : UUID)
      (hop : op = .createEvaluationConfig orgId userId body) :
      ConfigChange op before (before ++ [newConfig id orgId userId body])
  | updated {configId orgId userId : UUID} {updates : EvaluationConfigUpdate}
      {config : EvaluationConfig} (hop : op = .updateEvaluationConfig configId orgId userId updates)
      (hold : config ∈ before) : ConfigChange op before (Table.replaced (updates.apply config) before)
  | deleted {config : EvaluationConfig} (now : Time) (hold : config ∈ before) :
      ConfigChange op before (Table.replaced (softDeleteConfig now config) before)

section Operations

variable {before after : Tables} {ctx : Context} {ip : Option String}

theorem configChange_same {op : Operation} (h : after.evaluationConfigs = before.evaluationConfigs) :
    ConfigChange op before.evaluationConfigs.rows after.evaluationConfigs.rows := by
  rw [h]
  exact .same

theorem rows_config_updated {config : EvaluationConfig} (h : Updated config before after) :
    after.evaluationConfigs.rows = Table.replaced config before.evaluationConfigs.rows := by
  obtain ⟨t, rfl, hrows⟩ := h
  exact hrows

theorem configs_operation {op : Operation} (hguard : (op.codeContract ctx ip before).guard = none)
    (h : (op.codeContract ctx ip before).change after) :
    ConfigChange op before.evaluationConfigs.rows after.evaluationConfigs.rows := by
  cases op with
  | registerUser email password fullName organizationName =>
    obtain ⟨hashedPassword, mid, _, horg, huser⟩ := h
    have hmid : mid.evaluationConfigs = before.evaluationConfigs :=
      untouched_inserted (fun _ _ => rfl) horg
    exact configChange_same ((untouched_inserted (fun _ _ => rfl) huser).trans hmid)
  | authenticateUser email password =>
    obtain ⟨user, huser⟩ := Option.isSome_iff_exists.1 (liveUser_of_guard hguard)
    exact configChange_same (untouched_updated (fun _ _ => rfl) (h user huser))
  | refreshAccessToken refreshTokenStr =>
    obtain rfl : after = before := h
    exact .same
  | authenticateApiKey rawKey =>
    cases hkey : AuthService.liveKey (ctx.sha256 rawKey) before with
    | none =>
      simp only [Operation.codeContract, keyContract, keyGuard, hkey] at hguard
      cases hguard
    | some apiKey => exact configChange_same (untouched_updated (fun _ _ => rfl) (h apiKey hkey))
  | createApiKeyForUser userId orgId name scopes expiresInDays =>
    exact configChange_same (untouched_inserted (fun _ _ => rfl) h)
  | revokeApiKey keyId orgId userId =>
    exact configChange_same (untouched_change (fun _ _ => rfl) hguard h)
  | initiateDatasetUpload orgId userId name description sizeBytes metadata =>
    exact configChange_same (untouched_inserted (fun _ _ => rfl) h)
  | confirmDatasetUpload datasetId orgId checksum sampleCount =>
    obtain ⟨dataset, hrow⟩ := Option.isSome_iff_exists.1 (scopedRow_of_confirmGuard hguard)
    exact configChange_same (untouched_updated (fun _ _ => rfl) (h dataset hrow))
  | deleteDataset datasetId orgId userId =>
    exact configChange_same (untouched_change (fun _ _ => rfl) hguard h)
  | createSubmission orgId userId body =>
    exact configChange_same (untouched_inserted (fun _ _ => rfl) h)
  | updateSubmission submissionId orgId userId updates =>
    exact configChange_same (untouched_change (fun _ _ => rfl) hguard h)
  | deleteSubmission submissionId orgId userId =>
    exact configChange_same (untouched_change (fun _ _ => rfl) hguard h)
  | triggerEvaluation submissionId orgId userId configId runMetadata =>
    obtain ⟨submission, hrow⟩ := Option.isSome_iff_exists.1 (submission_of_triggerGuard hguard)
    obtain ⟨taskId, mid, mid', _, hsubmission, hrun, hdispatched⟩ := h submission hrow
    have hmid : mid.evaluationConfigs = before.evaluationConfigs :=
      untouched_updated (fun _ _ => rfl) hsubmission
    have hmid' : mid'.evaluationConfigs = mid.evaluationConfigs :=
      untouched_inserted (fun _ _ => rfl) hrun
    exact configChange_same
      ((untouched_updated (fun _ _ => rfl) hdispatched).trans (hmid'.trans hmid))
  | createEvaluationConfig orgId userId body =>
    obtain ⟨t, rfl, hrows⟩ := h
    have hafter : (put t before).evaluationConfigs.rows = _ := hrows
    rw [hafter]
    exact .created _ rfl
  | updateEvaluationConfig configId orgId userId updates =>
    obtain ⟨config, hrow⟩ := Option.isSome_iff_exists.1 (scopedRow_of_guard hguard)
    rw [rows_config_updated (h config hrow)]
    exact .updated rfl (scopedRow_some hrow).1
  | deleteEvaluationConfig configId orgId userId =>
    obtain ⟨config, hrow⟩ := Option.isSome_iff_exists.1 (scopedRow_of_guard hguard)
    rw [rows_config_updated (h config hrow)]
    exact .deleted _ (scopedRow_some hrow).1
  | cancelEvaluationRun runId orgId userId =>
    obtain ⟨run, hrow⟩ := Option.isSome_iff_exists.1 (run_of_guard hguard)
    exact configChange_same (untouched_updated (fun _ _ => rfl) (h run hrow))
  | createCustomMetric orgId userId body =>
    exact configChange_same (untouched_inserted (fun _ _ => rfl) h)
  | seedBuiltinMetrics =>
    obtain ⟨t, rfl, _⟩ := h
    exact .same

theorem configs_serve (ctx : Context) (request : Request) (uuid4 : UUID) (op : Operation)
    (db : Database) : ConfigChange op db.tables.evaluationConfigs.rows
      (serve ctx request uuid4 op db).2.tables.evaluationConfigs.rows := by
  obtain hsame | ⟨tables, ctx', ip, _, hguard, hchange, hafter⟩ := serve_cases ctx request uuid4 op db
  · rw [hsame]
    exact .same
  · rw [hafter, Contract.close_tables]
    exact configs_operation hguard hchange

end Operations

section Steps

variable {detect : String → String → Option Finding} {assess : String → String → ℚ → Risk}
  {s t : State}

theorem write_configs {ρ : Type} [Stored ρ] (rows : List ρ)
    (hput : ∀ (t : Table ρ) (tables : Tables),
      (put t tables).evaluationConfigs = tables.evaluationConfigs) :
    (s.write rows).db.tables.evaluationConfigs = s.db.tables.evaluationConfigs := by
  unfold State.write
  split
  · exact hput _ _
  · rfl

theorem mark_configs (runId : UUID) (workerType : String) (f : WorkerResultRow → WorkerResultRow)
    (g : EvaluationRun → EvaluationRun) :
    (s.mark runId workerType f g).db.tables.evaluationConfigs = s.db.tables.evaluationConfigs := by
  unfold State.mark
  split <;> rfl

theorem commit_configs {α : Type} {now : Time}
    (r : Except PyException (StageTables.Store × α)) :
    (s.commit now r).db.tables.evaluationConfigs = s.db.tables.evaluationConfigs := by
  unfold State.commit
  split <;> rfl

/-- The pipeline leaves the configurations alone. -/
theorem configs_step {a : Action} (h : step detect assess s a = some t) :
    (∃ ctx request uuid4 op, a = .request ctx request uuid4 op ∧
      ConfigChange op s.db.tables.evaluationConfigs.rows t.db.tables.evaluationConfigs.rows) ∨
    t.db.tables.evaluationConfigs = s.db.tables.evaluationConfigs := by
  cases a with
  | request ctx request uuid4 op =>
    cases h
    exact .inl ⟨ctx, request, uuid4, op, rfl, configs_serve ctx request uuid4 op s.db⟩
  | writeRun runId version w =>
    cases h
    exact .inr (write_configs _ fun _ _ => rfl)
  | cleanup now =>
    cases h
    exact .inr (write_configs _ fun _ _ => rfl)
  | updateSubmission submissionId now =>
    cases h
    exact .inr (write_configs _ fun _ _ => rfl)
  | createRead i runId workerType =>
    simp only [step] at h
    split at h <;> cases h
    exact .inr rfl
  | createWrite i req now =>
    simp only [step] at h
    split at h
    · split at h <;> cases h <;> exact .inr rfl
    · cases h
  | markCompleted runId workerType output elapsed now =>
    cases h
    exact .inr (mark_configs _ _ _ _)
  | markFailed runId workerType error now =>
    cases h
    exact .inr (mark_configs _ _ _ _)
  | readRun i runId =>
    simp only [step] at h
    split at h <;> cases h
    exact .inr rfl
  | crossCheck i parallelResults now =>
    simp only [step] at h
    split at h <;> cases h
    exact .inr (commit_configs _)
  | judge i answers now =>
    simp only [step] at h
    split at h <;> cases h
    exact .inr (commit_configs _)
  | readClaims i runId =>
    cases h
    exact .inr rfl
  | flag i now =>
    simp only [step] at h
    split at h <;> cases h
    exact .inr (commit_configs _)
  | stop i =>
    cases h
    exact .inr rfl

end Steps

section Runs

variable (valid : String → Bool)

/-- What a finalizer would hand to `deliver_webhook` is a valid URL. -/
def TargetValid (d : Dict) : Prop :=
  ∀ target ∈ (find "webhook_url" d).filter Json.truthy,
    ∃ url, target = .str url ∧ valid url = true

def ConfigValid (config : EvaluationConfig) : Prop :=
  (∀ url ∈ config.webhookUrl, valid url = true) ∧ TargetValid valid config.pipelineConfig

/-- Every stored webhook URL is valid, and every URL that may be called. -/
structure UrlsValid (s : State) : Prop where
  stored : ∀ config ∈ s.db.tables.evaluationConfigs.rows, ConfigValid valid config
  called : ∀ run ∈ s.runs.rows, TargetValid valid run.configSnapshot

/-- The configurations that a request brings are valid. -/
def BringsValid : Operation → Prop
  | .createEvaluationConfig _ _ body =>
    (∀ url ∈ body.webhookUrl, valid url = true) ∧ ∀ d ∈ body.pipelineConfig, TargetValid valid d
  | .updateEvaluationConfig _ _ _ updates =>
    (∀ url ∈ updates.webhookUrl, valid url = true) ∧
      ∀ d ∈ updates.pipelineConfig, TargetValid valid d
  | _ => True

def RequestValid (_ : State) : Action → Prop
  | .request _ _ _ op => BringsValid valid op
  | _ => True

variable {valid}

theorem targetValid_nil : TargetValid valid [] := fun _ h => by cases h

theorem configValid_newConfig {id orgId userId : UUID} {body : EvaluationConfigCreate}
    (h : BringsValid valid (.createEvaluationConfig orgId userId body)) :
    ConfigValid valid (newConfig id orgId userId body) := by
  obtain ⟨hurl, hpipeline⟩ := h
  refine ⟨hurl, ?_⟩
  cases hbody : body.pipelineConfig with
  | none => simpa [newConfig, hbody] using targetValid_nil
  | some d => simpa [newConfig, hbody] using hpipeline d hbody

theorem configValid_apply {configId orgId userId : UUID} {updates : EvaluationConfigUpdate}
    {config : EvaluationConfig}
    (h : BringsValid valid (.updateEvaluationConfig configId orgId userId updates))
    (hold : ConfigValid valid config) : ConfigValid valid (updates.apply config) := by
  obtain ⟨hurl, hpipeline⟩ := h
  constructor
  · intro url hmem
    cases hupdates : updates.webhookUrl with
    | none =>
      have hkept : url ∈ config.webhookUrl := by
        simpa [EvaluationConfigUpdate.apply, hupdates] using hmem
      exact hold.1 url hkept
    | some new =>
      have hnew : url ∈ updates.webhookUrl := by
        simpa [EvaluationConfigUpdate.apply, hupdates] using hmem
      exact hurl url hnew
  · cases hupdates : updates.pipelineConfig with
    | none => simpa [EvaluationConfigUpdate.apply, hupdates] using hold.2
    | some d => simpa [EvaluationConfigUpdate.apply, hupdates] using hpipeline d hupdates

theorem configValid_replaced {rows : List EvaluationConfig} {config : EvaluationConfig}
    (hrows : ∀ config ∈ rows, ConfigValid valid config) (hconfig : ConfigValid valid config) :
    ∀ row ∈ Table.replaced config rows, ConfigValid valid row := by
  intro row hrow
  obtain ⟨old, hold, rfl⟩ := List.mem_map.1 hrow
  split
  · exact hconfig
  · exact hrows old hold

theorem configValid_change {op : Operation} {before after : List EvaluationConfig}
    (h : ConfigChange op before after) (hop : BringsValid valid op)
    (hbefore : ∀ config ∈ before, ConfigValid valid config) :
    ∀ config ∈ after, ConfigValid valid config := by
  cases h with
  | same => exact hbefore
  | created id hop' =>
    subst hop'
    intro config hconfig
    cases List.mem_append.1 hconfig with
    | inl hold => exact hbefore config hold
    | inr hnew =>
      rw [List.mem_singleton.1 hnew]
      exact configValid_newConfig hop
  | updated hop' hold =>
    subst hop'
    exact configValid_replaced hbefore (configValid_apply hop (hbefore _ hold))
  | @deleted config now hold =>
    have hdeleted : ConfigValid valid (softDeleteConfig now config) := hbefore config hold
    exact configValid_replaced hbefore hdeleted

/-- The snapshot that a trigger takes is empty or that of a stored configuration. -/
theorem targetValid_snapshotOf {tables : Tables} {configId : Option UUID} {orgId : UUID}
    (h : ∀ config ∈ tables.evaluationConfigs.rows, ConfigValid valid config) :
    TargetValid valid ((snapshotOf configId orgId tables).getD []) := by
  cases configId with
  | none => exact targetValid_nil
  | some configId =>
    cases hrow : scopedRow EvaluationConfig configId orgId tables with
    | none => simpa [snapshotOf, hrow] using targetValid_nil
    | some config => simpa [snapshotOf, hrow] using (h config (scopedRow_some hrow).1).2

variable {detect : String → String → Option Finding} {assess : String → String → ℚ → Risk}
  {s t : State}

/-- The step lemma. -/
theorem urlsValid_step {a : Action} (hs : UrlsValid valid s) (ha : RequestValid valid s a)
    (h : step detect assess s a = some t) : UrlsValid valid t := by
  constructor
  · obtain ⟨ctx, request, uuid4, op, rfl, hchange⟩ | hsame := configs_step h
    · exact configValid_change hchange ha hs.stored
    · rw [hsame]
      exact hs.stored
  · apply (grown_step sameSnapshot_lasting h).forall ?_ ?_ hs.called
    · rintro run ⟨_, _, _, _, _, _, _, _, _, _, _, _, _, hsame⟩
      rw [hsame.configSnapshot]
      exact targetValid_snapshotOf hs.stored
    · intro run run' hsame hrun
      rw [hsame.configSnapshot]
      exact hrun

theorem urlsValid_exec (hs : UrlsValid valid s)
    (h : Exec (step detect assess) (RequestValid valid) s t) : UrlsValid valid t :=
  h.invariant hs fun _ _ _ => urlsValid_step

end Runs

/-- Every stored URL is valid as long as every request brings valid ones, and
the validator is sound exactly on the URLs whose host is covered. -/
theorem webhook_targets (urlparse : String → Option ParseResult) :
    (∀ (detect : String → String → Option Finding) (assess : String → String → ℚ → Risk)
        (s t : State), UrlsValid (validateWebhookUrl urlparse) s →
        Exec (step detect assess) (RequestValid (validateWebhookUrl urlparse)) s t →
        UrlsValid (validateWebhookUrl urlparse) t) ∧
      ∀ url, Sound urlparse url ↔ ∀ parsed ∈ urlparse url, Covered parsed :=
  ⟨fun _ _ _ _ => urlsValid_exec, sound_iff urlparse⟩

/-- What the schemas of the two requests check. -/
def accepted : Operation → Bool
  | .createEvaluationConfig _ _ body =>
    decide (1 ≤ body.name.length ∧ body.name.length ≤ 255) &&
      body.webhookUrl.all (fun url => decide (url.length ≤ 2048))
  | _ => true

section Sample

/-- `urlparse` on `scheme://netloc/path`, with its reading of the host. -/
def simpleUrlparse (url : String) : Option ParseResult :=
  let scheme := url.toList.takeWhile (· ≠ ':')
  let netloc := (url.toList.drop (scheme.length + 3)).takeWhile (fun c => c ≠ '/' ∧ c ≠ '?')
  let hostname := match netloc with
    | '[' :: rest => rest.takeWhile (· ≠ ']')
    | host => host.takeWhile (· ≠ ':')
  some
    { scheme := String.ofList scheme
      netloc := String.ofList netloc
      hostname := if hostname = [] then none else some (String.ofList (hostname.map Char.toLower)) }

def metadataUrl : String := "http://169.254.169.254/latest/meta-data/"

def metadataRequest : Action :=
  .request sampleContext {} 2
    (.createEvaluationConfig 1 1 { name := "SSRF Test", webhookUrl := some metadataUrl })

def publicRequest : Action :=
  .request sampleContext {} 2
    (.createEvaluationConfig 1 1
      { name := "Screening", webhookUrl := some "https://api.example.com/webhook" })

theorem webhook_targets_public :
    UrlsValid (validateWebhookUrl simpleUrlparse)
      ((step WebhookNotification.found WebhookNotification.harmless (start registered)
        publicRequest).get rfl) := by
  apply (webhook_targets simpleUrlparse).1 WebhookNotification.found WebhookNotification.harmless
    (start registered)
  · constructor
    · intro config hconfig
      exact absurd hconfig List.not_mem_nil
    · intro run hrun
      exact absurd hrun List.not_mem_nil
  · apply Exec.single ?_ (Option.some_get _).symm
    constructor
    · intro url hurl
      cases hurl
      decide +kernel
    · intro d hd
      cases hd

/-- No request is refused for its webhook URL, and the validator accepts hosts
such as `[::1]`. -/
theorem webhook_targets_internal :
    (¬ ∀ (detect : String → String → Option Finding) (assess : String → String → ℚ → Risk)
      (s t : State), UrlsValid (validateWebhookUrl simpleUrlparse) s →
      Exec (step detect assess)
        (fun _ a => ∀ ctx request uuid4 op, a = .request ctx request uuid4 op →
          accepted op = true) s t →
      UrlsValid (validateWebhookUrl simpleUrlparse) t) ∧
    ¬ ∀ url, Sound simpleUrlparse url := by
  constructor
  · intro h
    have hvalid := h WebhookNotification.found WebhookNotification.harmless (start registered)
      ((step WebhookNotification.found WebhookNotification.harmless (start registered)
        metadataRequest).get rfl)
      ⟨fun _ hconfig => absurd hconfig List.not_mem_nil, fun _ hrun => absurd hrun List.not_mem_nil⟩
      (Exec.single (by rintro _ _ _ _ ⟨⟩; decide +kernel) (Option.some_get _).symm)
    have hstored := (hvalid.stored _ (List.mem_singleton_self _)).1 metadataUrl rfl
    revert hstored
    decide +kernel
  · intro h
    have hcovered := (sound_iff simpleUrlparse "https://[::1]/hook").1 (h _) _ rfl
    have hloop := hcovered (by decide +kernel) (by decide +kernel) _ rfl (by decide +kernel)
    revert hloop
    decide +kernel

end Sample

end EvalEngine.StoredWebhooks
