import EvalEngine.Lineage
import EvalEngine.TenantWrites

namespace EvalEngine.KeptRuns

open EvalEngine.Exceptions EvalEngine.RunModel EvalEngine.ConstrainedTables
open EvalEngine.ServiceTables EvalEngine.AuditService EvalEngine.ServiceContracts
open EvalEngine.RowOperations EvalEngine.AuthContracts EvalEngine.ServiceRequests
open EvalEngine.SubmissionService (dispatched)
open EvalEngine.EvaluationService (cancelled)
open EvalEngine.TenantWrites (serve_cases scopedRow_of_confirmGuard submission_of_triggerGuard)
open EvalEngine.AuditCommit (scopedRow_of_guard run_of_guard liveUser_of_guard)
open EvalEngine.LostUpdates (countCompleted countFailed)
open EvalEngine.PipelineDispatch (written)
open EvalEngine.RunWriters (Writer cleanupStaleRuns)
open EvalEngine.PipelineDatabase EvalEngine.Lineage
open EvalEngine.CrossCheck (Finding)
open EvalEngine.Fabrication (Risk)
open Stored

variable {R : EvaluationRun → EvaluationRun → Prop} {P : EvaluationRun → Prop}

/-- A relation of two versions of a run that every write of a run respects. -/
structure Lasting (R : EvaluationRun → EvaluationRun → Prop) : Prop where
  refl : ∀ run, R run run
  trans : ∀ {a b c}, R a b → R b c → R a c
  id : ∀ {a b}, R a b → b.id = a.id
  dispatched : ∀ now taskId run, R run (dispatched now taskId run)
  cancelled : ∀ now run, R run (cancelled now run)
  written : ∀ runId version writer run, R run (written runId version writer run)
  cleanup : ∀ now run, R run (cleanupStaleRuns now run)
  countCompleted : ∀ now run, R run (countCompleted now run)
  countFailed : ∀ now run, R run (countFailed now run)

/-- A version of the run that the operation adds, if it is a trigger. -/
def StartedBy (R : EvaluationRun → EvaluationRun → Prop) (before : Tables) (op : Operation)
    (run : EvaluationRun) : Prop :=
  ∃ ctx submissionId orgId userId configId runMetadata,
    op = .triggerEvaluation submissionId orgId userId configId runMetadata ∧
    TriggerEvaluation.triggerGuard submissionId orgId configId before = none ∧
    R (TriggerEvaluation.addedRun ctx submissionId orgId userId configId runMetadata before) run

theorem grown_ite (hR : Lasting R) {runs : List EvaluationRun} {f : EvaluationRun → EvaluationRun}
    (runId : UUID) (hf : ∀ run, R run (f run)) :
    Grown R P runs (runs.map fun run => if run.id = runId then f run else run) := by
  apply grown_map
  intro run _
  split
  · exact hf run
  · exact hR.refl run

section Operations

variable {ρ : Type} [Stored ρ] {row : ρ} {before after : Tables}

/-- A write of another table than the one that `get` reads. -/
theorem untouched_inserted {β : Type} {get : Tables → β}
    (hput : ∀ (t : Table ρ) (tables : Tables), get (put t tables) = get tables)
    (h : Inserted row before after) : get after = get before := by
  obtain ⟨t, rfl, _⟩ := h
  exact hput t before

theorem untouched_updated {β : Type} {get : Tables → β}
    (hput : ∀ (t : Table ρ) (tables : Tables), get (put t tables) = get tables)
    (h : Updated row before after) : get after = get before := by
  obtain ⟨t, rfl, _⟩ := h
  exact hput t before

theorem untouched_change {β : Type} {get : Tables → β} {ρ : Type} [Scoped ρ]
    {resource action : String} {id orgId : UUID} {f : ρ → ρ} {report : ρ → Report}
    (hput : ∀ (t : Table ρ) (tables : Tables), get (put t tables) = get tables)
    (hguard : (changeContract resource action id orgId f report before).guard = none)
    (h : (changeContract resource action id orgId f report before).change after) :
    get after = get before := by
  obtain ⟨row, hrow⟩ := Option.isSome_iff_exists.1 (scopedRow_of_guard hguard)
  exact untouched_updated hput (h row hrow)

theorem grown_same (hR : Lasting R) (h : after.evaluationRuns = before.evaluationRuns) :
    Grown R P before.evaluationRuns.rows after.evaluationRuns.rows := by
  rw [h]
  exact Grown.refl hR.refl _

theorem grown_run_inserted (hR : Lasting R) {run : EvaluationRun} (h : Inserted run before after)
    (hrun : P run) : Grown R P before.evaluationRuns.rows after.evaluationRuns.rows ∧
      run ∈ after.evaluationRuns.rows := by
  obtain ⟨t, rfl, hrows⟩ := h
  have hafter : (put t before).evaluationRuns.rows = before.evaluationRuns.rows ++ [run] := hrows
  rw [hafter]
  constructor
  · apply grown_append hR.refl
    intro added hadded
    rwa [List.mem_singleton.1 hadded]
  · exact List.mem_append_right _ (List.mem_singleton_self run)

theorem grown_run_updated (hR : Lasting R) {old run : EvaluationRun} (h : Updated run before after)
    (hold : old ∈ before.evaluationRuns.rows) (hsame : R old run) :
    Grown R P before.evaluationRuns.rows after.evaluationRuns.rows := by
  obtain ⟨t, rfl, hrows⟩ := h
  have hafter : (put t before).evaluationRuns.rows =
      Table.replaced run before.evaluationRuns.rows := hrows
  rw [hafter]
  apply grown_map
  intro r hr
  split
  next hkey =>
    have heq : r = old := before.evaluationRuns.eq_of_key hr hold (hkey.trans (hR.id hsame))
    rw [heq]
    exact hsame
  next => exact hR.refl r

variable {ctx : Context} {ip : Option String}

theorem grown_trigger (hR : Lasting R) {submissionId orgId userId : UUID} {configId : Option UUID}
    {runMetadata : Option JsonValues.Dict}
    (hguard : TriggerEvaluation.triggerGuard submissionId orgId configId before = none)
    (h : (TriggerEvaluation.triggerContract ctx submissionId orgId userId configId runMetadata ip
      before).change after) :
    Grown R (R (TriggerEvaluation.addedRun ctx submissionId orgId userId configId runMetadata before))
      before.evaluationRuns.rows after.evaluationRuns.rows := by
  obtain ⟨submission, hrow⟩ := Option.isSome_iff_exists.1 (submission_of_triggerGuard hguard)
  obtain ⟨taskId, mid, mid', _, hsubmission, hrun, hdispatched⟩ := h submission hrow
  have hmid : mid.evaluationRuns = before.evaluationRuns := untouched_updated (fun _ _ => rfl) hsubmission
  obtain ⟨hadded, hmem⟩ := grown_run_inserted hR hrun (hR.refl _)
  rw [hmid] at hadded
  exact hadded.trans hR.trans hR.trans
    (grown_run_updated hR hdispatched hmem (hR.dispatched _ _ _))

theorem grown_operation (hR : Lasting R) {op : Operation}
    (hguard : (op.codeContract ctx ip before).guard = none)
    (h : (op.codeContract ctx ip before).change after) :
    Grown R (StartedBy R before op) before.evaluationRuns.rows after.evaluationRuns.rows := by
  cases op with
  | registerUser email password fullName organizationName =>
    obtain ⟨hashedPassword, mid, _, horg, huser⟩ := h
    have hmid : mid.evaluationRuns = before.evaluationRuns := untouched_inserted (fun _ _ => rfl) horg
    exact grown_same hR ((untouched_inserted (fun _ _ => rfl) huser).trans hmid)
  | authenticateUser email password =>
    obtain ⟨user, huser⟩ := Option.isSome_iff_exists.1 (liveUser_of_guard hguard)
    exact grown_same hR (untouched_updated (fun _ _ => rfl) (h user huser))
  | refreshAccessToken refreshTokenStr =>
    obtain rfl : after = before := h
    exact grown_same hR rfl
  | authenticateApiKey rawKey =>
    cases hkey : AuthService.liveKey (ctx.sha256 rawKey) before with
    | none =>
      simp only [Operation.codeContract, keyContract, keyGuard, hkey] at hguard
      cases hguard
    | some apiKey => exact grown_same hR (untouched_updated (fun _ _ => rfl) (h apiKey hkey))
  | createApiKeyForUser userId orgId name scopes expiresInDays =>
    exact grown_same hR (untouched_inserted (fun _ _ => rfl) h)
  | revokeApiKey keyId orgId userId => exact grown_same hR (untouched_change (fun _ _ => rfl) hguard h)
  | initiateDatasetUpload orgId userId name description sizeBytes metadata =>
    exact grown_same hR (untouched_inserted (fun _ _ => rfl) h)
  | confirmDatasetUpload datasetId orgId checksum sampleCount =>
    obtain ⟨dataset, hrow⟩ := Option.isSome_iff_exists.1 (scopedRow_of_confirmGuard hguard)
    exact grown_same hR (untouched_updated (fun _ _ => rfl) (h dataset hrow))
  | deleteDataset datasetId orgId userId => exact grown_same hR (untouched_change (fun _ _ => rfl) hguard h)
  | createSubmission orgId userId body => exact grown_same hR (untouched_inserted (fun _ _ => rfl) h)
  | updateSubmission submissionId orgId userId updates =>
    exact grown_same hR (untouched_change (fun _ _ => rfl) hguard h)
  | deleteSubmission submissionId orgId userId =>
    exact grown_same hR (untouched_change (fun _ _ => rfl) hguard h)
  | triggerEvaluation submissionId orgId userId configId runMetadata =>
    exact (grown_trigger hR hguard h).mono fun run hrun =>
      ⟨ctx, submissionId, orgId, userId, configId, runMetadata, rfl, hguard, hrun⟩
  | createEvaluationConfig orgId userId body => exact grown_same hR (untouched_inserted (fun _ _ => rfl) h)
  | updateEvaluationConfig configId orgId userId updates =>
    exact grown_same hR (untouched_change (fun _ _ => rfl) hguard h)
  | deleteEvaluationConfig configId orgId userId =>
    exact grown_same hR (untouched_change (fun _ _ => rfl) hguard h)
  | cancelEvaluationRun runId orgId userId =>
    obtain ⟨run, hrow⟩ := Option.isSome_iff_exists.1 (run_of_guard hguard)
    exact grown_run_updated hR (h run hrow) (scopedRow_some hrow).1 (hR.cancelled _ _)
  | createCustomMetric orgId userId body => exact grown_same hR (untouched_inserted (fun _ _ => rfl) h)
  | seedBuiltinMetrics =>
    obtain ⟨t, rfl, _⟩ := h
    exact grown_same hR rfl

end Operations

theorem grown_serve (hR : Lasting R) (ctx : Context) (request : Request) (uuid4 : UUID)
    (op : Operation) (db : Database) :
    Grown R (StartedBy R db.tables op) db.tables.evaluationRuns.rows
      (serve ctx request uuid4 op db).2.tables.evaluationRuns.rows := by
  obtain hsame | ⟨tables, ctx', ip, _, hguard, hchange, hafter⟩ := serve_cases ctx request uuid4 op db
  · rw [hsame]
    exact Grown.refl hR.refl _
  · rw [hafter, Contract.close_tables]
    exact grown_operation hR hguard hchange

section Steps

variable {detect : String → String → Option Finding} {assess : String → String → ℚ → Risk}
  {s t : State}

theorem grown_write (hR : Lasting R) {ρ : Type} [Stored ρ] {rows : List ρ}
    (h : ∀ t : Table ρ, t.rows = rows → Grown R P s.runs.rows (s.put t).runs.rows) :
    Grown R P s.runs.rows (s.write rows).runs.rows := by
  unfold State.write
  cases hwrite : Table.write rows with
  | none => exact Grown.refl hR.refl _
  | some t => exact h t (Table.write_some hwrite)

theorem grown_write_runs (hR : Lasting R) {rows : List EvaluationRun}
    (h : Grown R P s.runs.rows rows) : Grown R P s.runs.rows (s.write rows).runs.rows := by
  apply grown_write hR
  intro t ht
  have hput : (s.put t).runs.rows = t.rows := rfl
  rwa [hput, ht]

theorem grown_mark (hR : Lasting R) {runId : UUID} {workerType : String}
    {f : WorkerResultRow → WorkerResultRow} {g : EvaluationRun → EvaluationRun}
    (hg : ∀ run, R run (g run)) :
    Grown R P s.runs.rows (s.mark runId workerType f g).runs.rows := by
  unfold State.mark
  split
  next workers runs hworkers hruns =>
    change Grown R P s.runs.rows runs.rows
    rw [Table.write_some hruns]
    exact grown_ite hR runId hg
  next => exact Grown.refl hR.refl _

theorem commit_runs {α : Type} {now : Time} (r : Except PyException (StageTables.Store × α)) :
    (s.commit now r).runs = s.runs := by
  unfold State.commit
  split <;> rfl

/-- A run that a step adds is that of a trigger request. -/
def Starts (R : EvaluationRun → EvaluationRun → Prop) (s : State) (a : Action)
    (run : EvaluationRun) : Prop :=
  ∃ ctx request uuid4 op, a = .request ctx request uuid4 op ∧ StartedBy R s.db.tables op run

/-- The step lemma: whatever is done, the runs are kept, and only a trigger
request adds one. -/
theorem grown_step (hR : Lasting R) {a : Action} (h : step detect assess s a = some t) :
    Grown R (Starts R s a) s.runs.rows t.runs.rows := by
  cases a with
  | request ctx request uuid4 op =>
    cases h
    exact (grown_serve hR ctx request uuid4 op s.db).mono fun run hrun =>
      ⟨ctx, request, uuid4, op, rfl, hrun⟩
  | writeRun runId version w =>
    cases h
    exact grown_write_runs hR (grown_ite hR runId (hR.written runId version w))
  | cleanup now =>
    cases h
    exact grown_write_runs hR (grown_map fun run _ => hR.cleanup now run)
  | updateSubmission submissionId now =>
    cases h
    apply grown_write hR
    intro t _
    exact Grown.refl hR.refl _
  | createRead i runId workerType =>
    simp only [step] at h
    split at h <;> cases h
    exact Grown.refl hR.refl _
  | createWrite i req now =>
    simp only [step] at h
    split at h
    · split at h <;> cases h <;> exact Grown.refl hR.refl _
    · cases h
  | markCompleted runId workerType output elapsed now =>
    cases h
    exact grown_mark hR (hR.countCompleted now)
  | markFailed runId workerType error now =>
    cases h
    exact grown_mark hR (hR.countFailed now)
  | readRun i runId =>
    simp only [step] at h
    split at h <;> cases h
    exact Grown.refl hR.refl _
  | crossCheck i parallelResults now =>
    simp only [step] at h
    split at h <;> cases h
    change Grown R _ s.runs.rows (s.commit now _).runs.rows
    rw [commit_runs]
    exact Grown.refl hR.refl _
  | judge i answers now =>
    simp only [step] at h
    split at h <;> cases h
    change Grown R _ s.runs.rows (s.commit now _).runs.rows
    rw [commit_runs]
    exact Grown.refl hR.refl _
  | readClaims i runId =>
    cases h
    exact Grown.refl hR.refl _
  | flag i now =>
    simp only [step] at h
    split at h <;> cases h
    change Grown R _ s.runs.rows (s.commit now _).runs.rows
    rw [commit_runs]
    exact Grown.refl hR.refl _
  | stop i =>
    cases h
    exact Grown.refl hR.refl _

/-- The run lemma: a run that has been there is there, up to `R`. -/
theorem kept_exec (hR : Lasting R) (h : Transitions.Exec (step detect assess) Transitions.free s t) :
    ∀ run ∈ s.runs.rows, ∃ run' ∈ t.runs.rows, R run run' := by
  induction h with
  | refl =>
    intro run hrun
    exact ⟨run, hrun, hR.refl run⟩
  | tail _ _ hst ih =>
    intro run hrun
    obtain ⟨mid, hmid, hsame⟩ := ih run hrun
    obtain ⟨run', hrun', hsame'⟩ := (grown_step hR hst).kept mid hmid
    exact ⟨run', hrun', hR.trans hsame hsame'⟩

end Steps

end EvalEngine.KeptRuns
