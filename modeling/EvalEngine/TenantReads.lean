import EvalEngine.ResultService
import EvalEngine.TenantRows

namespace EvalEngine.TenantReads

open EvalEngine.Exceptions EvalEngine.QueryResults EvalEngine.RunModel EvalEngine.SubmissionModel
open EvalEngine.ConstrainedTables EvalEngine.ServiceTables EvalEngine.StageTables
open EvalEngine.ServiceContracts EvalEngine.Noninterference EvalEngine.ReadServices
open EvalEngine.ResultService EvalEngine.TenantRows
open EvalEngine.PipelineDatabase (State WorkerResultRow)
open Entity Stored Tenant

/-- The operations of the services that only read, with their arguments. -/
inductive ReadOperation
  | getSubmission (submissionId : UUID)
  | listSubmissions (statusFilter : Option SubmissionStatus) (page pageSize : Int)
  | getEvaluationConfig (configId : UUID)
  | listEvaluationConfigs (page pageSize : Int)
  | getEvaluationRun (runId : UUID)
  | listEvaluationRuns (submissionId configId : Option UUID) (statusFilter : Option RunStatus)
      (page pageSize : Int)
  | getDataset (datasetId : UUID)
  | listDatasets (statusFilter : Option DatasetStatus) (page pageSize : Int)
  | getMetric (metricId : UUID)
  | listMetrics (page pageSize : Int)
  | getWorkerResultsForRun (runId : UUID)
  | getClaimsForRun (runId : UUID) (category : Option String) (page pageSize : Int)
  | getContradictionsForRun (runId : UUID)
  | getScoresForRun (runId : UUID)
  | getResultsSummary (runId : UUID)
  | exportResults (runId : UUID) (fmt : String)

namespace ReadOperation

def Result : ReadOperation → Type
  | .getSubmission _ => Submission
  | .listSubmissions _ _ _ => List Submission × Nat
  | .getEvaluationConfig _ => Stamped EvaluationConfig
  | .listEvaluationConfigs _ _ => List (Stamped EvaluationConfig) × Nat
  | .getEvaluationRun _ => EvaluationRun
  | .listEvaluationRuns _ _ _ _ _ => List EvaluationRun × Nat
  | .getDataset _ => Stamped Dataset
  | .listDatasets _ _ _ => List (Stamped Dataset) × Nat
  | .getMetric _ => Metric
  | .listMetrics _ _ => List Metric × Nat
  | .getWorkerResultsForRun _ => List WorkerResultRow
  | .getClaimsForRun _ _ _ _ => List (Stamped Claim) × Nat
  | .getContradictionsForRun _ => List Contradiction
  | .getScoresForRun _ => List Score
  | .getResultsSummary _ => ResultsSummary
  | .exportResults _ _ => Export

def run (ctx : ReadContext) (orgId : UUID) : (op : ReadOperation) → Query op.Result
  | .getSubmission submissionId => ReadServices.getSubmission submissionId orgId
  | .listSubmissions statusFilter page pageSize =>
    ReadServices.listSubmissions orgId statusFilter page pageSize
  | .getEvaluationConfig configId => ReadServices.getEvaluationConfig configId orgId
  | .listEvaluationConfigs page pageSize => ReadServices.listEvaluationConfigs orgId page pageSize
  | .getEvaluationRun runId => ReadServices.getEvaluationRun runId orgId
  | .listEvaluationRuns submissionId configId statusFilter page pageSize =>
    ReadServices.listEvaluationRuns orgId submissionId configId statusFilter page pageSize
  | .getDataset datasetId => ReadServices.getDataset datasetId orgId
  | .listDatasets statusFilter page pageSize =>
    ReadServices.listDatasets orgId statusFilter page pageSize
  | .getMetric metricId => ReadServices.getMetric metricId orgId
  | .listMetrics page pageSize => ReadServices.listMetrics ctx.collate orgId page pageSize
  | .getWorkerResultsForRun runId => ResultService.getWorkerResultsForRun runId orgId
  | .getClaimsForRun runId category page pageSize =>
    ResultService.getClaimsForRun runId orgId category page pageSize
  | .getContradictionsForRun runId => ResultService.getContradictionsForRun runId orgId
  | .getScoresForRun runId => ResultService.getScoresForRun ctx runId orgId
  | .getResultsSummary runId => ResultService.getResultsSummary ctx runId orgId
  | .exportResults runId fmt => ResultService.exportResults ctx runId orgId fmt

end ReadOperation

/-- Two states in which the pipeline's rows are where they belong, and which
agree on an organization. -/
structure SameView (orgId : UUID) (s t : State) : Prop where
  inherits : Inherits s
  inherits' : Inherits t
  agree : Agree orgId s t

variable {orgId : UUID} {s t : State}

/-- A selection among the rows of one organization. -/
theorem filter_kept {ρ : Type} [Tenant ρ] {rows rows' : List ρ} {p : ρ → Bool}
    (h : kept (isTenant orgId) rows = kept (isTenant orgId) rows')
    (hp : ∀ row, p row = true → owner row = some orgId) : rows.filter p = rows'.filter p := by
  have hown : ∀ row, p row = true → isTenant orgId (owner row) = true := by
    intro row hrow
    exact decide_eq_true (hp row hrow)
  exact filter_congr_of_filter h (fun row _ => hown row) fun row _ => hown row

section Scoped

variable {ρ : Type} [Scoped ρ] [Tenant ρ] {resource : String} {id : UUID}

theorem scopedRow_agree (howner : ∀ row : ρ, owner row = some (Scoped.organizationId row))
    {tables tables' : Tables} (h : kept (isTenant orgId) (table tables : Table ρ).rows =
      kept (isTenant orgId) (table tables' : Table ρ).rows) :
    scopedRow ρ id orgId tables = scopedRow ρ id orgId tables' := by
  have hfilter : (table tables : Table ρ).rows.filter (isScoped id orgId) =
      (table tables' : Table ρ).rows.filter (isScoped id orgId) := by
    apply filter_kept h
    intro row hrow
    simp only [isScoped, Bool.and_eq_true, decide_eq_true_eq] at hrow
    rw [howner, hrow.1.2]
  have hhead := congrArg List.head? hfilter
  rwa [List.head?_filter, List.head?_filter] at hhead

end Scoped

theorem kept_stamped {ρ : Type} [Tenant ρ] (keep : Option UUID → Bool) (column : ρ → Time)
    (rows : List ρ) : kept keep (rows.map fun row => (⟨row, column row⟩ : Stamped ρ)) =
      (kept keep rows).map fun row => ⟨row, column row⟩ := by
  rw [kept, List.filter_map]
  rfl

/-- Rows that agree with their column agree without. -/
theorem kept_of_stamped {ρ : Type} [Tenant ρ] {keep : Option UUID → Bool} {column column' : ρ → Time}
    {rows rows' : List ρ}
    (h : kept keep (rows.map fun row => (⟨row, column row⟩ : Stamped ρ)) =
      kept keep (rows'.map fun row => (⟨row, column' row⟩ : Stamped ρ))) :
    kept keep rows = kept keep rows' ∧ ∀ row ∈ kept keep rows, column row = column' row := by
  rw [kept_stamped, kept_stamped] at h
  have hrows : kept keep rows = kept keep rows' := by
    have hmap := congrArg (List.map Stamped.row) h
    simpa only [List.map_map, Function.comp_def, List.map_id_fun', id] using hmap
  refine ⟨hrows, fun row hrow => ?_⟩
  rw [← hrows] at h
  exact congrArg Stamped.createdAt (List.map_inj_left.1 h row hrow)

section Services

variable (orgId)

theorem respects_getSubmission (submissionId : UUID) :
    Respects (SameView orgId) (getSubmission submissionId orgId) := by
  apply respects_getScoped
  intro s t hst
  exact scopedRow_agree (fun _ => rfl) (congrArg Rows.submissions hst.agree.rows)

theorem respects_getEvaluationRun (runId : UUID) :
    Respects (SameView orgId) (getEvaluationRun runId orgId) := by
  apply respects_getScoped
  intro s t hst
  exact scopedRow_agree (fun _ => rfl) (congrArg Rows.evaluationRuns hst.agree.rows)

/-- A row and its column are read one after the other. -/
theorem respects_stampedRow {ρ : Type} [Scoped ρ] [Tenant ρ] (resource : String) (id : UUID)
    (column : State → ρ → Time) (howner : ∀ row : ρ, owner row = some (Scoped.organizationId row))
    (hagree : ∀ s t, SameView orgId s t →
      kept (isTenant orgId) ((table s.db.tables : Table ρ).rows.map fun row =>
          (⟨row, column s row⟩ : Stamped ρ)) =
        kept (isTenant orgId) ((table t.db.tables : Table ρ).rows.map fun row => ⟨row, column t row⟩)) :
    Respects (SameView orgId) (do
      let row ← answer (getScoped ρ resource id orgId)
      let createdAt ← select fun s => column s row
      return (⟨row, createdAt⟩ : Stamped ρ)) := by
  apply Respects.bind
  · apply respects_getScoped
    intro s t hst
    exact scopedRow_agree howner (kept_of_stamped (hagree s t hst)).1
  intro row
  apply Respects.seq
  · apply respects_select
    intro s t ⟨hst, hs, _⟩
    obtain ⟨hmem, _, horg, _⟩ := scopedRow_some (answer_getScoped_ok hs)
    have hkept : row ∈ kept (isTenant orgId) (table s.db.tables : Table ρ).rows := by
      apply List.mem_filter.2 ⟨hmem, ?_⟩
      exact decide_eq_true (by rw [howner, horg])
    exact (kept_of_stamped (hagree s t hst)).2 row hkept
  intro createdAt
  exact respects_pure _

theorem respects_getEvaluationConfig (configId : UUID) :
    Respects (SameView orgId) (getEvaluationConfig configId orgId) := by
  apply respects_stampedRow orgId "Evaluation config" configId
    fun s (config : EvaluationConfig) => s.createdAt.evaluationConfigs config.id
  · intro config
    rfl
  · intro s t hst
    exact congrArg Rows.evaluationConfigs hst.agree.rows

theorem respects_getDataset (datasetId : UUID) :
    Respects (SameView orgId) (getDataset datasetId orgId) := by
  apply respects_stampedRow orgId "Dataset" datasetId
    fun s (dataset : Dataset) => s.createdAt.datasets dataset.id
  · intro dataset
    rfl
  · intro s t hst
    exact congrArg Rows.datasets hst.agree.rows

theorem respects_listSubmissions (statusFilter : Option SubmissionStatus) (page pageSize : Int) :
    Respects (SameView orgId) (listSubmissions orgId statusFilter page pageSize) := by
  apply respects_listPage
  intro s t hst
  apply filter_kept (congrArg Rows.submissions hst.agree.rows)
  intro submission h
  simp only [isListedSubmission, Bool.and_eq_true, decide_eq_true_eq] at h
  exact congrArg some h.1.1

theorem respects_listEvaluationConfigs (page pageSize : Int) :
    Respects (SameView orgId) (listEvaluationConfigs orgId page pageSize) := by
  apply respects_listPage
  intro s t hst
  apply filter_kept (congrArg Rows.evaluationConfigs hst.agree.rows)
  intro config h
  simp only [isListedConfig, Bool.and_eq_true, decide_eq_true_eq] at h
  exact congrArg some h.1

theorem respects_listEvaluationRuns (submissionId configId : Option UUID)
    (statusFilter : Option RunStatus) (page pageSize : Int) : Respects (SameView orgId)
      (listEvaluationRuns orgId submissionId configId statusFilter page pageSize) := by
  apply respects_listPage
  intro s t hst
  apply filter_kept (congrArg Rows.evaluationRuns hst.agree.rows)
  intro run h
  simp only [isListedRun, Bool.and_eq_true, decide_eq_true_eq] at h
  exact congrArg some h.1.1.1.1

theorem respects_listDatasets (statusFilter : Option DatasetStatus) (page pageSize : Int) :
    Respects (SameView orgId) (listDatasets orgId statusFilter page pageSize) := by
  apply respects_listPage
  intro s t hst
  apply filter_kept (congrArg Rows.datasets hst.agree.rows)
  intro dataset h
  simp only [isListedDataset, Bool.and_eq_true, decide_eq_true_eq] at h
  exact congrArg some h.1.1

/-- A selection among the metrics that the organization sees. -/
theorem filter_visible {p : Metric → Bool} (hst : SameView orgId s t)
    (hp : ∀ metric, p metric = true → isVisible orgId metric = true) :
    s.db.tables.metrics.rows.filter p = t.db.tables.metrics.rows.filter p :=
  filter_congr_of_filter hst.agree.metrics (fun metric _ => hp metric) fun metric _ => hp metric

theorem respects_listMetrics (collate : String → String → Bool) (page pageSize : Int) :
    Respects (SameView orgId) (listMetrics collate orgId page pageSize) := by
  apply respects_listPage
  intro s t hst
  apply filter_visible orgId hst
  intro metric h
  exact (Bool.and_eq_true_iff.1 h).1

theorem respects_getMetric (metricId : UUID) :
    Respects (SameView orgId) (getMetric metricId orgId) := by
  apply Respects.seq
  · apply respects_select
    intro s t hst
    apply filter_visible orgId hst
    intro metric h
    simp only [Bool.and_eq_true, decide_eq_true_eq] at h
    exact h.1.2
  intro rows
  apply Respects.seq (respects_lift _)
  rintro (_ | metric)
  · exact respects_refuse _
  · exact respects_pure _

end Services

section Results

variable (orgId) (runId : UUID)

theorem respects_verifyRun : Respects (SameView orgId) (verifyRun runId orgId) :=
  respects_getEvaluationRun orgId runId

variable {orgId} {runId}

/-- A row of the verified run belongs to the organization of the request. -/
theorem owner_of_verified {run : EvaluationRun} {org : UUID} (hrun : verifyRun runId orgId s = .ok run)
    (h : RunOf s runId org) : org = orgId := by
  obtain ⟨hmem, hid, horg, _⟩ := scopedRow_some (answer_getScoped_ok hrun)
  obtain ⟨run', hmem', hid', rfl⟩ := h
  have hsame : run' = run := s.runs.eq_of_key hmem' hmem (hid'.trans hid.symm)
  rw [hsame]
  exact horg

/-- The rows of the verified run are the same where the rows of the
organization are, although the query does not ask for the organization. -/
theorem filter_of_verified {ρ : Type} [Tenant ρ] (rows : State → List ρ) (parent : ρ → UUID)
    {p : ρ → Bool} {run : EvaluationRun}
    (hst : SameView orgId s t ∧ verifyRun runId orgId s = .ok run ∧ verifyRun runId orgId t = .ok run)
    (hrows : kept (isTenant orgId) (rows s) = kept (isTenant orgId) (rows t))
    (hinherits : ∀ u, Inherits u → ∀ row ∈ rows u, ∃ org ∈ owner row, RunOf u (parent row) org)
    (hp : ∀ row, p row = true → parent row = runId) : (rows s).filter p = (rows t).filter p := by
  obtain ⟨hview, hs, ht⟩ := hst
  have hown : ∀ u, Inherits u → verifyRun runId orgId u = .ok run → ∀ row ∈ rows u,
      p row = true → isTenant orgId (owner row) = true := by
    intro u hu hverified row hrow hprow
    obtain ⟨org, howner, hparent⟩ := hinherits u hu row hrow
    rw [hp row hprow] at hparent
    obtain rfl := owner_of_verified hverified hparent
    exact decide_eq_true howner
  exact filter_congr_of_filter hrows (hown s hview.inherits hs) (hown t hview.inherits' ht)

variable (orgId) (runId)

theorem respects_getWorkerResultsForRun :
    Respects (SameView orgId) (getWorkerResultsForRun runId orgId) := by
  apply (respects_verifyRun orgId runId).bind
  intro run
  apply respects_select
  intro s t hst
  have hfilter : s.workerResults.rows.filter (isResultOf runId) =
      t.workerResults.rows.filter (isResultOf runId) := by
    apply filter_of_verified (fun s => s.workerResults.rows) (fun row => row.evaluationRunId) hst
      (congrArg Rows.workerResults hst.1.agree.rows)
    · intro u hu row hrow
      exact ⟨row.organizationId, rfl, hu.workerResults row hrow⟩
    · intro row h
      simp only [isResultOf, Bool.and_eq_true, decide_eq_true_eq] at h
      exact h.1
  rw [hfilter]

theorem respects_getClaimsForRun (category : Option String) (page pageSize : Int) :
    Respects (SameView orgId) (getClaimsForRun runId orgId category page pageSize) := by
  apply (respects_verifyRun orgId runId).seq
  intro run
  apply (respects_lift _).seq
  intro category
  apply respects_listPage
  intro s t hst
  apply filter_kept (congrArg Rows.claims hst.agree.rows)
  intro claim h
  simp only [isClaimOf, Bool.and_eq_true, decide_eq_true_eq] at h
  exact congrArg some h.1.1.2

theorem respects_getContradictionsForRun :
    Respects (SameView orgId) (getContradictionsForRun runId orgId) := by
  apply (respects_verifyRun orgId runId).seq
  intro run
  apply respects_select
  intro s t hst
  rw [filter_kept (congrArg Rows.contradictions hst.agree.rows)]
  intro c h
  simp only [isContradictionOf, Bool.and_eq_true, decide_eq_true_eq] at h
  exact congrArg some h.1.2

theorem respects_getScoresForRun (ctx : ReadContext) :
    Respects (SameView orgId) (getScoresForRun ctx runId orgId) := by
  apply (respects_verifyRun orgId runId).seq
  intro run
  apply respects_select
  intro s t hst
  rw [filter_kept (congrArg Rows.scores hst.agree.rows)]
  intro score h
  simp only [isScoreOf, Bool.and_eq_true, decide_eq_true_eq] at h
  exact congrArg some h.1.2

theorem countedClaims_agree {run : EvaluationRun}
    (hst : SameView orgId s t ∧ verifyRun runId orgId s = .ok run ∧ verifyRun runId orgId t = .ok run) :
    s.store.claims.filter (isCountedClaim runId) = t.store.claims.filter (isCountedClaim runId) := by
  have hclaims : kept (isTenant orgId) s.store.claims = kept (isTenant orgId) t.store.claims :=
    (kept_of_stamped (congrArg Rows.claims hst.1.agree.rows)).1
  apply filter_of_verified (fun s => s.store.claims) Claim.evaluationRunId hst hclaims
  · intro u hu claim hclaim
    obtain ⟨run, hrun, hid, horg, _⟩ := hu.claims claim hclaim
    exact ⟨claim.organizationId, rfl, run, hrun, hid, horg⟩
  · intro claim h
    simp only [isCountedClaim, Bool.and_eq_true, decide_eq_true_eq] at h
    exact h.1

theorem countedContradictions_agree {run : EvaluationRun}
    (hst : SameView orgId s t ∧ verifyRun runId orgId s = .ok run ∧ verifyRun runId orgId t = .ok run) :
    s.store.contradictions.filter (isCountedContradiction runId) =
      t.store.contradictions.filter (isCountedContradiction runId) := by
  apply filter_of_verified (fun s => s.store.contradictions) Contradiction.evaluationRunId hst
    (congrArg Rows.contradictions hst.1.agree.rows)
  · intro u hu c hc
    exact ⟨c.organizationId, rfl, (hu.contradictions c hc).1⟩
  · intro c h
    simp only [isCountedContradiction, Bool.and_eq_true, decide_eq_true_eq] at h
    exact h.1

theorem respects_getResultsSummary (ctx : ReadContext) :
    Respects (SameView orgId) (getResultsSummary ctx runId orgId) := by
  apply (respects_verifyRun orgId runId).bind
  intro run
  apply Respects.seq
  · apply respects_select
    intro s t hst
    rw [countedClaims_agree orgId runId hst]
  intro totalClaims
  apply Respects.seq
  · apply respects_select
    intro s t hst
    rw [countedContradictions_agree orgId runId hst]
  intro totalContradictions
  apply ((respects_getScoresForRun orgId runId ctx).mono fun _ _ h => h.1).seq
  intro scores
  exact respects_pure _

theorem respects_exportResults (ctx : ReadContext) (fmt : String) :
    Respects (SameView orgId) (exportResults ctx runId orgId fmt) := by
  apply (respects_verifyRun orgId runId).seq
  intro run
  apply (respects_getWorkerResultsForRun orgId runId).seq
  intro workers
  apply (respects_getClaimsForRun orgId runId none 1 10000).seq
  intro claims
  apply (respects_getContradictionsForRun orgId runId).seq
  intro contradictions
  apply (respects_getScoresForRun orgId runId ctx).seq
  intro scores
  apply (respects_lift _).seq
  intro checksum
  apply (respects_lift _).seq
  intro downloadUrl
  exact respects_pure _

end Results

theorem respects_run (ctx : ReadContext) (orgId : UUID) (op : ReadOperation) :
    Respects (SameView orgId) (op.run ctx orgId) := by
  cases op with
  | getSubmission submissionId => exact respects_getSubmission orgId submissionId
  | listSubmissions statusFilter page pageSize =>
    exact respects_listSubmissions orgId statusFilter page pageSize
  | getEvaluationConfig configId => exact respects_getEvaluationConfig orgId configId
  | listEvaluationConfigs page pageSize => exact respects_listEvaluationConfigs orgId page pageSize
  | getEvaluationRun runId => exact respects_getEvaluationRun orgId runId
  | listEvaluationRuns submissionId configId statusFilter page pageSize =>
    exact respects_listEvaluationRuns orgId submissionId configId statusFilter page pageSize
  | getDataset datasetId => exact respects_getDataset orgId datasetId
  | listDatasets statusFilter page pageSize =>
    exact respects_listDatasets orgId statusFilter page pageSize
  | getMetric metricId => exact respects_getMetric orgId metricId
  | listMetrics page pageSize => exact respects_listMetrics orgId ctx.collate page pageSize
  | getWorkerResultsForRun runId => exact respects_getWorkerResultsForRun orgId runId
  | getClaimsForRun runId category page pageSize =>
    exact respects_getClaimsForRun orgId runId category page pageSize
  | getContradictionsForRun runId => exact respects_getContradictionsForRun orgId runId
  | getScoresForRun runId => exact respects_getScoresForRun orgId runId ctx
  | getResultsSummary runId => exact respects_getResultsSummary orgId runId ctx
  | exportResults runId fmt => exact respects_exportResults orgId runId ctx fmt

end EvalEngine.TenantReads
