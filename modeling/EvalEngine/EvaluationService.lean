import EvalEngine.SubmissionService

namespace EvalEngine.EvaluationService

open EvalEngine.JsonValues EvalEngine.Exceptions EvalEngine.RunModel
open EvalEngine.ConstrainedTables EvalEngine.ServiceTables EvalEngine.Transactions
open EvalEngine.AuditService EvalEngine.ServiceContracts EvalEngine.RowOperations
open EvalEngine.SubmissionService (runReport runReport_fits)
open Entity Stored Contract

def configReport (configId orgId userId : UUID) (ip : Option String)
    (changes : Option Dict) : Report where
  resourceType := "evaluation_config"
  resourceId := configId
  organizationId := orgId
  userId := some userId
  ipAddress := ip
  changes

theorem varchar_evaluation_config : varchar 100 "evaluation_config" = true := by decide

/-- The body of `POST /evaluations/configs`. -/
structure EvaluationConfigCreate where
  name : String
  description : Option String := none
  pipelineConfig : Option Dict := none
  webhookUrl : Option String := none
  isTemplate : Bool := false

def newConfig (id orgId userId : UUID) (body : EvaluationConfigCreate) : EvaluationConfig where
  id
  name := body.name
  description := body.description
  organizationId := orgId
  createdById := some userId
  pipelineConfig := body.pipelineConfig.getD []
  webhookUrl := body.webhookUrl
  isTemplate := body.isTemplate

def createEvaluationConfig (ctx : Context) (orgId userId : UUID) (body : EvaluationConfigCreate)
    (ip : Option String) : Service EvaluationConfig := do
  let configId ← newKey EvaluationConfig
  storeRow ctx "CREATE" (configReport configId orgId userId ip none)
    (newConfig configId orgId userId body)

/-- The body of `PATCH /evaluations/configs/{id}`. A field that is `None` is left alone. -/
structure EvaluationConfigUpdate where
  name : Option String := none
  description : Option String := none
  pipelineConfig : Option Dict := none
  webhookUrl : Option String := none
  isTemplate : Option Bool := none

/-- The `setattr` loop and the new version. -/
def EvaluationConfigUpdate.apply (updates : EvaluationConfigUpdate) (config : EvaluationConfig) :
    EvaluationConfig :=
  { config with
    name := updates.name.getD config.name
    description := updates.description.or config.description
    pipelineConfig := updates.pipelineConfig.getD config.pipelineConfig
    webhookUrl := updates.webhookUrl.or config.webhookUrl
    isTemplate := updates.isTemplate.getD config.isTemplate
    version := config.version + 1 }

/-- `{"name": config.name, "version": config.version}`. -/
def nameAndVersion (config : EvaluationConfig) : Json :=
  .obj [("name", .str config.name), ("version", .num config.version)]

def updateReport (updates : EvaluationConfigUpdate) (orgId userId : UUID) (ip : Option String)
    (config : EvaluationConfig) : Report :=
  configReport config.id orgId userId ip
    (some [("before", nameAndVersion config), ("after", nameAndVersion (updates.apply config))])

def updateEvaluationConfig (ctx : Context) (configId orgId userId : UUID)
    (updates : EvaluationConfigUpdate) (ip : Option String) : Service EvaluationConfig :=
  changeScoped ctx "Evaluation config" "UPDATE" configId orgId updates.apply
    (updateReport updates orgId userId ip)

def softDeleteConfig (now : Time) (config : EvaluationConfig) : EvaluationConfig :=
  { config with deletedAt := some now }

def deleteEvaluationConfig (ctx : Context) (configId orgId userId : UUID) (ip : Option String) :
    Service Unit := do
  let _ ← changeScoped ctx "Evaluation config" "DELETE" configId orgId (softDeleteConfig ctx.now)
    (fun config => configReport config.id orgId userId ip none)
  pure ()

def cannotCancel (status : RunStatus) : PyException :=
  .conflict ("Cannot cancel run in '" ++ status.value ++ "' state")

/-- The task of the run, where it has one. -/
def taskOf (run : EvaluationRun) : Option String := run.celeryTaskId.filter (· != "")

def revokeTask (ctx : Context) (run : EvaluationRun) : Service Unit :=
  match taskOf run with
  | some taskId => external (ctx.revokeTask taskId)
  | none => pure ()

def cancelled (now : Time) (run : EvaluationRun) : EvaluationRun :=
  { run with status := .cancelled, completedAt := some now, updatedAt := now }

def cancelEvaluationRun (ctx : Context) (runId orgId userId : UUID) (ip : Option String) :
    Service EvaluationRun := do
  let run ← getScoped EvaluationRun "Evaluation run" runId orgId
  if run.isTerminal then raise (cannotCancel run.status)
  else
    revokeTask ctx run
    changeRow ctx "EVALUATION_CANCELLED" (runReport run.id orgId userId ip) (cancelled ctx.now run)

section Contracts

variable (ctx : Context) (configId runId orgId userId : UUID) (body : EvaluationConfigCreate)
  (updates : EvaluationConfigUpdate) (ip : Option String)

abbrev addedConfig (tables : Tables) : EvaluationConfig :=
  newConfig (table tables : Table EvaluationConfig).freshKey orgId userId body

def createContract (tables : Tables) : Contract :=
  insertContract "CREATE"
    (configReport (table tables : Table EvaluationConfig).freshKey orgId userId ip none)
    (addedConfig orgId userId body tables) tables

def updateContract (tables : Tables) : Contract :=
  changeContract "Evaluation config" "UPDATE" configId orgId updates.apply
    (updateReport updates orgId userId ip) tables

def deleteContract (tables : Tables) : Contract :=
  changeContract "Evaluation config" "DELETE" configId orgId (softDeleteConfig ctx.now)
    (fun config => configReport config.id orgId userId ip none) tables

def cancelGuard (tables : Tables) : Option PyException :=
  match scopedRow EvaluationRun runId orgId tables with
  | none => some (.notFound "Evaluation run" runId)
  | some run => if run.isTerminal then some (cannotCancel run.status) else none

def cancelContract (tables : Tables) : Contract where
  guard := cancelGuard runId orgId tables
  change after := ∀ run ∈ scopedRow EvaluationRun runId orgId tables,
    Updated (cancelled ctx.now run) tables after
  entry := (scopedRow EvaluationRun runId orgId tables).bind fun run =>
    entryOf "EVALUATION_CANCELLED" (runReport run.id orgId userId ip)
  stated e he := by
    unfold cancelGuard at he
    split at he
    · cases he
      rfl
    · split at he
      · cases he
        rfl
      · cases he

/-- The broker takes the revocation of the task of a live run. -/
def Cancellable (tables : Tables) : Prop :=
  ∀ run ∈ scopedRow EvaluationRun runId orgId tables, run.isTerminal = false →
    ∀ taskId ∈ taskOf run, ctx.revokeTask taskId = .ok ()

variable {ctx configId runId orgId userId body updates ip}

theorem createEvaluationConfig_follows (db : Database) :
    (createContract orgId userId body ip db.tables).Follows
      (references db.tables (addedConfig orgId userId body db.tables) = true ∧
        fits (addedConfig orgId userId body db.tables) = true) ctx db
      ((createEvaluationConfig ctx orgId userId body ip).run { state := db }) := by
  rw [createEvaluationConfig, run_bind_ok (run_newKey db)]
  exact storeRow_follows_known _ ctx db _ _ _ rfl (by rintro v ⟨⟩) rfl (fun _ hafter => hafter) rfl
    (Report.fits_plain varchar_evaluation_config rfl) (by decide)

/-- The snapshots of a stored and of a storable configuration fit the audit row. -/
theorem updateReport_fits {config : EvaluationConfig} (hconfig : fits config = true)
    (happlied : fits (updates.apply config) = true) :
    (updateReport updates orgId userId ip config).fits = true := by
  have hname : ∀ config : EvaluationConfig, fits config = true → textStorable config.name = true := by
    intro config h
    simp only [fits, varchar, Bool.and_eq_true] at h
    exact h.1.1.1.1.2
  have hkeys : textStorable "before" = true ∧ textStorable "after" = true ∧
      textStorable "name" = true ∧ textStorable "version" = true := by decide
  simp [Report.fits, updateReport, configReport, varchar_evaluation_config, nameAndVersion,
    dictStorable, Json.storable, hkeys, hname config hconfig, hname _ happlied]

theorem updateEvaluationConfig_follows (db : Database) :
    (updateContract configId orgId userId updates ip db.tables).Follows
      (∀ config ∈ scopedRow EvaluationConfig configId orgId db.tables,
        fits (updates.apply config) = true) ctx db
      ((updateEvaluationConfig ctx configId orgId userId updates ip).run { state := db }) :=
  changeScoped_follows_known ctx db _ _ configId orgId _ _ (fun _ => rfl) (fun _ => rfl)
    (fun _ => updateReport_fits) (by decide)

theorem fits_softDeleteConfig (now : Time) (config : EvaluationConfig) :
    fits (softDeleteConfig now config) = fits config := rfl

theorem deleteEvaluationConfig_follows (db : Database) :
    (deleteContract ctx configId orgId userId ip db.tables).Follows True ctx db
      ((deleteEvaluationConfig ctx configId orgId userId ip).run { state := db }) := by
  have hchange := changeScoped_follows_known ctx db "Evaluation config" "DELETE" configId orgId
    (softDeleteConfig ctx.now) (fun config => configReport config.id orgId userId ip none)
    (fun _ => rfl) (fun _ => rfl) (fun _ _ _ => Report.fits_plain varchar_evaluation_config rfl)
    (by decide)
  have hcond : ∀ config ∈ scopedRow EvaluationConfig configId orgId db.tables,
      fits (softDeleteConfig ctx.now config) = true := by
    intro config hconfig
    rw [fits_softDeleteConfig]
    exact db.tables.evaluationConfigs.fits_of_mem (scopedRow_some hconfig).1
  rw [← iff_of_true hcond trivial]
  exact hchange.bind_pure _

theorem fits_cancelled (now : Time) (run : EvaluationRun) :
    fits (cancelled now run) = fits run := rfl

theorem run_revokeTask_ok {run : EvaluationRun}
    (h : ∀ taskId ∈ taskOf run, ctx.revokeTask taskId = .ok ()) (t : Transaction Database) :
    (revokeTask ctx run).run t = (.ok (), t) := by
  unfold revokeTask
  split
  next taskId htask => exact run_external_ok (h taskId htask) t
  next => rfl

theorem run_revokeTask_error {run : EvaluationRun}
    (h : ¬ ∀ taskId ∈ taskOf run, ctx.revokeTask taskId = .ok ()) (t : Transaction Database) :
    ∃ message, (revokeTask ctx run).run t = (.error (.failure message), t) := by
  unfold revokeTask
  split
  next taskId htask =>
    cases hrevoke : ctx.revokeTask taskId with
    | error message => exact ⟨message, run_external_error rfl t⟩
    | ok _ =>
      refine absurd (fun taskId' htask' => ?_) h
      rw [htask] at htask'
      cases htask'
      exact hrevoke
  next htask => exact absurd (by simp [htask]) h

theorem cancelEvaluationRun_follows (db : Database) :
    (cancelContract ctx runId orgId userId ip db.tables).Follows
      (Cancellable ctx runId orgId db.tables) ctx db
      ((cancelEvaluationRun ctx runId orgId userId ip).run { state := db }) := by
  cases hrow : scopedRow EvaluationRun runId orgId db.tables with
  | none =>
    refine .inl ⟨by simp [Cancellable, hrow],
      kept_of_guard (e := .notFound "Evaluation run" runId) ?_ ?_⟩
    · simp [cancelContract, cancelGuard, hrow]
    · rw [cancelEvaluationRun, run_bind_error (run_getScoped_none _ hrow)]
  | some run =>
    rw [cancelEvaluationRun, run_bind_ok (run_getScoped_some _ hrow)]
    cases hterminal : run.isTerminal with
    | true =>
      refine .inl ⟨by simp [Cancellable, hrow, hterminal],
        kept_of_guard (e := cannotCancel run.status) ?_ ?_⟩
      · simp [cancelContract, cancelGuard, hrow, hterminal]
      · simp
    | false =>
      have hmem := (scopedRow_some hrow).1
      have hfits : fits (cancelled ctx.now run) = true := by
        rw [fits_cancelled]
        exact db.tables.evaluationRuns.fits_of_mem hmem
      have hcond : Cancellable ctx runId orgId db.tables ↔
          ∀ taskId ∈ taskOf run, ctx.revokeTask taskId = .ok () := by
        simp [Cancellable, hrow, hterminal]
      simp only [Bool.false_eq_true, if_false]
      by_cases hrevoke : ∀ taskId ∈ taskOf run, ctx.revokeTask taskId = .ok ()
      · have hchange := changeRow_follows (cancelContract ctx runId orgId userId ip db.tables) ctx db
          "EVALUATION_CANCELLED" (runReport run.id orgId userId ip) (cancelled ctx.now run)
          hmem rfl rfl (by simp [cancelContract, cancelGuard, hrow, hterminal])
          (fun after hafter => by simpa [cancelContract, hrow] using hafter)
          (by simp [cancelContract, hrow])
          (fun _ => runReport_fits _ _ _ _)
        have haction : (AuditAction.ofName "EVALUATION_CANCELLED").isSome = true := by decide
        rw [hfits, haction] at hchange
        rw [run_bind_ok (run_revokeTask_ok hrevoke _), iff_true_intro (hcond.2 hrevoke)]
        simp only [true_and] at hchange
        exact hchange
      · obtain ⟨message, hrun⟩ := run_revokeTask_error hrevoke { state := db }
        refine .inr ⟨fun h => hrevoke (hcond.1 h), broken_of_error (e := .failure message) ?_ rfl⟩
        rw [run_bind_error hrun]

end Contracts

end EvalEngine.EvaluationService
