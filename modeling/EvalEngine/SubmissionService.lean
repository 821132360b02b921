import EvalEngine.RowOperations

namespace EvalEngine.SubmissionService

open EvalEngine.JsonValues EvalEngine.Exceptions EvalEngine.RunModel EvalEngine.QueryResults
open EvalEngine.SubmissionModel EvalEngine.ConstrainedTables EvalEngine.ServiceTables
open EvalEngine.Transactions EvalEngine.AuditService EvalEngine.ServiceContracts
open EvalEngine.RowOperations
open Entity Stored Contract

def submissionReport (submissionId orgId userId : UUID) (ip : Option String) : Report where
  resourceType := "submission"
  resourceId := submissionId
  organizationId := orgId
  userId := some userId
  ipAddress := ip

theorem submissionReport_fits (submissionId orgId userId : UUID) (ip : Option String) :
    (submissionReport submissionId orgId userId ip).fits = true :=
  Report.fits_plain (by decide : varchar 100 "submission" = true) rfl

/-- The body of `POST /submissions`. -/
structure SubmissionCreate where
  startupName : String
  description : Option String := none
  websiteUrl : Option String := none
  pitchDeckUrl : Option String := none
  metadata : Option Dict := none

def newSubmission (now : Time) (id orgId userId : UUID) (body : SubmissionCreate) : Submission where
  id
  organizationId := orgId
  submittedById := some userId
  startupName := body.startupName
  description := body.description
  websiteUrl := body.websiteUrl
  pitchDeckUrl := body.pitchDeckUrl
  status := .draft
  metadata := body.metadata.getD []
  createdAt := now
  updatedAt := now

def createSubmission (ctx : Context) (orgId userId : UUID) (body : SubmissionCreate)
    (ip : Option String) : Service Submission := do
  let submissionId ← newKey Submission
  storeRow ctx "CREATE" (submissionReport submissionId orgId userId ip)
    (newSubmission ctx.now submissionId orgId userId body)

/-- The body of `PATCH /submissions/{id}`. A field that is `None` is left alone. -/
structure SubmissionUpdate where
  startupName : Option String := none
  description : Option String := none
  websiteUrl : Option String := none
  pitchDeckUrl : Option String := none
  status : Option SubmissionStatus := none
  metadata : Option Dict := none

/-- The `setattr` loop. The column of the metadata is the attribute `metadata_`,
so setting `metadata` reaches no column. -/
def SubmissionUpdate.apply (updates : SubmissionUpdate) (submission : Submission) : Submission :=
  { submission with
    startupName := updates.startupName.getD submission.startupName
    description := updates.description.or submission.description
    websiteUrl := updates.websiteUrl.or submission.websiteUrl
    pitchDeckUrl := updates.pitchDeckUrl.or submission.pitchDeckUrl
    status := updates.status.getD submission.status }

/-- Whether the flush has a column to write. -/
def isModified (before after : Submission) : Bool :=
  before.startupName != after.startupName || before.description != after.description ||
    before.websiteUrl != after.websiteUrl || before.pitchDeckUrl != after.pitchDeckUrl ||
    before.status != after.status

def stamp (now : Time) (before after : Submission) : Submission :=
  if isModified before after then { after with updatedAt := now } else after

def updatedRow (now : Time) (updates : SubmissionUpdate) (submission : Submission) : Submission :=
  stamp now submission (updates.apply submission)

def updateSubmission (ctx : Context) (submissionId orgId userId : UUID) (updates : SubmissionUpdate)
    (ip : Option String) : Service Submission :=
  changeScoped ctx "Submission" "UPDATE" submissionId orgId (updatedRow ctx.now updates)
    (fun submission => submissionReport submission.id orgId userId ip)

def softDeleteSubmission (now : Time) (submission : Submission) : Submission :=
  { submission with deletedAt := some now, updatedAt := now }

def deleteSubmission (ctx : Context) (submissionId orgId userId : UUID) (ip : Option String) :
    Service Unit := do
  let _ ← changeScoped ctx "Submission" "DELETE" submissionId orgId (softDeleteSubmission ctx.now)
    (fun submission => submissionReport submission.id orgId userId ip)
  pure ()

def archivedSubmission : PyException := .conflict "Cannot evaluate an archived submission"

def limitReached (limit : Int) : PyException :=
  .conflict ("Maximum concurrent evaluations (" ++ toString limit ++
    ") reached. Wait for existing runs to complete.")

def runReport (runId orgId userId : UUID) (ip : Option String) : Report where
  resourceType := "evaluation_run"
  resourceId := runId
  organizationId := orgId
  userId := some userId
  ipAddress := ip

theorem runReport_fits (runId orgId userId : UUID) (ip : Option String) :
    (runReport runId orgId userId ip).fits = true :=
  Report.fits_plain (by decide : varchar 100 "evaluation_run" = true) rfl

/-- The snapshot of the pipeline configuration, if one is asked for. -/
def configSnapshot (configId : Option UUID) (orgId : UUID) : Service Dict :=
  match configId with
  | none => pure []
  | some configId => do
    let config ← getScoped EvaluationConfig "Evaluation config" configId orgId
    pure config.pipelineConfig

/-- The runs that count against the limit of an organization. -/
def activeCount (orgId : UUID) (tables : Tables) : Nat :=
  (tables.evaluationRuns.rows.filter (fun run => decide (run.organizationId = orgId) &&
    (decide (run.status = .pending) || decide (run.status = .running)))).length

def organizationRows (orgId : UUID) (tables : Tables) : List Organization :=
  tables.organizations.rows.filter (fun org => decide (org.id = orgId))

/-- `scalar_one`: the organization has to be there. -/
def fetchOrganization (orgId : UUID) : Service Organization := do
  let orgs ← query (organizationRows orgId)
  ofExcept (scalarOne orgs)

/-- A draft is submitted, and what is submitted or evaluated goes under review. -/
def underReview (now : Time) (submission : Submission) : Submission :=
  match submission.status with
  | .draft | .submitted | .evaluated => { submission with status := .underReview, updatedAt := now }
  | .underReview | .archived => submission

def newRun (now : Time) (id submissionId orgId userId : UUID) (configId : Option UUID)
    (snapshot : Dict) (runMetadata : Option Dict) : EvaluationRun where
  id
  submissionId
  configId
  organizationId := orgId
  triggeredById := some userId
  status := .pending
  configSnapshot := snapshot
  runMetadata := runMetadata.getD []
  createdAt := now
  updatedAt := now

def dispatched (now : Time) (taskId : String) (run : EvaluationRun) : EvaluationRun :=
  { run with celeryTaskId := some taskId, updatedAt := now }

/-- The flush of the submission and the run, the dispatch and the flush of the task id. -/
def startRun (ctx : Context) (submission : Submission) (run : EvaluationRun) (orgId userId : UUID)
    (ip : Option String) : Service EvaluationRun := do
  flush (fun tables => (updateRow submission tables).bind (insertRow run))
  let taskId ← external (ctx.delay run.id)
  changeRow ctx "EVALUATION_STARTED" (runReport run.id orgId userId ip)
    (dispatched ctx.now taskId run)

def triggerEvaluation (ctx : Context) (submissionId orgId userId : UUID) (configId : Option UUID)
    (runMetadata : Option Dict) (ip : Option String) : Service EvaluationRun := do
  let submission ← getScoped Submission "Submission" submissionId orgId
  if submission.status = .archived then raise archivedSubmission
  else
    let snapshot ← configSnapshot configId orgId
    let active ← query (activeCount orgId)
    let org ← fetchOrganization orgId
    if org.maxConcurrentEvaluations ≤ active then raise (limitReached org.maxConcurrentEvaluations)
    else
      let runId ← newKey EvaluationRun
      startRun ctx (underReview ctx.now submission)
        (newRun ctx.now runId submissionId orgId userId configId snapshot runMetadata)
        orgId userId ip

section Contracts

variable (ctx : Context) (submissionId orgId userId : UUID) (body : SubmissionCreate)
  (updates : SubmissionUpdate) (ip : Option String)

abbrev addedSubmission (tables : Tables) : Submission :=
  newSubmission ctx.now (table tables : Table Submission).freshKey orgId userId body

def createContract (tables : Tables) : Contract :=
  insertContract "CREATE"
    (submissionReport (table tables : Table Submission).freshKey orgId userId ip)
    (addedSubmission ctx orgId userId body tables) tables

/-- What the code changes. -/
def appliedContract (tables : Tables) : Contract :=
  changeContract "Submission" "UPDATE" submissionId orgId (updatedRow ctx.now updates)
    (fun submission => submissionReport submission.id orgId userId ip) tables

/-- The row that the caller of an update asked for. -/
def requestedRow (now : Time) (updates : SubmissionUpdate) (submission : Submission) : Submission :=
  { updatedRow now updates submission with
    metadata := updates.metadata.getD submission.metadata }

def updateContract (tables : Tables) : Contract :=
  changeContract "Submission" "UPDATE" submissionId orgId (requestedRow ctx.now updates)
    (fun submission => submissionReport submission.id orgId userId ip) tables

def deleteContract (tables : Tables) : Contract :=
  changeContract "Submission" "DELETE" submissionId orgId (softDeleteSubmission ctx.now)
    (fun submission => submissionReport submission.id orgId userId ip) tables

/-- The update asks for no other metadata than the row has. -/
def KeepsMetadata (tables : Tables) : Prop :=
  ∀ submission ∈ scopedRow Submission submissionId orgId tables,
    ∀ metadata ∈ updates.metadata, metadata = submission.metadata

variable {ctx submissionId orgId userId body updates ip}

theorem createSubmission_follows (db : Database) :
    (createContract ctx orgId userId body ip db.tables).Follows
      (references db.tables (addedSubmission ctx orgId userId body db.tables) = true ∧
        fits (addedSubmission ctx orgId userId body db.tables) = true) ctx db
      ((createSubmission ctx orgId userId body ip).run { state := db }) := by
  rw [createSubmission, run_bind_ok (run_newKey db)]
  exact storeRow_follows_known _ ctx db _ _ _ rfl (by rintro v ⟨⟩) rfl (fun _ hafter => hafter) rfl
    (submissionReport_fits db.tables.submissions.freshKey orgId userId ip) (by decide)

theorem key_updatedRow (now : Time) (submission : Submission) :
    key (updatedRow now updates submission) = key submission := by
  unfold updatedRow stamp
  split <;> rfl

theorem updateSubmission_follows (db : Database) :
    (appliedContract ctx submissionId orgId userId updates ip db.tables).Follows
      (∀ submission ∈ scopedRow Submission submissionId orgId db.tables,
        fits (updatedRow ctx.now updates submission) = true) ctx db
      ((updateSubmission ctx submissionId orgId userId updates ip).run { state := db }) :=
  changeScoped_follows_known ctx db _ _ submissionId orgId _ _ (key_updatedRow ctx.now) (fun _ => rfl)
    (fun _ _ _ => submissionReport_fits _ _ _ _) (by decide)

theorem key_requestedRow (now : Time) (submission : Submission) :
    key (requestedRow now updates submission) = key submission :=
  key_updatedRow now submission

theorem metadata_updatedRow (now : Time) (submission : Submission) :
    (updatedRow now updates submission).metadata = submission.metadata := by
  unfold updatedRow stamp
  split <;> rfl

theorem requestedRow_eq_iff (now : Time) (submission : Submission) :
    requestedRow now updates submission = updatedRow now updates submission ↔
      ∀ metadata ∈ updates.metadata, metadata = submission.metadata := by
  have hrow : (updatedRow now updates submission).metadata = submission.metadata :=
    metadata_updatedRow now submission
  constructor
  · intro heq metadata hmetadata
    have hsame := congrArg Submission.metadata heq
    rw [hrow] at hsame
    simpa [requestedRow, Option.mem_def.1 hmetadata] using hsame
  · intro hkeeps
    have hgetD : updates.metadata.getD submission.metadata = submission.metadata := by
      cases hm : updates.metadata with
      | none => rfl
      | some metadata => exact hkeeps metadata hm
    rw [requestedRow, hgetD, ← hrow]

/-- An update that the code has made is the one asked for exactly when it
asked for no new metadata. -/
theorem requested_iff_keepsMetadata {tables after : Tables}
    (h : (appliedContract ctx submissionId orgId userId updates ip tables).change after) :
    (updateContract ctx submissionId orgId userId updates ip tables).change after ↔
      KeepsMetadata submissionId orgId updates tables := by
  constructor
  · intro hrequested submission hsubmission
    apply (requestedRow_eq_iff ctx.now submission).1
    obtain ⟨t, rfl, hrows⟩ := h submission hsubmission
    obtain ⟨t', hput, hrows'⟩ := hrequested submission hsubmission
    have ht : t' = t := (congrArg Tables.submissions hput).symm
    rw [ht, hrows] at hrows'
    have hmem := (scopedRow_some hsubmission).1
    exact (Table.replaced_inj hmem (key_updatedRow ctx.now submission)
      (key_requestedRow ctx.now submission) hrows').symm
  · intro hkeeps submission hsubmission
    have hrow := (requestedRow_eq_iff ctx.now submission).2 (hkeeps submission hsubmission)
    rw [hrow]
    exact h submission hsubmission

theorem fits_softDeleteSubmission (now : Time) (submission : Submission) :
    fits (softDeleteSubmission now submission) = fits submission := rfl

theorem deleteSubmission_follows (db : Database) :
    (deleteContract ctx submissionId orgId userId ip db.tables).Follows True ctx db
      ((deleteSubmission ctx submissionId orgId userId ip).run { state := db }) := by
  have hchange := changeScoped_follows_known ctx db "Submission" "DELETE" submissionId orgId
    (softDeleteSubmission ctx.now)
    (fun submission => submissionReport submission.id orgId userId ip)
    (fun _ => rfl) (fun _ => rfl) (fun _ _ _ => submissionReport_fits _ _ _ _) (by decide)
  have hcond : ∀ row ∈ scopedRow Submission submissionId orgId db.tables,
      fits (softDeleteSubmission ctx.now row) = true := by
    intro row hrow
    rw [fits_softDeleteSubmission]
    exact db.tables.submissions.fits_of_mem (scopedRow_some hrow).1
  rw [← iff_of_true hcond trivial]
  exact hchange.bind_pure _

end Contracts

end EvalEngine.SubmissionService
