import EvalEngine.Noninterference
import EvalEngine.ReadServices

namespace EvalEngine.TenantRows

open EvalEngine.Exceptions EvalEngine.RunModel EvalEngine.SubmissionModel
open EvalEngine.ConstrainedTables EvalEngine.ServiceTables EvalEngine.StageTables
open EvalEngine.AuditService EvalEngine.Noninterference
open EvalEngine.PipelineDatabase (State WorkerResultRow)
open EvalEngine.ReadServices (Stamped datasets evaluationConfigs claims isVisible)
open Entity Stored

/-- The organization that a row belongs to; the built-in metrics belong to none. -/
class Tenant (ρ : Type) where
  owner : ρ → Option UUID

open Tenant

instance : Tenant Organization := ⟨fun org => some org.id⟩

instance : Tenant User := ⟨fun user => some user.organizationId⟩

instance : Tenant ApiKey := ⟨fun apiKey => some apiKey.organizationId⟩

instance : Tenant Dataset := ⟨fun dataset => some dataset.organizationId⟩

instance : Tenant Submission := ⟨fun submission => some submission.organizationId⟩

instance : Tenant EvaluationConfig := ⟨fun config => some config.organizationId⟩

instance : Tenant EvaluationRun := ⟨fun run => some run.organizationId⟩

instance : Tenant Metric := ⟨Metric.organizationId⟩

instance : Tenant AuditLog := ⟨fun row => row.organizationId⟩

instance : Tenant WorkerResultRow := ⟨fun row => some row.organizationId⟩

instance : Tenant Claim := ⟨fun claim => some claim.organizationId⟩

instance : Tenant Contradiction := ⟨fun c => some c.organizationId⟩

instance : Tenant Score := ⟨fun score => some score.organizationId⟩

instance {ρ : Type} [Tenant ρ] : Tenant (Stamped ρ) := ⟨fun stamped => owner stamped.row⟩

section Rows

variable {ρ : Type} [Tenant ρ]

/-- The rows whose owner is to be kept. -/
def kept (keep : Option UUID → Bool) (rows : List ρ) : List ρ := rows.filter fun row => keep (owner row)

end Rows

def isTenant (orgId : UUID) (org : Option UUID) : Bool := decide (org = some orgId)

def isOther (orgId : UUID) (org : Option UUID) : Bool := !isTenant orgId org

/-- Rows of all tables. -/
@[ext]
structure Rows where
  organizations : List Organization
  users : List User
  apiKeys : List ApiKey
  datasets : List (Stamped Dataset)
  submissions : List Submission
  evaluationConfigs : List (Stamped EvaluationConfig)
  evaluationRuns : List EvaluationRun
  metrics : List Metric
  workerResults : List WorkerResultRow
  claims : List (Stamped Claim)
  contradictions : List Contradiction
  scores : List Score
  auditLogs : List AuditLog

def rowsOf (keep : Option UUID → Bool) (s : State) : Rows where
  organizations := kept keep s.db.tables.organizations.rows
  users := kept keep s.db.tables.users.rows
  apiKeys := kept keep s.db.tables.apiKeys.rows
  datasets := kept keep (datasets s)
  submissions := kept keep s.db.tables.submissions.rows
  evaluationConfigs := kept keep (evaluationConfigs s)
  evaluationRuns := kept keep s.runs.rows
  metrics := kept keep s.db.tables.metrics.rows
  workerResults := kept keep s.workerResults.rows
  claims := kept keep (claims s)
  contradictions := kept keep s.store.contradictions
  scores := kept keep s.store.scores
  auditLogs := kept keep s.db.auditLogs

/-- Two states have the same rows of an organization, in the order in which
they are stored, and show it the same built-in metrics among its own. -/
structure Agree (orgId : UUID) (s t : State) : Prop where
  rows : rowsOf (isTenant orgId) s = rowsOf (isTenant orgId) t
  metrics : s.db.tables.metrics.rows.filter (isVisible orgId) =
    t.db.tables.metrics.rows.filter (isVisible orgId)

/-- The rows of every other organization, and those of none, are as they were. -/
def OthersUnchanged (orgId : UUID) (s t : State) : Prop :=
  rowsOf (isOther orgId) t = rowsOf (isOther orgId) s

/-- The run is there and belongs to the organization. -/
def RunOf (s : State) (runId orgId : UUID) : Prop :=
  ∃ run ∈ s.runs.rows, run.id = runId ∧ run.organizationId = orgId

/-- The run is there, with the organization and the submission. -/
def SubmittedAs (s : State) (runId orgId submissionId : UUID) : Prop :=
  ∃ run ∈ s.runs.rows, run.id = runId ∧ run.organizationId = orgId ∧ run.submissionId = submissionId

/-- The claim is there and belongs to the run. -/
def ClaimOf (s : State) (claimId runId : UUID) : Prop :=
  ∃ claim ∈ s.store.claims, claim.id = claimId ∧ claim.evaluationRunId = runId

/-- What the pipeline writes carries the organization of its run, a claim the
submission of its run, and a contradiction two claims of its run. -/
structure Inherits (s : State) : Prop where
  workerResults : ∀ row ∈ s.workerResults.rows, RunOf s row.evaluationRunId row.organizationId
  claims : ∀ claim ∈ s.store.claims,
    SubmittedAs s claim.evaluationRunId claim.organizationId claim.submissionId
  contradictions : ∀ c ∈ s.store.contradictions, RunOf s c.evaluationRunId c.organizationId ∧
    ClaimOf s c.claimAId c.evaluationRunId ∧ ClaimOf s c.claimBId c.evaluationRunId
  scores : ∀ score ∈ s.store.scores, RunOf s score.evaluationRunId score.organizationId

end EvalEngine.TenantRows
