import EvalEngine.CascadeDeletion
import EvalEngine.PipelineDatabase

namespace EvalEngine.Retention

open EvalEngine.JsonValues EvalEngine.Exceptions EvalEngine.RunModel EvalEngine.ConstrainedTables
open EvalEngine.ServiceTables EvalEngine.SubmissionModel EvalEngine.StageTables
open EvalEngine.PipelineDatabase EvalEngine.CascadeDeletion
open EvalEngine.AuditService (Database)
open EvalEngine.RunWriters (cleanupStaleRuns staleRunHours)
open Entity

def retentionDays : Nat := 30

/-- `deleted_at IS NOT NULL AND deleted_at < cutoff` -/
def isExpired (now : Time) (deletedAt : Option Time) : Bool :=
  deletedAt.any fun t => decide (t + retentionDays * 86400 < now)

theorem valid_filter {ρ : Type} [Entity ρ] (keep : ρ → Bool) (table : Table ρ) :
    Valid (table.rows.filter keep) := by
  obtain ⟨hkeys, hindexed, hfits⟩ := table.valid
  refine ⟨?_, ?_, ?_⟩
  · exact hkeys.sublist (List.filter_sublist.map key)
  · exact hindexed.sublist (List.filter_sublist.filterMap indexed)
  · intro row hrow
    exact hfits row (List.mem_filter.1 hrow).1

/-- DELETE of the rows that are not kept. -/
def keepRows {ρ : Type} [Entity ρ] (keep : ρ → Bool) (table : Table ρ) : Table ρ :=
  ⟨table.rows.filter keep, valid_filter keep table⟩

/-- The claims and the contradictions that the removal of runs leaves: a
contradiction goes with its run and with either of its claims. -/
def keepsClaim (runs : List UUID) (claim : Claim) : Bool := !runs.contains claim.evaluationRunId

def keepsContradiction (runs claims : List UUID) (c : Contradiction) : Bool :=
  !runs.contains c.evaluationRunId && !claims.contains c.claimAId && !claims.contains c.claimBId

def claimsOf (runs : List UUID) (store : Store) : List UUID :=
  (store.claims.filter fun claim => !keepsClaim runs claim).map Claim.id

def deleteOutputs (runs : List UUID) (store : Store) : Store :=
  { store with
    claims := store.claims.filter (keepsClaim runs)
    contradictions := store.contradictions.filter (keepsContradiction runs (claimsOf runs store))
    scores := store.scores.filter fun score => !runs.contains score.evaluationRunId
    keys := store.keys.sublist (List.filter_sublist.map Claim.id)
    fresh := fun claim hclaim => store.fresh claim (List.mem_filter.1 hclaim).1 }

def expiredRuns (now : Time) (s : State) : List UUID :=
  (s.runs.rows.filter fun run => isExpired now run.deletedAt).map EvaluationRun.id

/-- DELETE FROM evaluation_runs, with the rows that reference them. -/
def deleteRuns (now : Time) (s : State) : State :=
  { s.put (keepRows (fun run => !isExpired now run.deletedAt) s.runs) with
    workerResults := keepRows
      (fun row => !(expiredRuns now s).contains row.evaluationRunId) s.workerResults
    store := deleteOutputs (expiredRuns now s) s.store }

/-- ON DELETE SET NULL of `evaluation_runs.config_id`. -/
def forgetConfigs (configs : List UUID) (run : EvaluationRun) : EvaluationRun :=
  { run with configId := run.configId.filter fun id => !configs.contains id }

theorem valid_forgetConfigs (configs : List UUID) (runs : Table EvaluationRun) :
    Valid (runs.rows.map (forgetConfigs configs)) := by
  obtain ⟨hkeys, hindexed, hfits⟩ := runs.valid
  refine ⟨?_, ?_, ?_⟩
  · rw [List.map_map]
    exact hkeys
  · rw [List.filterMap_map]
    exact hindexed
  · intro row hrow
    obtain ⟨run, hrun, rfl⟩ := List.mem_map.1 hrow
    exact hfits run hrun

/-- DELETE FROM evaluation_configs. -/
def deleteConfigs (now : Time) (s : State) : State :=
  let configs := s.db.tables.evaluationConfigs
  let gone := (configs.rows.filter fun config => isExpired now config.deletedAt).map EvaluationConfig.id
  let runs : Table EvaluationRun := ⟨s.runs.rows.map (forgetConfigs gone), valid_forgetConfigs gone s.runs⟩
  (s.put runs).put (keepRows (fun config => !isExpired now config.deletedAt) configs)

/-- `await db.delete(ds)` for each expired dataset; what the object store does
with the file does not matter. -/
def deleteDatasets (now : Time) (s : State) : State :=
  s.put (keepRows (fun dataset => !isExpired now dataset.deletedAt) s.db.tables.datasets)

/-- The deletions of `_hard_delete_expired_records`. The first one, of
`EvaluationResult`, names no table. -/
def hardDelete (now : Time) (s : State) : State :=
  deleteDatasets now (deleteConfigs now (deleteRuns now s))

/-- The names that the modules of the source define at their top level. -/
def definedNames : String → List String
  | "src.database" => ["get_engine", "get_session_factory", "get_db_session",
      "get_standalone_session", "set_org_context", "init_engine", "dispose_engine"]
  | "src.models.dataset" => ["DatasetStatus", "Dataset"]
  | "src.models.evaluation" => ["EvaluationConfig", "RunStatus", "EvaluationRun"]
  | "src.models.organization" => ["PlanTier", "Organization"]
  | "src.models.user" => ["UserRole", "ROLE_HIERARCHY", "User"]
  | "src.services.storage_service" => ["generate_dataset_key", "generate_export_key",
      "get_dataset_upload_url", "get_dataset_download_url", "get_export_download_url",
      "upload_export_data", "verify_dataset_integrity", "delete_dataset_files"]
  | _ => []

def importError (module name : String) : PyException :=
  .failure ("cannot import name '" ++ name ++ "' from '" ++ module ++ "'")

/-- `from module import ...` -/
def importNames (module : String) (names : List String) : Except PyException Unit :=
  match names.find? fun name => !(definedNames module).contains name with
  | some name => .error (importError module name)
  | none => .ok ()

def hardDeleteExpiredRecords (now : Time) (s : State) : Except PyException State := do
  importNames "src.database" ["get_standalone_session"]
  importNames "src.models.dataset" ["Dataset"]
  importNames "src.models.evaluation" ["EvaluationConfig", "EvaluationResult", "EvaluationRun"]
  importNames "src.models.organization" ["Organization"]
  importNames "src.models.user" ["User"]
  importNames "src.services.storage_service" ["delete_dataset_files"]
  pure (hardDelete now s)

def markStaleRuns (now : Time) (s : State) : Except PyException State := do
  importNames "src.database" ["get_standalone_session"]
  importNames "src.models.evaluation" ["EvaluationRun", "RunStatus"]
  pure (s.write (s.runs.rows.map (cleanupStaleRuns now)))

/-- How the task ends. `self.retry` raises `Retry`, or the exception itself when
the one retry is used up. -/
inductive Outcome
  | completed
  | retry (exc : PyException)
  | failed (exc : PyException)

def maxRetries : Nat := 1

def retry (retries : Nat) (exc : PyException) : Outcome :=
  if retries < maxRetries then .retry exc else .failed exc

/-- `run_maintenance`: each phase has its own transaction. -/
def runMaintenance (retries : Nat) (now : Time) (s : State) : Outcome × State :=
  match hardDeleteExpiredRecords now s with
  | .error exc => (retry retries exc, s)
  | .ok s =>
    match markStaleRuns now s with
    | .error exc => (retry retries exc, s)
    | .ok s => (.completed, s)

inductive Model
  | organization
  | user
  | submission
  | evaluationConfig
  | evaluationRun
  | workerResult
  | claim
  | contradiction
  | dataset
  deriving DecidableEq, Repr

abbrev Key := Model × UUID

/-- The rows of the soft-deletable models, with the foreign keys that cascade. -/
def records (now : Time) (s : State) : List (Record Key) :=
  s.db.tables.organizations.rows.map (fun org =>
    ⟨(.organization, org.id), isExpired now org.deletedAt, []⟩) ++
  (s.db.tables.users.rows.map (fun user =>
    ⟨(.user, user.id), isExpired now user.deletedAt, [(.organization, user.organizationId)]⟩) ++
  (s.db.tables.submissions.rows.map (fun submission =>
    ⟨(.submission, submission.id), isExpired now submission.deletedAt,
      [(.organization, submission.organizationId)]⟩) ++
  (s.db.tables.evaluationConfigs.rows.map (fun config =>
    ⟨(.evaluationConfig, config.id), isExpired now config.deletedAt,
      [(.organization, config.organizationId)]⟩) ++
  (s.runs.rows.map (fun run =>
    ⟨(.evaluationRun, run.id), isExpired now run.deletedAt,
      [(.submission, run.submissionId), (.organization, run.organizationId)]⟩) ++
  (s.workerResults.rows.map (fun row =>
    ⟨(.workerResult, row.id), isExpired now row.deletedAt,
      [(.evaluationRun, row.evaluationRunId), (.organization, row.organizationId)]⟩) ++
  (s.store.claims.map (fun claim =>
    ⟨(.claim, claim.id), isExpired now claim.deletedAt,
      [(.evaluationRun, claim.evaluationRunId), (.submission, claim.submissionId),
        (.organization, claim.organizationId)]⟩) ++
  (s.store.contradictions.map (fun c =>
    ⟨(.contradiction, c.id), isExpired now c.deletedAt,
      [(.evaluationRun, c.evaluationRunId), (.organization, c.organizationId),
        (.claim, c.claimAId), (.claim, c.claimBId)]⟩) ++
  s.db.tables.datasets.rows.map (fun dataset =>
    ⟨(.dataset, dataset.id), isExpired now dataset.deletedAt,
      [(.organization, dataset.organizationId)]⟩))))))))

/-- What one run of the maintenance task owes: it ends normally, nothing
expired is left, only expired rows and what cascades from them are removed, and
no run is pending or running for more than a day. -/
structure Retains (now : Time) (s : State) (result : Outcome × State) : Prop where
  completed : result.1 = .completed
  purged : ∀ r ∈ records now result.2, r.expired = false
  spares : Spares (records now s) (records now result.2)
  settled : ∀ run ∈ result.2.runs.rows,
    run.isTerminal = true ∨ now ≤ run.createdAt + staleRunHours * 3600

section Body

variable {now : Time} {s : State}

theorem mem_keys_run {id : UUID} :
    (Model.evaluationRun, id) ∈ keys (records now s) ↔ ∃ run ∈ s.runs.rows, run.id = id := by
  simp [keys, records]

theorem mem_keys_claim {id : UUID} :
    (Model.claim, id) ∈ keys (records now s) ↔ ∃ claim ∈ s.store.claims, claim.id = id := by
  simp [keys, records]

/-- An expired run has been there, and no run has its key any more. -/
theorem run_gone {id : UUID} (h : id ∈ expiredRuns now s) :
    (Model.evaluationRun, id) ∈ keys (records now s) ∧
      (Model.evaluationRun, id) ∉ keys (records now (deleteRuns now s)) := by
  obtain ⟨run, hrun, rfl⟩ := List.mem_map.1 h
  obtain ⟨hmem, hexpired⟩ := List.mem_filter.1 hrun
  refine ⟨mem_keys_run.2 ⟨run, hmem, rfl⟩, ?_⟩
  intro hafter
  obtain ⟨other, hother, hid⟩ := mem_keys_run.1 hafter
  obtain ⟨hold, hkept⟩ := List.mem_filter.1 hother
  obtain rfl := s.runs.eq_of_key hold hmem hid
  rw [hexpired] at hkept
  cases hkept

theorem claim_gone {id : UUID} (h : id ∈ claimsOf (expiredRuns now s) s.store) :
    (Model.claim, id) ∈ keys (records now s) ∧
      (Model.claim, id) ∉ keys (records now (deleteRuns now s)) := by
  obtain ⟨claim, hclaim, rfl⟩ := List.mem_map.1 h
  obtain ⟨hmem, hgone⟩ := List.mem_filter.1 hclaim
  refine ⟨mem_keys_claim.2 ⟨claim, hmem, rfl⟩, ?_⟩
  intro hafter
  obtain ⟨other, hother, hid⟩ := mem_keys_claim.1 hafter
  obtain ⟨hold, hkept⟩ := List.mem_filter.1 hother
  obtain rfl := List.inj_on_of_nodup_map s.store.keys hold hmem hid
  rw [hkept] at hgone
  cases hgone

theorem spares_deleteRuns : Spares (records now s) (records now (deleteRuns now s)) := by
  have hrun : ∀ id, (expiredRuns now s).contains id = true → ∀ r : Record Key,
      (Model.evaluationRun, id) ∈ r.parents →
        Accounted (records now s) (records now (deleteRuns now s)) r := by
    intro id hid r hr
    exact .inr ⟨_, hr, run_gone (List.contains_iff_mem.1 hid)⟩
  have hclaim : ∀ id, (claimsOf (expiredRuns now s) s.store).contains id = true →
      ∀ r : Record Key, (Model.claim, id) ∈ r.parents →
        Accounted (records now s) (records now (deleteRuns now s)) r := by
    intro id hid r hr
    exact .inr ⟨_, hr, claim_gone (List.contains_iff_mem.1 hid)⟩
  apply (Part.refl _).append
  apply (Part.refl _).append
  apply (Part.refl _).append
  apply (Part.refl _).append
  apply Part.append
  · apply part_filter
    intro run _ hgone
    exact .inl (by simpa using hgone)
  apply Part.append
  · apply part_filter
    intro row _ hgone
    exact hrun row.evaluationRunId (by simpa using hgone) _ (by simp)
  apply Part.append
  · apply part_filter
    intro claim _ hgone
    exact hrun claim.evaluationRunId (by simpa [keepsClaim] using hgone) _ (by simp)
  refine Part.append ?_ (Part.refl _)
  apply part_filter
  intro c _ hgone
  simp only [keepsContradiction, Bool.and_eq_false_iff, Bool.not_eq_false'] at hgone
  obtain (hgone | hgone) | hgone := hgone
  · exact hrun c.evaluationRunId hgone _ (by simp)
  · exact hclaim c.claimAId hgone _ (by simp)
  · exact hclaim c.claimBId hgone _ (by simp)

theorem spares_deleteConfigs : Spares (records now s) (records now (deleteConfigs now s)) := by
  have hruns : (deleteConfigs now s).runs.rows.map (fun run =>
      (⟨(Model.evaluationRun, run.id), isExpired now run.deletedAt,
        [(.submission, run.submissionId), (.organization, run.organizationId)]⟩ : Record Key)) =
      s.runs.rows.map (fun run => ⟨(Model.evaluationRun, run.id), isExpired now run.deletedAt,
        [(.submission, run.submissionId), (.organization, run.organizationId)]⟩) :=
    List.map_map
  unfold Spares records
  rw [hruns]
  apply (Part.refl _).append
  apply (Part.refl _).append
  apply (Part.refl _).append
  refine Part.append ?_ (Part.refl _)
  apply part_filter
  intro config _ hgone
  exact .inl (by simpa using hgone)

theorem spares_deleteDatasets : Spares (records now s) (records now (deleteDatasets now s)) := by
  iterate 8 apply (Part.refl _).append
  apply part_filter
  intro dataset _ hgone
  exact .inl (by simpa using hgone)

/-- Behind its imports the deletion removes nothing that it should not. -/
theorem spares_hardDelete : Spares (records now s) (records now (hardDelete now s)) :=
  (spares_deleteRuns.trans spares_deleteConfigs).trans spares_deleteDatasets

/-- It never looks at the organizations, the users and the submissions: the
expired ones would stay. -/
theorem hardDelete_keeps : (hardDelete now s).db.tables.organizations = s.db.tables.organizations ∧
    (hardDelete now s).db.tables.users = s.db.tables.users ∧
    (hardDelete now s).db.tables.submissions = s.db.tables.submissions :=
  ⟨rfl, rfl, rfl⟩

end Body

theorem hardDeleteExpiredRecords_error (now : Time) (s : State) :
    hardDeleteExpiredRecords now s =
      .error (importError "src.models.evaluation" "EvaluationResult") := rfl

/-- The task fails at an import before it opens a transaction. -/
theorem run_maintenance_error (retries : Nat) (now : Time) (s : State) :
    runMaintenance retries now s =
      (retry retries (importError "src.models.evaluation" "EvaluationResult"), s) := rfl

theorem retry_ne_completed (retries : Nat) (exc : PyException) :
    retry retries exc ≠ .completed := by
  unfold retry
  split <;> exact Outcome.noConfusion

/-- No run of the task meets what it owes, whatever the database and the time. -/
theorem retention_never (retries : Nat) (now : Time) (s : State) :
    ¬ Retains now s (runMaintenance retries now s) := by
  intro h
  have hcompleted := h.completed
  rw [run_maintenance_error] at hcompleted
  exact retry_ne_completed retries _ hcompleted

theorem retention_empty : ¬ ∀ retries now s, Retains now s (runMaintenance retries now s) := by
  intro h
  have hcompleted := (h 0 0 (start .created)).completed
  cases hcompleted

end EvalEngine.Retention
