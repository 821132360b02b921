import EvalEngine.RowOperations

namespace EvalEngine.DatasetService

open EvalEngine.JsonValues EvalEngine.Exceptions EvalEngine.RunModel
open EvalEngine.ConstrainedTables EvalEngine.ServiceTables EvalEngine.Transactions
open EvalEngine.AuditService EvalEngine.ServiceContracts EvalEngine.RowOperations
open Entity Stored Contract

def generateDatasetKey (orgId datasetId : UUID) : String :=
  "datasets/" ++ uuidText orgId ++ "/" ++ uuidText datasetId ++ "/data.json"

/-- A failed download counts as a mismatch. -/
def verifyDatasetIntegrity (ctx : Context) (storagePath expectedChecksum : String) : Bool :=
  match ctx.objectChecksum storagePath with
  | some actual => actual == expectedChecksum
  | none => false

def datasetReport (datasetId orgId : UUID) (userId : Option UUID) (ip : Option String) : Report where
  resourceType := "dataset"
  resourceId := datasetId
  organizationId := orgId
  userId
  ipAddress := ip

theorem datasetReport_fits (datasetId orgId : UUID) (userId : Option UUID) (ip : Option String) :
    (datasetReport datasetId orgId userId ip).fits = true :=
  Report.fits_plain (by decide : varchar 100 "dataset" = true) rfl

def newDataset (id orgId userId : UUID) (name : String) (description : Option String)
    (sizeBytes : Int) (metadata : Option Dict) : Dataset where
  id
  name
  description
  organizationId := orgId
  createdById := some userId
  storagePath := generateDatasetKey orgId id
  sizeBytes
  checksum := "pending"
  status := .uploading
  metadata := metadata.getD []

def initiateDatasetUpload (ctx : Context) (orgId userId : UUID) (name : String)
    (description : Option String) (sizeBytes : Int) (metadata : Option Dict) (ip : Option String) :
    Service (Dataset × String) := do
  let datasetId ← newKey Dataset
  let uploadUrl ← external (ctx.presign (generateDatasetKey orgId datasetId))
  let dataset ← storeRow ctx "CREATE" (datasetReport datasetId orgId (some userId) ip)
    (newDataset datasetId orgId userId name description sizeBytes metadata)
  pure (dataset, uploadUrl)

def notUploading (status : DatasetStatus) : PyException :=
  .conflict ("Dataset is in '" ++ status.value ++ "' state, expected 'uploading'")

def checksumMismatch : PyException :=
  .conflict "Checksum verification failed — file may be corrupted"

def withStatus (status : DatasetStatus) (dataset : Dataset) : Dataset := { dataset with status }

def confirmed (checksum : String) (sampleCount : Int) (dataset : Dataset) : Dataset :=
  { dataset with checksum, sampleCount, status := .ready }

def confirmDatasetUpload (ctx : Context) (datasetId orgId : UUID) (checksum : String)
    (sampleCount : Int) (ip : Option String) : Service Dataset := do
  let dataset ← getScoped Dataset "Dataset" datasetId orgId
  if dataset.status ≠ .uploading then raise (notUploading dataset.status)
  else
    flush (updateRow (withStatus .validating dataset))
    if verifyDatasetIntegrity ctx dataset.storagePath checksum then
      changeRow ctx "DATASET_UPLOADED" (datasetReport dataset.id orgId none ip)
        (confirmed checksum sampleCount dataset)
    else
      flush (updateRow (withStatus .failed dataset))
      raise checksumMismatch

def softDeleteDataset (now : Time) (dataset : Dataset) : Dataset :=
  { dataset with deletedAt := some now }

def deleteDataset (ctx : Context) (datasetId orgId userId : UUID) (ip : Option String) :
    Service Unit := do
  let _ ← changeScoped ctx "Dataset" "DATASET_DELETED" datasetId orgId (softDeleteDataset ctx.now)
    (fun dataset => datasetReport dataset.id orgId (some userId) ip)
  pure ()

section Contracts

variable (ctx : Context) (datasetId orgId userId : UUID) (name : String)
  (description : Option String) (sizeBytes : Int) (metadata : Option Dict) (checksum : String)
  (sampleCount : Int) (ip : Option String)

abbrev addedDataset (tables : Tables) : Dataset :=
  newDataset (table tables : Table Dataset).freshKey orgId userId name description sizeBytes metadata

def initiateContract (tables : Tables) : Contract :=
  insertContract "CREATE"
    (datasetReport (table tables : Table Dataset).freshKey orgId (some userId) ip)
    (addedDataset orgId userId name description sizeBytes metadata tables) tables

/-- A URL can be signed, and the row fits the table. -/
def Initiable (tables : Tables) : Prop :=
  (∃ uploadUrl, ctx.presign (generateDatasetKey orgId (table tables : Table Dataset).freshKey) =
    .ok uploadUrl) ∧
  references tables (addedDataset orgId userId name description sizeBytes metadata tables) = true ∧
  fits (addedDataset orgId userId name description sizeBytes metadata tables) = true

def confirmGuard : Option Dataset → Option PyException
  | none => some (.notFound "Dataset" datasetId)
  | some dataset =>
    if dataset.status ≠ .uploading then some (notUploading dataset.status)
    else if verifyDatasetIntegrity ctx dataset.storagePath checksum then none
    else some checksumMismatch

def confirmContract (tables : Tables) : Contract where
  guard := confirmGuard ctx datasetId checksum (scopedRow Dataset datasetId orgId tables)
  change after := ∀ dataset ∈ scopedRow Dataset datasetId orgId tables,
    Updated (confirmed checksum sampleCount dataset) tables after
  entry := (scopedRow Dataset datasetId orgId tables).bind fun dataset =>
    entryOf "DATASET_UPLOADED" (datasetReport dataset.id orgId none ip)
  stated e he := by
    unfold confirmGuard at he
    split at he
    · cases he
      rfl
    · split at he
      · cases he
        rfl
      · split at he
        · cases he
        · cases he
          rfl

def deleteDatasetContract (tables : Tables) : Contract :=
  changeContract "Dataset" "DATASET_DELETED" datasetId orgId (softDeleteDataset ctx.now)
    (fun dataset => datasetReport dataset.id orgId (some userId) ip) tables

variable {ctx datasetId orgId userId name description sizeBytes metadata checksum sampleCount ip}

theorem initiateDatasetUpload_follows (db : Database) :
    (initiateContract orgId userId name description sizeBytes metadata ip db.tables).Follows
      (Initiable ctx orgId userId name description sizeBytes metadata db.tables) ctx db
      ((initiateDatasetUpload ctx orgId userId name description sizeBytes metadata ip).run
        { state := db }) := by
  cases hurl : ctx.presign (generateDatasetKey orgId (table db.tables : Table Dataset).freshKey) with
  | error message =>
    refine .inr ⟨by simp [Initiable, hurl], broken_of_error (e := .failure message) ?_ rfl⟩
    rw [initiateDatasetUpload, run_bind_ok (run_newKey db),
      run_bind_error (run_external_error hurl _)]
  | ok uploadUrl =>
    rw [initiateDatasetUpload, run_bind_ok (run_newKey db),
      run_bind_ok (run_external_ok hurl _)]
    have hstore := storeRow_follows_known
      (initiateContract orgId userId name description sizeBytes metadata ip db.tables) ctx db "CREATE" _
      (addedDataset orgId userId name description sizeBytes metadata db.tables)
      rfl (by rintro v ⟨⟩) rfl (fun _ hafter => hafter) rfl
      (datasetReport_fits db.tables.datasets.freshKey orgId (some userId) ip) (by decide)
    have hcond : Initiable ctx orgId userId name description sizeBytes metadata db.tables ↔
        references db.tables (addedDataset orgId userId name description sizeBytes metadata
          db.tables) = true ∧
        fits (addedDataset orgId userId name description sizeBytes metadata db.tables) = true := by
      simp [Initiable, hurl]
    rw [hcond]
    exact hstore.bind_pure _

theorem fits_withStatus (status : DatasetStatus) (dataset : Dataset) :
    fits (withStatus status dataset) = fits dataset := rfl

/-- A confirmation ends well only where a guard stops it: its audit action does not exist. -/
theorem confirmDatasetUpload_follows (db : Database) :
    (confirmContract ctx datasetId orgId checksum sampleCount ip db.tables).Follows
      ((confirmGuard ctx datasetId checksum
        (scopedRow Dataset datasetId orgId db.tables)).isSome = true) ctx db
      ((confirmDatasetUpload ctx datasetId orgId checksum sampleCount ip).run { state := db }) := by
  cases hrow : scopedRow Dataset datasetId orgId db.tables with
  | none =>
    refine .inl ⟨rfl, kept_of_guard (e := .notFound "Dataset" datasetId) ?_ ?_⟩
    · simp [confirmContract, hrow, confirmGuard]
    · rw [confirmDatasetUpload, run_bind_error (run_getScoped_none _ hrow)]
  | some dataset =>
    have hmem := (scopedRow_some hrow).1
    have hfits : fits dataset = true := db.tables.datasets.fits_of_mem hmem
    rw [confirmDatasetUpload, run_bind_ok (run_getScoped_some _ hrow)]
    by_cases hstatus : dataset.status = .uploading
    · simp only [hstatus, ne_eq, not_true_eq_false, if_false]
      obtain ⟨_, mid, hvalidating, hmid⟩ | ⟨hnot, _⟩ :=
        updateRow_cases (withStatus .validating dataset) db.tables hmem rfl rfl
      · rw [run_bind_ok (run_flush_ok hvalidating)]
        cases hverify : verifyDatasetIntegrity ctx dataset.storagePath checksum with
        | true =>
          have hname : AuditAction.ofName "DATASET_UPLOADED" = none := by decide
          exact .inr ⟨by simp [confirmGuard, hstatus, hverify], changeRow_broken _ ctx _ _ _ _ hname⟩
        | false =>
          have hmem' := mem_of_updated hmid hmem rfl
          obtain ⟨_, after, hfailed, _⟩ | ⟨hnot, _⟩ :=
            updateRow_cases (withStatus .failed dataset) mid hmem' rfl rfl
          · refine .inl ⟨by simp [confirmGuard, hstatus, hverify],
              kept_of_guard (e := checksumMismatch) ?_ ?_⟩
            · simp [confirmContract, hrow, confirmGuard, hstatus, hverify]
            · simp only [Bool.false_eq_true, if_false]
              rw [run_bind_ok (run_flush_ok hfailed), run_raise]
          · rw [fits_withStatus, hfits] at hnot
            cases hnot
      · rw [fits_withStatus, hfits] at hnot
        cases hnot
    · refine .inl ⟨by simp [confirmGuard, hstatus],
        kept_of_guard (e := notUploading dataset.status) ?_ ?_⟩
      · simp [confirmContract, hrow, confirmGuard, hstatus]
      · simp [hstatus]

theorem deleteDataset_follows (db : Database) :
    (deleteDatasetContract ctx datasetId orgId userId ip db.tables).Follows
      (scopedRow Dataset datasetId orgId db.tables = none) ctx db
      ((deleteDataset ctx datasetId orgId userId ip).run { state := db }) := by
  have hchange := changeScoped_follows_missing ctx db "Dataset" "DATASET_DELETED" datasetId orgId
    (softDeleteDataset ctx.now) (fun dataset => datasetReport dataset.id orgId (some userId) ip)
    (fun _ => rfl) (fun _ => rfl) (fun _ _ _ => datasetReport_fits _ _ _ _) (by decide)
  exact hchange.bind_pure _

end Contracts

end EvalEngine.DatasetService
