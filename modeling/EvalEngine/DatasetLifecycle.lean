import EvalEngine.TenantWrites

namespace EvalEngine.DatasetLifecycle

open EvalEngine.JsonValues EvalEngine.Exceptions EvalEngine.ConstrainedTables
open EvalEngine.ServiceTables EvalEngine.Transactions EvalEngine.AuditService
open EvalEngine.ServiceContracts EvalEngine.DatasetService EvalEngine.ServiceRequests
open EvalEngine.TenantWrites (serve_cases)
open Stored

inductive DatasetOperation
  | initiate (orgId userId : UUID) (name : String) (description : Option String) (sizeBytes : Int)
      (metadata : Option Dict)
  | confirm (datasetId orgId : UUID) (checksum : String) (sampleCount : Int)
  | delete (datasetId orgId userId : UUID)

def DatasetOperation.operation : DatasetOperation → Operation
  | .initiate orgId userId name description sizeBytes metadata =>
    .initiateDatasetUpload orgId userId name description sizeBytes metadata
  | .confirm datasetId orgId checksum sampleCount =>
    .confirmDatasetUpload datasetId orgId checksum sampleCount
  | .delete datasetId orgId userId => .deleteDataset datasetId orgId userId

/-- A request with the clock and the object store that it meets. -/
structure DatasetRequest where
  ctx : Context
  request : Request
  uuid4 : UUID
  operation : DatasetOperation

/-- Each request runs in a session of its own. -/
def committed (db : Database) (requests : List DatasetRequest) : Database :=
  requests.foldl (fun db r => (serve r.ctx r.request r.uuid4 r.operation.operation db).2) db

/-- The verification is reached and fails. -/
def FailsVerification (db : Database) (r : DatasetRequest) (datasetId : UUID) : Prop :=
  ∃ orgId checksum sampleCount dataset,
    r.operation = .confirm datasetId orgId checksum sampleCount ∧
    scopedRow Dataset datasetId orgId db.tables = some dataset ∧ dataset.status = .uploading ∧
    verifyDatasetIntegrity r.ctx dataset.storagePath checksum = false

/-- A confirm request that gave the SHA-256 of the object stored at its time. -/
def Confirms (dataset : Dataset) (r : DatasetRequest) : Prop :=
  ∃ orgId checksum sampleCount, r.operation = .confirm dataset.id orgId checksum sampleCount ∧
    r.ctx.objectChecksum dataset.storagePath = some checksum

/-- READY is confirmed, a failed verification is final, and nothing is left validating. -/
structure Durable (db : Database) (requests : List DatasetRequest) : Prop where
  ready : ∀ before later, requests = before ++ later →
    ∀ dataset ∈ (committed db before).tables.datasets.rows, dataset.status = .ready →
      ∃ r ∈ before, Confirms dataset r
  validating : ∀ before later, requests = before ++ later →
    ∀ dataset ∈ (committed db before).tables.datasets.rows, dataset.status ≠ .validating
  failed : ∀ before r mid later datasetId, requests = before ++ r :: (mid ++ later) →
    FailsVerification (committed db before) r datasetId →
    (∀ dataset ∈ (committed db (before ++ [r])).tables.datasets.rows, dataset.id = datasetId →
      dataset.status = .failed) ∧
    ∀ dataset ∈ (committed db (before ++ r :: mid)).tables.datasets.rows, dataset.id = datasetId →
      dataset.status ≠ .ready

def Verified (db : Database) (requests : List DatasetRequest) : Prop :=
  ∀ before r later datasetId, requests = before ++ r :: later →
    ¬ FailsVerification (committed db before) r datasetId

/-- An operation that a guard stops, or that its code breaks, is rolled back. -/
theorem serve_of_stopped {ctx : Context} {request : Request} {uuid4 : UUID} {op : Operation}
    {db : Database} (h : ∀ ctx' ip, op.Runs ctx' db.tables →
      (op.codeContract ctx' ip db.tables).guard ≠ none) :
    (serve ctx request uuid4 op db).2 = db := by
  unfold serve
  cases hrun : (op.run { ctx with requestId := correlationId request uuid4 }
      (some (getClientIp request))).run { state := db } with
  | mk r t =>
    cases r with
    | error e => exact congrArg Prod.snd (transact_error hrun)
    | ok a =>
      obtain ⟨hruns, hguard, -⟩ := (op.run_follows _ _ db).of_ok (congrArg Prod.fst hrun)
      exact absurd hguard (h _ _ hruns)

theorem serve_confirm (ctx : Context) (request : Request) (uuid4 datasetId orgId : UUID)
    (checksum : String) (sampleCount : Int) (db : Database) :
    (serve ctx request uuid4 (.confirmDatasetUpload datasetId orgId checksum sampleCount) db).2 =
      db := by
  apply serve_of_stopped
  intro ctx' ip hruns hguard
  have hstopped : (confirmGuard ctx' datasetId checksum
      (scopedRow Dataset datasetId orgId db.tables)).isSome = true := hruns
  have hopen : confirmGuard ctx' datasetId checksum
      (scopedRow Dataset datasetId orgId db.tables) = none := hguard
  rw [hopen] at hstopped
  cases hstopped

theorem serve_delete (ctx : Context) (request : Request) (uuid4 datasetId orgId userId : UUID)
    (db : Database) : (serve ctx request uuid4 (.deleteDataset datasetId orgId userId) db).2 = db := by
  apply serve_of_stopped
  intro ctx' ip hruns hguard
  have hmissing : scopedRow Dataset datasetId orgId db.tables = none := hruns
  have hfound := AuditCommit.scopedRow_of_guard hguard
  rw [hmissing] at hfound
  cases hfound

/-- The committed datasets are those that were initiated, and all are uploading. -/
theorem serve_uploading (r : DatasetRequest) {db : Database}
    (h : ∀ dataset ∈ db.tables.datasets.rows, dataset.status = .uploading) :
    ∀ dataset ∈ (serve r.ctx r.request r.uuid4 r.operation.operation db).2.tables.datasets.rows,
      dataset.status = .uploading := by
  cases hop : r.operation with
  | confirm datasetId orgId checksum sampleCount =>
    rw [DatasetOperation.operation, serve_confirm]
    exact h
  | delete datasetId orgId userId =>
    rw [DatasetOperation.operation, serve_delete]
    exact h
  | initiate orgId userId name description sizeBytes metadata =>
    rw [DatasetOperation.operation]
    obtain hsame | ⟨tables, ctx', ip, _, _, hchange, hafter⟩ := serve_cases r.ctx r.request r.uuid4
      (.initiateDatasetUpload orgId userId name description sizeBytes metadata) db
    · rw [hsame]
      exact h
    · rw [hafter, Contract.close_tables]
      obtain ⟨t, rfl, hrows⟩ := hchange
      have hdatasets : (put t db.tables).datasets.rows = db.tables.datasets.rows ++
          [addedDataset orgId userId name description sizeBytes metadata db.tables] := hrows
      rw [hdatasets]
      intro dataset hmem
      cases List.mem_append.1 hmem with
      | inl hold => exact h dataset hold
      | inr hnew =>
        rw [List.mem_singleton.1 hnew]
        rfl

theorem committed_uploading {db : Database} (h : db.tables.datasets.rows = [])
    (requests : List DatasetRequest) :
    ∀ dataset ∈ (committed db requests).tables.datasets.rows, dataset.status = .uploading := by
  have hrun : ∀ db : Database, (∀ dataset ∈ db.tables.datasets.rows, dataset.status = .uploading) →
      ∀ dataset ∈ (committed db requests).tables.datasets.rows, dataset.status = .uploading := by
    induction requests with
    | nil => exact fun _ hdb => hdb
    | cons r requests ih => exact fun db hdb => ih _ (serve_uploading r hdb)
  apply hrun
  intro dataset hmem
  rw [h] at hmem
  cases hmem

/-- The status that a failed verification writes is rolled back with its session. -/
theorem committed_failsVerification {db : Database} {r : DatasetRequest} {datasetId : UUID}
    (h : FailsVerification db r datasetId) :
    (serve r.ctx r.request r.uuid4 r.operation.operation db).2 = db := by
  obtain ⟨orgId, checksum, sampleCount, dataset, hop, -⟩ := h
  rw [hop, DatasetOperation.operation, serve_confirm]

theorem failsVerification_of_mismatch {db : Database} {r : DatasetRequest} {datasetId orgId : UUID}
    {checksum : String} {sampleCount : Int}
    (huploading : ∀ dataset ∈ db.tables.datasets.rows, dataset.status = .uploading)
    (hop : r.operation = .confirm datasetId orgId checksum sampleCount)
    (hsome : (scopedRow Dataset datasetId orgId db.tables).isSome = true)
    (hverify : ∀ path, verifyDatasetIntegrity r.ctx path checksum = false) :
    FailsVerification db r datasetId := by
  obtain ⟨dataset, hrow⟩ := Option.isSome_iff_exists.1 hsome
  exact ⟨orgId, checksum, sampleCount, dataset, hop, hrow,
    huploading dataset (scopedRow_some hrow).1, hverify dataset.storagePath⟩

theorem not_durable {db : Database} {requests before later : List DatasetRequest}
    {r : DatasetRequest} {datasetId : UUID} (hrequests : requests = before ++ r :: later)
    (hfails : FailsVerification (committed db before) r datasetId) : ¬ Durable db requests := by
  intro h
  have hfailed := (h.failed before r [] later datasetId hrequests hfails).1
  have hsame : committed db (before ++ [r]) = committed db before := by
    rw [committed, List.foldl_append]
    exact committed_failsVerification hfails
  obtain ⟨orgId, checksum, sampleCount, dataset, -, hrow, hstatus, -⟩ := hfails
  obtain ⟨hmem, hkey, -⟩ := scopedRow_some hrow
  rw [hsame] at hfailed
  have hcontra := hfailed dataset hmem hkey
  rw [hstatus] at hcontra
  cases hcontra

theorem dataset_lifecycle (db : Database) (hempty : db.tables.datasets.rows = [])
    (requests : List DatasetRequest) : Durable db requests ↔ Verified db requests := by
  constructor
  · intro h before r later datasetId hrequests hfails
    exact not_durable hrequests hfails h
  · intro h
    constructor
    · intro before later _ dataset hmem hready
      have huploading := committed_uploading hempty before dataset hmem
      rw [hready] at huploading
      cases huploading
    · intro before later _ dataset hmem hvalidating
      have huploading := committed_uploading hempty before dataset hmem
      rw [hvalidating] at huploading
      cases huploading
    · intro before r mid later datasetId hrequests hfails
      exact absurd hfails (h before r (mid ++ later) datasetId hrequests)

section Sample

def upload : DatasetRequest :=
  ⟨sampleContext, {}, 2, .initiate 1 1 "Benchmark" none 4 none⟩

/-- The object store has another file than the one that is confirmed. -/
def corrupted : DatasetRequest :=
  ⟨{ sampleContext with objectChecksum := fun _ => some "9f86d081" }, {}, 3,
    .confirm 1 1 "e3b0c442" 10⟩

theorem dataset_lifecycle_registered :
    Durable registered [upload, corrupted] ↔ Verified registered [upload, corrupted] :=
  dataset_lifecycle registered rfl [upload, corrupted]

/-- After a failed verification the dataset is still uploading. -/
theorem dataset_lifecycle_corrupted :
    ¬ ∀ (db : Database) (requests : List DatasetRequest), db.tables.datasets.rows = [] →
      Durable db requests := by
  intro h
  have hsome : (scopedRow Dataset 1 1 (committed registered [upload]).tables).isSome = true := by
    decide +kernel
  have hverify : ∀ path, verifyDatasetIntegrity corrupted.ctx path "e3b0c442" = false := by
    intro path
    change ("9f86d081" == "e3b0c442") = false
    decide
  have hfails := failsVerification_of_mismatch (committed_uploading rfl [upload]) rfl hsome hverify
  exact @not_durable registered _ [upload] [] corrupted 1 rfl hfails
    (h registered [upload, corrupted] rfl)

end Sample

end EvalEngine.DatasetLifecycle
