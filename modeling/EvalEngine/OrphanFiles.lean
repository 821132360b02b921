import EvalEngine.DatasetService
import EvalEngine.ObjectErasure
import EvalEngine.Retention

namespace EvalEngine.OrphanFiles

open EvalEngine.Exceptions EvalEngine.RunModel EvalEngine.ConstrainedTables EvalEngine.ServiceTables
open EvalEngine.DatasetService EvalEngine.PipelineDatabase EvalEngine.Retention
open EvalEngine.ObjectErasure
open EvalEngine.AuditService (Database)

/-- What boto3 raises: an error response of the store, or anything else. -/
inductive S3Error
  | clientError (code : String)
  | other (error : String)

abbrev Objects := String → Bool

/-- The requests that fail, for each key. A deletion that fails may have been
carried out all the same. -/
structure ObjectStore where
  headObject : String → Option S3Error := fun _ => none
  deleteObject : String → Option S3Error := fun _ => none
  carriedOut : String → Bool := fun _ => false

/-- `object_exists`: the error response to a missing object, and any other, is read as False. -/
def objectExists (store : ObjectStore) (key : String) (objects : Objects) : Except S3Error Bool :=
  match store.headObject key with
  | none => .ok (objects key)
  | some (.clientError _) => .ok false
  | some e => .error e

def deleteObject (store : ObjectStore) (key : String) (objects : Objects) :
    Except S3Error Unit × Objects :=
  match store.deleteObject key with
  | none => (.ok (), Function.update objects key false)
  | some e =>
    (.error e, if store.carriedOut key then Function.update objects key false else objects)

def deleteDatasetFiles (store : ObjectStore) (orgId datasetId : UUID) (objects : Objects) :
    Except S3Error Unit × Objects :=
  match objectExists store (generateDatasetKey orgId datasetId) objects with
  | .error e => (.error e, objects)
  | .ok false => (.ok (), objects)
  | .ok true => deleteObject store (generateDatasetKey orgId datasetId) objects

/-- The loop over the expired datasets, as far as the object store is concerned.
Every exception is swallowed. -/
def eraseFiles (store : ObjectStore) : List Dataset → Objects → Objects
  | [], objects => objects
  | ds :: rest, objects =>
    eraseFiles store rest (deleteDatasetFiles store ds.organizationId ds.id objects).2

/-- What is committed in the database, and what the object store holds. -/
structure Committed where
  db : State
  objects : Objects

def expiredDatasets (now : Time) (s : State) : List Dataset :=
  s.db.tables.datasets.rows.filter fun ds => isExpired now ds.deletedAt

/-- What the statements behind the imports leave. The transaction commits, or it
is rolled back when `n` of the datasets have been dealt with. -/
def behindImports (store : ObjectStore) (rolledBack : Option ℕ) (now : Time) (s : Committed) :
    Committed :=
  match rolledBack with
  | none => ⟨hardDelete now s.db, eraseFiles store (expiredDatasets now s.db) s.objects⟩
  | some n => ⟨s.db, eraseFiles store ((expiredDatasets now s.db).take n) s.objects⟩

/-- `_hard_delete_expired_records` with both stores. -/
def hardDeleteRecords (store : ObjectStore) (rolledBack : Option ℕ) (now : Time) (s : Committed) :
    Committed :=
  match hardDeleteExpiredRecords now s.db with
  | .error _ => s
  | .ok _ => behindImports store rolledBack now s

def fileOf (ds : Dataset) : String := generateDatasetKey ds.organizationId ds.id

def stores (s : Committed) : Stores Dataset String := ⟨s.db.db.tables.datasets.rows, s.objects⟩

/-- The object is found, and its deletion is carried out. -/
def erases (store : ObjectStore) (key : String) : Bool :=
  (store.headObject key).isNone && ((store.deleteObject key).isNone || store.carriedOut key)

/-- A transaction that commits has erased the objects of all expired datasets, and
one that is rolled back none. -/
def FollowsCommit (store : ObjectStore) (rolledBack : Option ℕ) (now : Time) (s : Committed) : Prop :=
  match rolledBack with
  | none => ∀ ds ∈ s.db.db.tables.datasets.rows, isExpired now ds.deletedAt = true →
      s.objects (fileOf ds) = true → erases store (fileOf ds) = true
  | some n => ∀ ds ∈ (expiredDatasets now s.db).take n,
      s.objects (fileOf ds) = true → erases store (fileOf ds) = false

variable {store : ObjectStore} {rolledBack : Option ℕ} {now : Time} {s : Committed}

theorem generateDatasetKey_inj {o o' d d' : UUID} (hd : d < 2 ^ 128) (hd' : d' < 2 ^ 128)
    (h : generateDatasetKey o d = generateDatasetKey o' d') : d = d' := by
  have hlist := congrArg String.toList h
  simp only [generateDatasetKey, String.toList_append] at hlist
  have hlen : ∀ o : UUID, ("datasets/".toList ++ (uuidText o).toList ++ "/".toList).length = 46 := by
    intro o
    simp only [List.length_append, String.length_toList, length_uuidText]
    rfl
  have hfront := (List.append_inj' hlist rfl).1
  have hback := (List.append_inj hfront ((hlen o).trans (hlen o').symm)).2
  exact uuidText_inj hd hd' (String.toList_inj.1 hback)

theorem deleteDatasetFiles_snd (orgId datasetId : UUID) (objects : Objects) :
    (deleteDatasetFiles store orgId datasetId objects).2 =
      if erases store (generateDatasetKey orgId datasetId)
      then Function.update objects (generateDatasetKey orgId datasetId) false else objects := by
  cases hhead : store.headObject (generateDatasetKey orgId datasetId) with
  | some e => cases e <;> simp [deleteDatasetFiles, objectExists, erases, hhead]
  | none =>
    cases hpresent : objects (generateDatasetKey orgId datasetId) with
    | false =>
      have hsame : Function.update objects (generateDatasetKey orgId datasetId) false = objects := by
        rw [← hpresent, Function.update_eq_self]
      rw [hsame, ite_self]
      simp [deleteDatasetFiles, objectExists, hhead, hpresent]
    | true =>
      cases hdelete : store.deleteObject (generateDatasetKey orgId datasetId) <;>
        simp [deleteDatasetFiles, objectExists, deleteObject, erases, hhead, hpresent, hdelete]

theorem eraseFiles_eq (datasets : List Dataset) (objects : Objects) :
    eraseFiles store datasets objects = eraseAll fileOf (erases store) datasets objects := by
  induction datasets generalizing objects with
  | nil => rfl
  | cons ds rest ih => rw [eraseFiles, eraseAll, deleteDatasetFiles_snd, ih, fileOf]

theorem hardDelete_datasets (now : Time) (s : State) : (hardDelete now s).db.tables.datasets.rows =
    s.db.tables.datasets.rows.filter fun ds => !isExpired now ds.deletedAt := rfl

theorem fileOf_injOn (h : ∀ ds ∈ s.db.db.tables.datasets.rows, ds.id < 2 ^ 128) :
    Set.InjOn fileOf {ds | ds ∈ s.db.db.tables.datasets.rows} := by
  intro ds hds ds' hds' hkey
  have hid := generateDatasetKey_inj (h ds hds) (h ds' hds') hkey
  exact s.db.db.tables.datasets.eq_of_key hds hds' hid

/-- Behind the imports, rows and objects go together if and only if the object
store happens to do what the transaction does. -/
theorem together_behindImports (h : ∀ ds ∈ s.db.db.tables.datasets.rows, ds.id < 2 ^ 128) :
    Together fileOf (stores s) (stores (behindImports store rolledBack now s)) ↔
      FollowsCommit store rolledBack now s := by
  cases rolledBack with
  | none =>
    rw [FollowsCommit, ← together_removed_iff (fileOf_injOn h), behindImports, stores, stores,
      eraseFiles_eq, hardDelete_datasets]
    rfl
  | some n =>
    have hhandled : ∀ ds ∈ (expiredDatasets now s.db).take n, ds ∈ s.db.db.tables.datasets.rows :=
      fun ds hds => (List.mem_filter.1 (List.mem_of_mem_take hds)).1
    rw [FollowsCommit, ← together_kept_iff hhandled, behindImports, stores, stores, eraseFiles_eq]

/-- The function raises at its imports, and no row and no object is touched. It is
only this that keeps them together: the statements behind the imports would not. -/
theorem erasure_together (store : ObjectStore) (rolledBack : Option ℕ) (now : Time) (s : Committed) :
    Together fileOf (stores s) (stores (hardDeleteRecords store rolledBack now s)) ∧
    ((∀ ds ∈ s.db.db.tables.datasets.rows, ds.id < 2 ^ 128) →
      (Together fileOf (stores s) (stores (behindImports store rolledBack now s)) ↔
        FollowsCommit store rolledBack now s)) := by
  constructor
  · rw [hardDeleteRecords, hardDeleteExpiredRecords_error]
    exact together_refl _
  · exact together_behindImports

section Sample

/-- A dataset that was deleted at the beginning of time. -/
def outdated : Dataset where
  id := 1
  name := "Benchmark"
  organizationId := 1
  createdById := none
  storagePath := generateDatasetKey 1 1
  checksum := "pending"
  deletedAt := some 0

theorem valid_outdated : Valid [outdated] := by
  refine ⟨List.nodup_singleton _, List.nodup_nil, ?_⟩
  intro ds hds
  obtain rfl := List.mem_singleton.1 hds
  decide +kernel

def oneDataset : Committed where
  db := start { Database.created with
    tables := { Tables.empty with datasets := ⟨[outdated], valid_outdated⟩ } }
  objects := fun _ => true

def throttled : ObjectStore where
  headObject := fun _ => some (.clientError "SlowDown")

/-- An object store that answers no request for a time: behind the imports the
row would be deleted, and its object not. -/
theorem erasure_together_throttled :
    Together fileOf (stores oneDataset) (stores (hardDeleteRecords throttled none 10000000 oneDataset)) ∧
      ¬ Together fileOf (stores oneDataset) (stores (behindImports throttled none 10000000 oneDataset)) := by
  have h := erasure_together throttled none 10000000 oneDataset
  have hids : ∀ ds ∈ oneDataset.db.db.tables.datasets.rows, ds.id < 2 ^ 128 := by
    intro ds hds
    obtain rfl := List.mem_singleton.1 hds
    decide
  refine ⟨h.1, ?_⟩
  rw [h.2 hids]
  intro hfollows
  have herased := hfollows outdated (List.mem_singleton_self _) (by decide) rfl
  cases herased

end Sample

end EvalEngine.OrphanFiles
