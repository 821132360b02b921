import EvalEngine.AuditService
import EvalEngine.QueryResults

namespace EvalEngine.ServiceContracts

open EvalEngine.JsonValues EvalEngine.Exceptions EvalEngine.RunModel EvalEngine.QueryResults
open EvalEngine.SubmissionModel EvalEngine.ConstrainedTables EvalEngine.ServiceTables
open EvalEngine.Transactions EvalEngine.AuditService
open Entity Stored

/-- What an operation owes from given tables: the guard that stops it, or the
change of the tables and the audit entry. -/
structure Contract where
  guard : Option PyException
  change : Tables → Prop
  entry : Option AuditEntry
  stated : ∀ e ∈ guard, e.isGuard = true

namespace Contract

theorem stated_none : ∀ e ∈ (none : Option PyException), e.isGuard = true := by simp

variable {α : Type} {c : Contract} {cond : Prop} {ctx : Context} {db : Database}
  {r : Except PyException α × Transaction Database}

/-- It stops at the guard, or it returns with its change in the session. -/
def Met (c : Contract) (r : Except PyException α × Transaction Database) : Prop :=
  match c.guard with
  | some e => r.1 = .error e
  | none => (∃ a, r.1 = .ok a) ∧ c.change r.2.state.tables

/-- The session when the operation returns. -/
def close (c : Contract) (ctx : Context) (db : Database) : Transaction Database :=
  match c.entry with
  | some entry => logged ctx entry db
  | none => { state := db }

/-- The contract is met, and the audit entry was the last thing sent. -/
def Kept (c : Contract) (ctx : Context) (db : Database)
    (r : Except PyException α × Transaction Database) : Prop :=
  match c.guard with
  | some e => r.1 = .error e
  | none => ∃ a tables, c.change tables ∧ (∀ entry ∈ c.entry, entry.fits = true) ∧
      r = (.ok a, c.close ctx { db with tables })

/-- An exception escapes that no guard raises in this state. -/
def Broken (c : Contract) (r : Except PyException α × Transaction Database) : Prop :=
  ∃ e, r.1 = .error e ∧ c.guard ≠ some e

/-- The operation keeps its contract under the condition and breaks it without. -/
def Follows (c : Contract) (cond : Prop) (ctx : Context) (db : Database)
    (r : Except PyException α × Transaction Database) : Prop :=
  (cond ∧ c.Kept ctx db r) ∨ (¬ cond ∧ c.Broken r)

theorem close_tables (c : Contract) (ctx : Context) (db : Database) :
    (c.close ctx db).state.tables = db.tables := by
  unfold close
  split
  · exact logged_tables ctx _ db
  · rfl

theorem met_of_kept (h : c.Kept ctx db r) : c.Met r := by
  unfold Kept at h
  unfold Met
  split at h
  · exact h
  · obtain ⟨a, tables, hchange, _, rfl⟩ := h
    refine ⟨⟨a, rfl⟩, ?_⟩
    rw [close_tables]
    exact hchange

theorem not_met_of_broken (h : c.Broken r) : ¬ c.Met r := by
  obtain ⟨e, hr, hguard⟩ := h
  intro hmet
  unfold Met at hmet
  split at hmet
  next e' he' =>
    rw [hr] at hmet
    cases hmet
    exact hguard he'
  next =>
    obtain ⟨⟨a, ha⟩, _⟩ := hmet
    rw [hr] at ha
    cases ha

theorem Follows.met_iff (h : c.Follows cond ctx db r) : c.Met r ↔ cond := by
  obtain ⟨hcond, hkept⟩ | ⟨hcond, hbroken⟩ := h
  · exact ⟨fun _ => hcond, fun _ => met_of_kept hkept⟩
  · exact ⟨fun hmet => absurd hmet (not_met_of_broken hbroken), fun h => absurd h hcond⟩

theorem Follows.of_iff {cond' : Prop} (hiff : cond ↔ cond') (h : c.Follows cond ctx db r) :
    c.Follows cond' ctx db r := by
  rwa [← hiff]

/-- An operation that returns has kept its contract. -/
theorem Follows.of_ok (h : c.Follows cond ctx db r) {a : α} (ha : r.1 = .ok a) :
    cond ∧ c.guard = none ∧ ∃ tables, c.change tables ∧
      (∀ entry ∈ c.entry, entry.fits = true) ∧ r.2 = c.close ctx { db with tables } := by
  obtain ⟨hcond, hkept⟩ | ⟨_, e, he, _⟩ := h
  · unfold Kept at hkept
    split at hkept
    next =>
      rw [ha] at hkept
      cases hkept
    next hguard =>
      obtain ⟨_, tables, hchange, hfits, rfl⟩ := hkept
      exact ⟨hcond, hguard, tables, hchange, hfits, rfl⟩
  · rw [ha] at he
    cases he

/-- What the caller makes of the result does not matter to the contract. -/
theorem Follows.bind_pure {β : Type} {m : Service α} {t : Transaction Database}
    (h : c.Follows cond ctx db (m.run t)) (g : α → β) :
    c.Follows cond ctx db ((m >>= fun a => pure (g a)).run t) := by
  cases hm : m.run t with
  | mk result t' =>
    rw [hm] at h
    cases result with
    | ok a =>
      rw [run_bind_ok hm, run_pure]
      obtain ⟨hcond, hguard, tables, hchange, hfits, ht⟩ := h.of_ok rfl
      refine .inl ⟨hcond, ?_⟩
      simp only [Kept, hguard]
      exact ⟨g a, tables, hchange, hfits, by rw [← ht]⟩
    | error e =>
      rw [run_bind_error hm]
      obtain ⟨hcond, hkept⟩ | ⟨hcond, e', he', hguard⟩ := h
      · refine .inl ⟨hcond, ?_⟩
        unfold Kept at hkept ⊢
        split at hkept
        · cases hkept
          simp_all
        · obtain ⟨_, _, _, _, heq⟩ := hkept
          cases heq
      · cases he'
        exact .inr ⟨hcond, e, rfl, hguard⟩

theorem kept_of_guard {e : PyException} (hguard : c.guard = some e) (hr : r.1 = .error e) :
    c.Kept ctx db r := by
  simp [Kept, hguard, hr]

theorem kept_of_ok {a : α} {tables : Tables} (hguard : c.guard = none) (hchange : c.change tables)
    (hfits : ∀ entry ∈ c.entry, entry.fits = true)
    (hr : r = (.ok a, c.close ctx { db with tables })) : c.Kept ctx db r := by
  simp only [Kept, hguard]
  exact ⟨a, tables, hchange, hfits, hr⟩

end Contract

open Contract

/-- `(await db.execute(select(...))).scalar_one_or_none()`. -/
def selectOne {ρ : Type} (rows : Tables → List ρ) : Service (Option ρ) := do
  let found ← query rows
  ofExcept (scalarOneOrNone found)

theorem run_selectOne {ρ : Type} (rows : Tables → List ρ) (db : Database) :
    (selectOne rows).run { state := db } = (scalarOneOrNone (rows db.tables), { state := db }) := by
  rw [selectOne, run_bind_ok (run_query _ db), run_ofExcept]

def invalidEncoding : PyException :=
  .databaseError "invalid byte sequence for encoding UTF8: 0x00"

/-- The encoding of a bound text, in which PostgreSQL takes no NUL character. -/
def bindText (value : String) : Service Unit :=
  statement inFailedTransaction
    (fun db => if textStorable value then .ok ((), db) else .error invalidEncoding)

/-- A look-up whose WHERE clause binds a text. -/
def selectByText {ρ : Type} (value : String) (rows : Tables → List ρ) : Service (Option ρ) := do
  bindText value
  selectOne rows

theorem run_selectByText {ρ : Type} {value : String} (h : textStorable value = true)
    (rows : Tables → List ρ) (db : Database) :
    (selectByText value rows).run { state := db } = (selectOne rows).run { state := db } := by
  have hbind : (bindText value).run { state := db } = (.ok (), { state := db }) :=
    run_statement_ok (by simp [h])
  rw [selectByText, run_bind_ok hbind]

theorem run_selectByText_nul {ρ : Type} {value : String} (h : textStorable value = false)
    (rows : Tables → List ρ) (db : Database) :
    (selectByText value rows).run { state := db } =
      (.error invalidEncoding, { state := db, aborted := true }) := by
  have hbind : (bindText value).run { state := db } =
      (.error invalidEncoding, { state := db, aborted := true }) :=
    run_statement_error (by simp [h])
  rw [selectByText, run_bind_error hbind]

theorem scalarOneOrNone_toList {α : Type} (o : Option α) : scalarOneOrNone o.toList = .ok o := by
  cases o <;> rfl

section LookUp

variable {ρ : Type} [Stored ρ] {p : ρ → Bool}

/-- A look-up that fixes the primary key finds one row at most. -/
theorem run_selectOne_key {k : UUID} (hp : ∀ row, p row = true → key row = k) (db : Database) :
    (selectOne fun tables => (table tables : Table ρ).rows.filter p).run { state := db } =
      (.ok ((table db.tables : Table ρ).rows.find? p), { state := db }) := by
  rw [run_selectOne, (table db.tables).filter_key p k hp, scalarOneOrNone_toList]

theorem run_selectOne_indexed {v : String} (hp : ∀ row, p row = true → indexed row = some v)
    (db : Database) :
    (selectOne fun tables => (table tables : Table ρ).rows.filter p).run { state := db } =
      (.ok ((table db.tables : Table ρ).rows.find? p), { state := db }) := by
  rw [run_selectOne, (table db.tables).filter_indexed p v hp, scalarOneOrNone_toList]

end LookUp

/-- The rows that belong to an organization and can be deleted softly. -/
class Scoped (ρ : Type) extends Stored ρ where
  organizationId : ρ → UUID
  deletedAt : ρ → Option Time

instance : Scoped ApiKey where
  organizationId := ApiKey.organizationId
  deletedAt := ApiKey.deletedAt

instance : Scoped Dataset where
  organizationId := Dataset.organizationId
  deletedAt := Dataset.deletedAt

instance : Scoped Submission where
  organizationId := Submission.organizationId
  deletedAt := Submission.deletedAt

instance : Scoped EvaluationConfig where
  organizationId := EvaluationConfig.organizationId
  deletedAt := EvaluationConfig.deletedAt

instance : Scoped EvaluationRun where
  organizationId := EvaluationRun.organizationId
  deletedAt := EvaluationRun.deletedAt

section Fetch

variable {ρ : Type} [Scoped ρ]

/-- The WHERE clause of a scoped look-up. -/
def isScoped (id orgId : UUID) (row : ρ) : Bool :=
  decide (key row = id) && decide (Scoped.organizationId row = orgId) &&
    (Scoped.deletedAt row).isNone

/-- The live row with the given id in the organization. -/
def scopedRow (ρ : Type) [Scoped ρ] (id orgId : UUID) (tables : Tables) : Option ρ :=
  (table tables : Table ρ).rows.find? (isScoped id orgId)

def fetch (ρ : Type) [Scoped ρ] (id orgId : UUID) : Service (Option ρ) :=
  selectOne fun tables => (table tables : Table ρ).rows.filter (isScoped id orgId)

/-- The common body of `get_submission`, `get_dataset`, `get_evaluation_config`
and `get_evaluation_run`. -/
def getScoped (ρ : Type) [Scoped ρ] (resource : String) (id orgId : UUID) : Service ρ := do
  match ← fetch ρ id orgId with
  | some row => pure row
  | none => raise (.notFound resource id)

theorem run_fetch (id orgId : UUID) (db : Database) :
    (fetch ρ id orgId).run { state := db } =
      (.ok (scopedRow ρ id orgId db.tables), { state := db }) := by
  have hp : ∀ row : ρ, isScoped id orgId row = true → key row = id := by
    intro row hrow
    simp only [isScoped, Bool.and_eq_true, decide_eq_true_eq] at hrow
    exact hrow.1.1
  exact run_selectOne_key hp db

theorem run_getScoped_some (resource : String) {id orgId : UUID} {db : Database} {row : ρ}
    (h : scopedRow ρ id orgId db.tables = some row) :
    (getScoped ρ resource id orgId).run { state := db } = (.ok row, { state := db }) := by
  have hfetch := run_fetch (ρ := ρ) id orgId db
  rw [h] at hfetch
  rw [getScoped, run_bind_ok hfetch, run_pure]

theorem run_getScoped_none (resource : String) {id orgId : UUID} {db : Database}
    (h : scopedRow ρ id orgId db.tables = none) :
    (getScoped ρ resource id orgId).run { state := db } =
      (.error (.notFound resource id), { state := db }) := by
  have hfetch := run_fetch (ρ := ρ) id orgId db
  rw [h] at hfetch
  rw [getScoped, run_bind_ok hfetch, run_raise]

theorem scopedRow_some {id orgId : UUID} {tables : Tables} {row : ρ}
    (h : scopedRow ρ id orgId tables = some row) :
    row ∈ (table tables : Table ρ).rows ∧ key row = id ∧ Scoped.organizationId row = orgId ∧
      Scoped.deletedAt row = none := by
  have hrow := List.find?_some h
  simp only [isScoped, Bool.and_eq_true, decide_eq_true_eq, Option.isNone_iff_eq_none] at hrow
  exact ⟨List.mem_of_find?_eq_some h, hrow.1.1, hrow.1.2, hrow.2⟩

end Fetch

end EvalEngine.ServiceContracts
