import EvalEngine.ServiceContracts

namespace EvalEngine.RowOperations

open EvalEngine.JsonValues EvalEngine.Exceptions EvalEngine.ConstrainedTables
open EvalEngine.ServiceTables EvalEngine.Transactions EvalEngine.AuditService
open EvalEngine.ServiceContracts
open Entity Stored Contract

/-- Where an operation reports: the type and id of the resource, who acted and
from which address. -/
structure Report where
  resourceType : String
  resourceId : UUID
  organizationId : UUID
  userId : Option UUID
  ipAddress : Option String
  changes : Option Dict := none

def Report.entry (report : Report) (action : AuditAction) : AuditEntry where
  action
  resourceType := report.resourceType
  resourceId := some (uuidText report.resourceId)
  organizationId := some report.organizationId
  userId := report.userId
  ipAddress := report.ipAddress
  changes := report.changes

def Report.fits (report : Report) : Bool :=
  varchar 100 report.resourceType && report.changes.all dictStorable

/-- `await create_audit_log(db, action=AuditAction.NAME, ...)`. The attribute is
looked up before the call, outside its `try`. -/
def audit (ctx : Context) (action : String) (report : Report) : Service Unit := do
  let action ← auditAction action
  createAuditLog ctx (report.entry action)

theorem Report.entry_fits {report : Report} (h : report.fits = true) (action : AuditAction) :
    (report.entry action).fits = true := by
  obtain ⟨htype, hchanges⟩ := Bool.and_eq_true_iff.1 h
  have hid : varchar 255 (uuidText report.resourceId) = true := varchar_uuidText (by decide) _
  have hstatus : varchar 20 "success" = true := by decide
  simp [AuditEntry.fits, Report.entry, htype, hchanges, hid, hstatus]

theorem Report.fits_plain {report : Report} (htype : varchar 100 report.resourceType = true)
    (hchanges : report.changes = none) : report.fits = true := by
  simp [Report.fits, htype, hchanges]

theorem run_audit {name : String} {action : AuditAction} (h : AuditAction.ofName name = some action)
    (ctx : Context) (report : Report) (db : Database) :
    (audit ctx name report).run { state := db } = (.ok (), logged ctx (report.entry action) db) := by
  rw [audit, run_bind_ok (run_auditAction h _), run_createAuditLog]

theorem run_audit_none {name : String} (h : AuditAction.ofName name = none)
    (ctx : Context) (report : Report) (t : Transaction Database) :
    (audit ctx name report).run t = (.error (missingAction name), t) := by
  rw [audit, run_bind_error (run_auditAction_none h _)]

/-- The entry of a report, where the action exists. -/
def entryOf (action : String) (report : Report) : Option AuditEntry :=
  (AuditAction.ofName action).map report.entry

theorem entryOf_fits {action : String} {report : Report} (h : report.fits = true) :
    ∀ entry ∈ entryOf action report, entry.fits = true := by
  intro entry hentry
  obtain ⟨a, _, rfl⟩ := Option.map_eq_some_iff.1 hentry
  exact report.entry_fits h a

/-- An exception of another kind than the guards' breaks every contract. -/
theorem broken_of_error {α : Type} {c : Contract} {r : Except PyException α × Transaction Database}
    {e : PyException} (hr : r.1 = .error e) (he : e.isGuard = false) : c.Broken r := by
  refine ⟨e, hr, fun hguard => ?_⟩
  have hstated := c.stated e hguard
  rw [he] at hstated
  cases hstated

section Finish

variable {α : Type} {c : Contract} (ctx : Context) (db : Database) {tables : Tables}
  {action : String} {report : Report} (a : α)

/-- The end of an operation whose change is in the session: it follows the
contract exactly when the enumeration has the action. -/
theorem finish_follows (hguard : c.guard = none) (hchange : c.change tables)
    (hentry : c.entry = entryOf action report) (hfits : report.fits = true) :
    c.Follows ((AuditAction.ofName action).isSome = true) ctx db
      ((do audit ctx action report; pure a : Service α).run { state := { db with tables } }) := by
  cases hname : AuditAction.ofName action with
  | some member =>
    refine .inl ⟨rfl, kept_of_ok (a := a) hguard hchange ?_ ?_⟩
    · rw [hentry]
      exact entryOf_fits hfits
    · have hentry' : c.entry = some (report.entry member) := by
        rw [hentry, entryOf, hname, Option.map_some]
      rw [run_bind_ok (run_audit hname ctx report _), run_pure, close, hentry']
  | none =>
    have hrun := run_bind_error (k := fun _ => (pure a : Service α))
      (run_audit_none hname ctx report { state := { db with tables } })
    exact .inr ⟨by simp, broken_of_error (congrArg Prod.fst hrun) rfl⟩

end Finish

section Refuse

variable {ρ α : Type} {c : Contract} {cond : Prop} {ctx : Context} {db : Database}

/-- `if existing.scalar_one_or_none(): raise ...`. -/
def refuseIfFound (value : String) (rows : Tables → List ρ) (e : PyException) (rest : Service α) :
    Service α := do
  match ← selectByText value rows with
  | some _ => raise e
  | none => rest

theorem refuseIfFound_follows {value : String} {rows : Tables → List ρ} {e : PyException}
    {rest : Service α} (hguard : rows db.tables ≠ [] → c.guard = some e)
    (hrest : rows db.tables = [] → c.Follows cond ctx db (rest.run { state := db })) :
    c.Follows (textStorable value = true ∧ (rows db.tables).length ≤ 1 ∧
        (rows db.tables = [] → cond)) ctx db
      ((refuseIfFound value rows e rest).run { state := db }) := by
  cases hvalue : textStorable value with
  | false =>
    refine .inr ⟨by simp, broken_of_error (e := invalidEncoding) ?_ rfl⟩
    rw [refuseIfFound, run_bind_error (run_selectByText_nul hvalue rows db)]
  | true =>
    have hselect := (run_selectByText hvalue rows db).trans (run_selectOne rows db)
    cases hrows : rows db.tables with
    | nil =>
      rw [hrows] at hselect
      have hfollows := hrest hrows
      rw [refuseIfFound, run_bind_ok hselect]
      simpa using hfollows
    | cons row others =>
      have he := hguard (by simp [hrows])
      rw [hrows] at hselect
      cases others with
      | nil =>
        rw [refuseIfFound, run_bind_ok hselect, run_raise]
        exact .inl ⟨by simp, kept_of_guard he rfl⟩
      | cons other others =>
        rw [refuseIfFound, run_bind_error hselect]
        exact .inr ⟨by simp, broken_of_error (e := .multipleResultsFound) rfl rfl⟩

end Refuse

section Store

variable {ρ : Type} [Stored ρ]

/-- `generate_uuid7()`. -/
def newKey (ρ : Type) [Stored ρ] : Service UUID :=
  observe (fun db => (table db.tables : Table ρ).freshKey)

theorem run_newKey (db : Database) :
    (newKey ρ).run { state := db } =
      (.ok (table db.tables : Table ρ).freshKey, { state := db }) := rfl

/-- Add the row, flush and report. -/
def storeRow (ctx : Context) (action : String) (report : Report) (row : ρ) : Service ρ := do
  flush (insertRow row)
  audit ctx action report
  pure row

/-- Flush the changed row and report. -/
def changeRow (ctx : Context) (action : String) (report : Report) (row : ρ) : Service ρ := do
  flush (updateRow row)
  audit ctx action report
  pure row

variable (c : Contract) (ctx : Context) (db : Database) (action : String) (report : Report)
  {old : ρ} (row : ρ)

theorem run_storeRow {name : String} {action : AuditAction} (haction : AuditAction.ofName name = some action)
    {after : Tables} (hinsert : insertRow row db.tables = .ok after) :
    (storeRow ctx name report row).run { state := db } =
      (.ok row, logged ctx (report.entry action) { db with tables := after }) := by
  rw [storeRow, run_bind_ok (run_flush_ok hinsert), run_bind_ok (run_audit haction _ _ _), run_pure]

theorem run_storeRow_error {e : PyException} (hinsert : insertRow row db.tables = .error e) :
    (storeRow ctx action report row).run { state := db } =
      (.error e, { state := db, aborted := true }) := by
  rw [storeRow, run_bind_error (run_flush_error hinsert)]

theorem storeRow_follows (hkey : key row = (table db.tables : Table ρ).freshKey)
    (hindex : ∀ v ∈ indexed row, v ∉ (table db.tables : Table ρ).rows.filterMap indexed)
    (hguard : c.guard = none) (hchange : ∀ after, Inserted row db.tables after → c.change after)
    (hentry : c.entry = entryOf action report) (hfits : report.fits = true) :
    c.Follows ((AuditAction.ofName action).isSome = true ∧ references db.tables row = true ∧
        fits row = true) ctx db
      ((storeRow ctx action report row).run { state := db }) := by
  obtain ⟨href, hrow, after, hinsert, hafter⟩ | ⟨hnot, message, hinsert⟩ :=
    insertRow_cases row db.tables hkey hindex
  · rw [storeRow, run_bind_ok (run_flush_ok hinsert)]
    have hfinish := finish_follows ctx db row hguard (hchange after hafter)
      hentry hfits
    simpa only [href, hrow, and_true] using hfinish
  · have hrun := run_bind_error (k := fun _ => do audit ctx action report; pure row)
      (run_flush_error hinsert)
    exact .inr ⟨fun h => hnot h.2, broken_of_error (congrArg Prod.fst hrun) rfl⟩

theorem storeRow_follows_known (hkey : key row = (table db.tables : Table ρ).freshKey)
    (hindex : ∀ v ∈ indexed row, v ∉ (table db.tables : Table ρ).rows.filterMap indexed)
    (hguard : c.guard = none) (hchange : ∀ after, Inserted row db.tables after → c.change after)
    (hentry : c.entry = entryOf action report) (hfits : report.fits = true)
    (haction : (AuditAction.ofName action).isSome = true) :
    c.Follows (references db.tables row = true ∧ fits row = true) ctx db
      ((storeRow ctx action report row).run { state := db }) := by
  have hstore := storeRow_follows c ctx db action report row hkey hindex hguard hchange hentry hfits
  simp only [haction, true_and] at hstore
  exact hstore

/-- Nothing ends well under an action that the enumeration lacks. -/
theorem broken_of_missing {α : Type} {change : Tables → Except PyException Tables} {a : α}
    (hname : AuditAction.ofName action = none)
    (hchange : ∀ e, change db.tables = .error e → e.isGuard = false) :
    c.Broken ((do flush change; audit ctx action report; pure a : Service α).run { state := db }) := by
  cases hrun : change db.tables with
  | error e =>
    refine broken_of_error (e := e) ?_ (hchange e hrun)
    rw [run_bind_error (run_flush_error hrun)]
  | ok after =>
    refine broken_of_error (e := missingAction action) ?_ rfl
    rw [run_bind_ok (run_flush_ok hrun), run_bind_error (run_audit_none hname ctx report _)]

theorem storeRow_broken (hname : AuditAction.ofName action = none) :
    c.Broken ((storeRow ctx action report row).run { state := db }) := by
  apply broken_of_missing c ctx db action report hname
  intro e he
  unfold insertRow at he
  split at he
  · split at he <;> cases he
    rfl
  · cases he
    rfl

theorem changeRow_broken (hname : AuditAction.ofName action = none) :
    c.Broken ((changeRow ctx action report row).run { state := db }) := by
  apply broken_of_missing c ctx db action report hname
  intro e he
  unfold updateRow at he
  split at he <;> cases he
  rfl

theorem changeRow_follows (hold : old ∈ (table db.tables : Table ρ).rows) (hkey : key row = key old)
    (hindex : indexed row = indexed old) (hguard : c.guard = none)
    (hchange : ∀ after, Updated row db.tables after → c.change after)
    (hentry : c.entry = entryOf action report) (hfits : fits row = true → report.fits = true) :
    c.Follows ((AuditAction.ofName action).isSome = true ∧ fits row = true) ctx db
      ((changeRow ctx action report row).run { state := db }) := by
  obtain ⟨hrow, after, hupdate, hafter⟩ | ⟨hrow, message, hupdate⟩ :=
    updateRow_cases row db.tables hold hkey hindex
  · rw [changeRow, run_bind_ok (run_flush_ok hupdate)]
    have hfinish := finish_follows ctx db row hguard (hchange after hafter)
      hentry (hfits hrow)
    simpa only [hrow, and_true] using hfinish
  · have hrun := run_bind_error (k := fun _ => do audit ctx action report; pure row)
      (run_flush_error hupdate)
    refine .inr ⟨fun h => ?_, broken_of_error (congrArg Prod.fst hrun) rfl⟩
    rw [hrow] at h
    exact absurd h.2 (by decide)

/-- The contract of an operation that adds one row. -/
def insertContract (action : String) (report : Report) (row : ρ) (tables : Tables) : Contract where
  guard := none
  change := Inserted row tables
  entry := entryOf action report
  stated := stated_none

end Store

section Change

variable {ρ : Type} [Scoped ρ]

/-- Fetch the row, change it, flush and report. -/
def changeScoped (ctx : Context) (resource action : String) (id orgId : UUID) (f : ρ → ρ)
    (report : ρ → Report) : Service ρ := do
  let row ← getScoped ρ resource id orgId
  changeRow ctx action (report row) (f row)

/-- The contract of an operation that changes one row of the organization. -/
def changeContract (resource action : String) (id orgId : UUID) (f : ρ → ρ) (report : ρ → Report)
    (tables : Tables) : Contract where
  guard := if (scopedRow ρ id orgId tables).isNone then some (.notFound resource id) else none
  change after := ∀ row ∈ scopedRow ρ id orgId tables, Updated (f row) tables after
  entry := (scopedRow ρ id orgId tables).bind (fun row => entryOf action (report row))
  stated e he := by
    split at he
    · cases he
      rfl
    · cases he

variable (ctx : Context) (db : Database) (resource action : String) (id orgId : UUID) (f : ρ → ρ)
  (report : ρ → Report)

theorem changeScoped_follows (hkey : ∀ row, key (f row) = key row)
    (hindex : ∀ row, indexed (f row) = indexed row)
    (hfits : ∀ row, fits row = true → fits (f row) = true → (report row).fits = true) :
    (changeContract resource action id orgId f report db.tables).Follows
      (∀ row ∈ scopedRow ρ id orgId db.tables,
        (AuditAction.ofName action).isSome = true ∧ fits (f row) = true) ctx db
      ((changeScoped ctx resource action id orgId f report).run { state := db }) := by
  cases hrow : scopedRow ρ id orgId db.tables with
  | none =>
    have hrun := run_bind_error (k := fun row => changeRow ctx action (report row) (f row))
      (run_getScoped_none resource hrow)
    refine .inl ⟨by simp, kept_of_guard (e := .notFound resource id) ?_ (congrArg Prod.fst hrun)⟩
    simp [changeContract, hrow]
  | some row =>
    obtain ⟨hmem, _, _, _⟩ := scopedRow_some hrow
    have hold : fits row = true := (table db.tables : Table ρ).fits_of_mem hmem
    rw [changeScoped, run_bind_ok (run_getScoped_some resource hrow)]
    have hchange := changeRow_follows (changeContract resource action id orgId f report db.tables)
      ctx db action (report row) (f row) hmem (hkey row) (hindex row)
      (by simp [changeContract, hrow])
      (fun after hafter => by simpa [changeContract, hrow] using hafter)
      (by simp [changeContract, hrow]) (hfits row hold)
    simpa using hchange

/-- Under an action that exists, only the new values can be refused. -/
theorem changeScoped_follows_known (hkey : ∀ row, key (f row) = key row)
    (hindex : ∀ row, indexed (f row) = indexed row)
    (hfits : ∀ row, fits row = true → fits (f row) = true → (report row).fits = true)
    (haction : (AuditAction.ofName action).isSome = true) :
    (changeContract resource action id orgId f report db.tables).Follows
      (∀ row ∈ scopedRow ρ id orgId db.tables, fits (f row) = true) ctx db
      ((changeScoped ctx resource action id orgId f report).run { state := db }) := by
  have hchange := changeScoped_follows ctx db resource action id orgId f report hkey hindex hfits
  simp only [haction, true_and] at hchange
  exact hchange

/-- Under an action that does not exist, only a missing row ends well. -/
theorem changeScoped_follows_missing (hkey : ∀ row, key (f row) = key row)
    (hindex : ∀ row, indexed (f row) = indexed row)
    (hfits : ∀ row, fits row = true → fits (f row) = true → (report row).fits = true)
    (haction : AuditAction.ofName action = none) :
    (changeContract resource action id orgId f report db.tables).Follows
      (scopedRow ρ id orgId db.tables = none) ctx db
      ((changeScoped ctx resource action id orgId f report).run { state := db }) := by
  have hchange := changeScoped_follows ctx db resource action id orgId f report hkey hindex hfits
  simp only [haction, Option.isSome_none, Bool.false_eq_true, false_and] at hchange
  rw [Option.eq_none_iff_forall_ne_some]
  exact hchange

end Change

end EvalEngine.RowOperations
