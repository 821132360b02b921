import EvalEngine.InheritedOwners
import EvalEngine.TenantReads

namespace EvalEngine.TenantIsolation

open EvalEngine.Exceptions EvalEngine.RunModel EvalEngine.ServiceTables EvalEngine.Transactions
open EvalEngine.AuditService EvalEngine.ServiceContracts EvalEngine.ServiceRequests
open EvalEngine.Transitions EvalEngine.Noninterference EvalEngine.PipelineDatabase
open EvalEngine.ReadServices EvalEngine.ResultService EvalEngine.TenantRows
open EvalEngine.TenantReads EvalEngine.TenantWrites EvalEngine.InheritedOwners
open EvalEngine.CrossCheck (Finding)
open EvalEngine.Fabrication (Risk)
open Tenant

/-- What every run of the system owes to its organizations, each read to the
one that asks, and each write to all others. -/
structure Isolated (detect : String → String → Option Finding) (assess : String → String → ℚ → Risk) :
    Prop where
  inherits : ∀ (db : Database) (s : State), Exec (step detect assess) free (start db) s → Inherits s
  reads : ∀ (ctx : ReadContext) (orgId : UUID) (op : ReadOperation) (s t : State),
    Inherits s → Inherits t → Agree orgId s t → op.run ctx orgId s = op.run ctx orgId t
  writes : ∀ (ctx : Context) (request : Request) (uuid4 orgId : UUID) (op : Operation) (s t : State),
    tenantOf op = some orgId → step detect assess s (.request ctx request uuid4 op) = some t →
      OthersUnchanged orgId s t

/-- Rows that a request keeps keep their column. -/
theorem kept_stamp {ρ : Type} [Tenant ρ] (keep : Option UUID → Bool) (now : Time) (ident : ρ → UUID)
    (column : UUID → Time) {rows rows' : List ρ} (h : kept keep rows' = kept keep rows) :
    kept keep (rows'.map fun row => (⟨row, stamp now (rows.map ident) column (ident row)⟩ : Stamped ρ)) =
      kept keep (rows.map fun row => (⟨row, column (ident row)⟩ : Stamped ρ)) := by
  rw [kept_stamped keep (fun row => stamp now (rows.map ident) column (ident row)),
    kept_stamped keep (fun row => column (ident row)), h]
  apply List.map_congr_left
  intro row hrow
  have hpresent : ident row ∈ rows.map ident := List.mem_map_of_mem (List.mem_of_mem_filter hrow)
  rw [stamp, if_pos hpresent]

variable {orgId : UUID}

/-- An audit row of the organization is none of the others'. -/
theorem kept_logged {ctx : Context} {entry : AuditEntry} {db : Database}
    (h : entry.organizationId = some orgId) :
    kept (isOther orgId) (logged ctx entry db).state.auditLogs = kept (isOther orgId) db.auditLogs := by
  have howner : owner (auditRow ctx entry) = some orgId := h
  unfold logged
  split
  · simp [kept, List.filter_append, isOther_of_owner howner]
  · rfl

theorem kept_close {ctx : Context} {c : Contract} {db : Database}
    (h : ∀ entry ∈ c.entry, entry.organizationId = some orgId) :
    kept (isOther orgId) (c.close ctx db).state.auditLogs = kept (isOther orgId) db.auditLogs := by
  unfold Contract.close
  split
  next entry hentry => exact kept_logged (h entry hentry)
  next => rfl

/-- A request for an organization, in the tables and in the audit log. -/
theorem others_serve (ctx : Context) (request : Request) (uuid4 : UUID) {op : Operation} (db : Database)
    (horg : tenantOf op = some orgId) :
    SameOthers orgId db.tables (serve ctx request uuid4 op db).2.tables ∧
      kept (isOther orgId) (serve ctx request uuid4 op db).2.auditLogs =
        kept (isOther orgId) db.auditLogs := by
  obtain hsame | ⟨tables, ctx', ip, _, hguard, hchange, hafter⟩ := serve_cases ctx request uuid4 op db
  · rw [hsame]
    exact ⟨SameOthers.refl orgId db.tables, rfl⟩
  · rw [hafter]
    refine ⟨?_, kept_close fun entry hentry => entry_operation horg hentry⟩
    rw [Contract.close_tables]
    exact others_operation horg hguard hchange

variable {detect : String → String → Option Finding} {assess : String → String → ℚ → Risk}

theorem others_request {ctx : Context} {request : Request} {uuid4 : UUID} {op : Operation} {s t : State}
    (horg : tenantOf op = some orgId)
    (h : step detect assess s (.request ctx request uuid4 op) = some t) : OthersUnchanged orgId s t := by
  cases h
  obtain ⟨hsame, haudit⟩ := others_serve ctx request uuid4 s.db horg
  apply Rows.ext
  · exact hsame.organizations
  · exact hsame.users
  · exact hsame.apiKeys
  · exact kept_stamp _ _ Dataset.id _ hsame.datasets
  · exact hsame.submissions
  · exact kept_stamp _ _ EvaluationConfig.id _ hsame.evaluationConfigs
  · exact hsame.evaluationRuns
  · exact hsame.metrics
  · rfl
  · rfl
  · rfl
  · rfl
  · exact haudit

/-- Reads depend on the organization's own rows alone, because the rows of the
pipeline carry the organization of their run. -/
theorem isolated (detect : String → String → Option Finding) (assess : String → String → ℚ → Risk) :
    Isolated detect assess := by
  refine ⟨?_, ?_, ?_⟩
  · intro db s h
    exact (inv_run h).inherits
  · intro ctx orgId op s t hs ht hagree
    exact respects_run ctx orgId op s t ⟨hs, ht, hagree⟩
  · intro ctx request uuid4 orgId op s t horg h
    exact others_request horg h

end EvalEngine.TenantIsolation
