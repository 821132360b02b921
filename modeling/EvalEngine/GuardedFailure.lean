import EvalEngine.ServiceRequests

namespace EvalEngine.GuardedFailure

open EvalEngine.JsonValues EvalEngine.Exceptions EvalEngine.ConstrainedTables
open EvalEngine.ServiceTables EvalEngine.Transactions EvalEngine.AuditService
open EvalEngine.ServiceContracts EvalEngine.RowOperations EvalEngine.ServiceRequests
open EvalEngine.AuthService EvalEngine.AuthContracts EvalEngine.DatasetService
open Contract

variable (ctx : Context) (ip : Option String) (op : Operation) (db : Database)

/-- An operation fails only by its guards, and changes the session as it owes,
exactly when its code runs and it drops no metadata. -/
theorem failsOnlyByGuards_iff :
    (op.contract ctx ip db.tables).Met ((op.run ctx ip).run { state := db }) ↔
      op.Runs ctx db.tables ∧ op.KeepsMetadata db.tables := by
  have hguard := op.contract_guard ctx ip db.tables
  obtain ⟨hruns, hkept⟩ | ⟨hruns, e, he, hne⟩ := op.run_follows ctx ip db
  · unfold Kept at hkept
    split at hkept
    next e he =>
      have hmet : (op.contract ctx ip db.tables).Met ((op.run ctx ip).run { state := db }) := by
        simp only [Met, hguard, he]
        exact hkept
      exact iff_of_true hmet ⟨hruns, Operation.keepsMetadata_of_guard he⟩
    next hnone =>
      obtain ⟨a, tables, hchange, _, hrun⟩ := hkept
      have hmet : (op.contract ctx ip db.tables).Met ((op.run ctx ip).run { state := db }) ↔
          (op.contract ctx ip db.tables).change tables := by
        simp only [Met, hguard, hnone, hrun, close_tables]
        exact and_iff_right ⟨a, trivial⟩
      rw [hmet, Operation.contract_change_iff hchange]
      exact (and_iff_right hruns).symm
  · have hbroken : (op.contract ctx ip db.tables).Broken ((op.run ctx ip).run { state := db }) :=
      ⟨e, he, by rw [hguard]; exact hne⟩
    exact iff_of_false (not_met_of_broken hbroken) fun h => hruns h.1

/-- The refresh token of a registered user yields no new pair. -/
theorem refresh_of_registered_user_fails :
    (refreshUser 1 registered.tables).isSome = true ∧
      sampleContext.decodeToken "refresh-token" = some { sub := 1, org := 1, type := "refresh" } ∧
      ¬ ((Operation.refreshAccessToken "refresh-token").contract sampleContext none
          registered.tables).Met
        (((Operation.refreshAccessToken "refresh-token").run sampleContext none).run
          { state := registered }) := by
  have huser : (refreshUser 1 registered.tables).isSome = true := by decide +kernel
  have hguard : refreshGuard sampleContext "refresh-token" registered.tables = none := by
    obtain ⟨user, huser⟩ := Option.isSome_iff_exists.1 huser
    have hdecode : sampleContext.decodeToken "refresh-token" =
        some { sub := 1, org := 1, type := "refresh" } := rfl
    simp [refreshGuard, hdecode, huser]
  refine ⟨huser, rfl, ?_⟩
  have hfollows := @refreshAccessToken_follows sampleContext "refresh-token" registered
  intro hmet
  have hruns := (hfollows.bind_pure (fun _ => ())).met_iff.1 hmet
  rw [hguard] at hruns
  cases hruns

/-- An operation whose code does not run raises, and its request is rolled back. -/
theorem transact_of_not_runs (h : ¬ op.Runs ctx db.tables) :
    ∃ e, transact (op.run ctx ip) db = (.error e, db) := by
  obtain ⟨hruns, _⟩ | ⟨_, e, he, _⟩ := op.run_follows ctx ip db
  · exact absurd hruns h
  · exact ⟨e, transact_error (t := ((op.run ctx ip).run { state := db }).2) (by rw [← he])⟩

variable {ctx ip db}

/-- No live key of the organization is ever revoked. -/
theorem revoke_of_live_key {keyId orgId : UUID} {apiKey : ApiKey} (userId : UUID)
    (h : scopedRow ApiKey keyId orgId db.tables = some apiKey) :
    ∃ e, transact ((Operation.revokeApiKey keyId orgId userId).run ctx ip) db = (.error e, db) := by
  apply transact_of_not_runs
  simp [Operation.Runs, h]

/-- No valid refresh token of a live active user yields a new pair. -/
theorem refresh_of_active_user {refreshTokenStr : String} {payload : TokenPayload} {user : User}
    (hdecode : ctx.decodeToken refreshTokenStr = some payload) (htype : payload.type = "refresh")
    (huser : refreshUser payload.sub db.tables = some user) :
    ∃ e, transact ((Operation.refreshAccessToken refreshTokenStr).run ctx ip) db =
      (.error e, db) := by
  have hguard : refreshGuard ctx refreshTokenStr db.tables = none := by
    simp [refreshGuard, hdecode, htype, huser]
  apply transact_of_not_runs
  simp [Operation.Runs, hguard]

/-- No data set whose checksum matches becomes ready. -/
theorem confirm_of_matching_checksum {datasetId orgId : UUID} {checksum : String} {dataset : Dataset}
    (sampleCount : Int) (hrow : scopedRow Dataset datasetId orgId db.tables = some dataset)
    (hstatus : dataset.status = .uploading)
    (hverify : verifyDatasetIntegrity ctx dataset.storagePath checksum = true) :
    ∃ e, transact ((Operation.confirmDatasetUpload datasetId orgId checksum sampleCount).run ctx ip)
      db = (.error e, db) := by
  have hguard : confirmGuard ctx datasetId checksum (some dataset) = none := by
    simp [confirmGuard, hstatus, hverify]
  apply transact_of_not_runs
  simp [Operation.Runs, hrow, hguard]

end EvalEngine.GuardedFailure
