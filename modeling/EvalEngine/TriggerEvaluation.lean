import EvalEngine.SubmissionService

namespace EvalEngine.TriggerEvaluation

open EvalEngine.JsonValues EvalEngine.Exceptions EvalEngine.RunModel EvalEngine.QueryResults
open EvalEngine.SubmissionModel EvalEngine.ConstrainedTables EvalEngine.ServiceTables
open EvalEngine.Transactions EvalEngine.AuditService EvalEngine.ServiceContracts
open EvalEngine.RowOperations EvalEngine.SubmissionService
open Entity Stored Contract

variable (ctx : Context) (submissionId orgId userId : UUID) (configId : Option UUID)
  (runMetadata : Option Dict) (ip : Option String)

def organizationRow (orgId : UUID) (tables : Tables) : Option Organization :=
  tables.organizations.rows.find? (fun org => decide (org.id = orgId))

/-- The configuration that a request names, with its snapshot. -/
def snapshotOf (configId : Option UUID) (orgId : UUID) (tables : Tables) : Option Dict :=
  match configId with
  | none => some []
  | some configId =>
    (scopedRow EvaluationConfig configId orgId tables).map EvaluationConfig.pipelineConfig

def triggerGuard (tables : Tables) : Option PyException :=
  match scopedRow Submission submissionId orgId tables with
  | none => some (.notFound "Submission" submissionId)
  | some submission =>
    if submission.status = .archived then some archivedSubmission
    else if (snapshotOf configId orgId tables).isNone then
      some (.notFound "Evaluation config" (configId.getD 0))
    else
      match organizationRow orgId tables with
      | none => none
      | some org =>
        if org.maxConcurrentEvaluations ≤ activeCount orgId tables then
          some (limitReached org.maxConcurrentEvaluations)
        else none

/-- The run that a trigger adds to given tables. -/
abbrev addedRun (tables : Tables) : EvaluationRun :=
  newRun ctx.now (table tables : Table EvaluationRun).freshKey submissionId orgId userId configId
    ((snapshotOf configId orgId tables).getD []) runMetadata

def triggerContract (tables : Tables) : Contract where
  guard := triggerGuard submissionId orgId configId tables
  change after := ∀ submission ∈ scopedRow Submission submissionId orgId tables,
    ∃ taskId mid mid', ctx.delay (table tables : Table EvaluationRun).freshKey = .ok taskId ∧
      Updated (underReview ctx.now submission) tables mid ∧
      Inserted (addedRun ctx submissionId orgId userId configId runMetadata tables) mid mid' ∧
      Updated (dispatched ctx.now taskId
        (addedRun ctx submissionId orgId userId configId runMetadata tables)) mid' after
  entry := entryOf "EVALUATION_STARTED"
    (runReport (table tables : Table EvaluationRun).freshKey orgId userId ip)
  stated e he := by
    unfold triggerGuard at he
    split at he
    · cases he
      rfl
    · split at he
      · cases he
        rfl
      · split at he
        · cases he
          rfl
        · split at he
          · cases he
          · split at he
            · cases he
              rfl
            · cases he

/-- The organization and the user exist, the metadata fits its column, and the
broker takes the message and answers with a task id that fits. -/
def Startable (tables : Tables) : Prop :=
  tables.hasOrganization orgId = true ∧ tables.hasUser userId = true ∧
    dictStorable (runMetadata.getD []) = true ∧
    ∃ taskId, ctx.delay (table tables : Table EvaluationRun).freshKey = .ok taskId ∧
      varchar 255 taskId = true

variable {ctx submissionId orgId userId configId runMetadata ip}

theorem run_configSnapshot_some {snapshot : Dict} {db : Database}
    (h : snapshotOf configId orgId db.tables = some snapshot) :
    (configSnapshot configId orgId).run { state := db } = (.ok snapshot, { state := db }) := by
  cases configId with
  | none =>
    cases h
    rfl
  | some configId =>
    obtain ⟨config, hconfig, rfl⟩ := Option.map_eq_some_iff.1 h
    rw [configSnapshot, run_bind_ok (run_getScoped_some _ hconfig), run_pure]

theorem run_configSnapshot_none {db : Database} (h : snapshotOf configId orgId db.tables = none) :
    (configSnapshot configId orgId).run { state := db } =
      (.error (.notFound "Evaluation config" (configId.getD 0)), { state := db }) := by
  cases configId with
  | none => cases h
  | some configId =>
    have hconfig := Option.map_eq_none_iff.1 h
    rw [configSnapshot, run_bind_error (run_getScoped_none _ hconfig)]
    rfl

theorem organizationRows_eq (orgId : UUID) (tables : Tables) :
    organizationRows orgId tables = (organizationRow orgId tables).toList :=
  tables.organizations.filter_key _ orgId fun _ h => of_decide_eq_true h

theorem run_fetchOrganization_some {org : Organization} {db : Database}
    (h : organizationRow orgId db.tables = some org) :
    (fetchOrganization orgId).run { state := db } = (.ok org, { state := db }) := by
  rw [fetchOrganization, run_bind_ok (run_query _ db), run_ofExcept, organizationRows_eq, h]
  rfl

theorem run_fetchOrganization_none {db : Database} (h : organizationRow orgId db.tables = none) :
    (fetchOrganization orgId).run { state := db } = (.error .noResultFound, { state := db }) := by
  rw [fetchOrganization, run_bind_ok (run_query _ db), run_ofExcept, organizationRows_eq, h]
  rfl

theorem fits_underReview (now : Time) (submission : Submission) :
    fits (underReview now submission) = fits submission := by
  unfold underReview
  split <;> rfl

theorem key_underReview (now : Time) (submission : Submission) :
    key (underReview now submission) = key submission := by
  unfold underReview
  split <;> rfl

/-- The snapshot of a stored configuration fits the column of the run. -/
theorem storable_snapshotOf {tables : Tables} {snapshot : Dict}
    (h : snapshotOf configId orgId tables = some snapshot) : dictStorable snapshot = true := by
  cases configId with
  | none =>
    cases h
    rfl
  | some configId =>
    obtain ⟨config, hconfig, rfl⟩ := Option.map_eq_some_iff.1 h
    have hfits : fits config = true :=
      tables.evaluationConfigs.fits_of_mem (scopedRow_some hconfig).1
    simp only [fits, Bool.and_eq_true] at hfits
    exact hfits.1.1.2

theorem hasConfig_snapshotOf {tables : Tables} {snapshot : Dict}
    (h : snapshotOf configId orgId tables = some snapshot) :
    configId.all tables.hasConfig = true := by
  cases configId with
  | none => rfl
  | some configId =>
    obtain ⟨config, hconfig, _⟩ := Option.map_eq_some_iff.1 h
    obtain ⟨hmem, hkey, _⟩ := scopedRow_some hconfig
    exact List.any_eq_true.2 ⟨config, hmem, decide_eq_true hkey⟩

theorem fits_newRun (now : Time) (id : UUID) {snapshot : Dict}
    (hsnapshot : dictStorable snapshot = true) :
    fits (newRun now id submissionId orgId userId configId snapshot runMetadata) =
      dictStorable (runMetadata.getD []) := by
  have hone : int4 1 = true := by decide
  have hzero : int4 0 = true := by decide
  simp [fits, newRun, hone, hzero, hsnapshot]

theorem fits_dispatched (now : Time) (taskId : String) {run : EvaluationRun}
    (hrun : fits run = true) : fits (dispatched now taskId run) = varchar 255 taskId := by
  simp only [fits, Bool.and_eq_true] at hrun
  simp [fits, dispatched, hrun]

theorem organizationRow_isSome (orgId : UUID) (tables : Tables) :
    (organizationRow orgId tables).isSome = tables.hasOrganization orgId := by
  unfold organizationRow Tables.hasOrganization
  exact List.isSome_find?

/-- The row of the run refers to rows that exist, as far as the code has fetched them. -/
theorem references_addedRun {tables mid : Tables} {submission : Submission} {snapshot : Dict}
    (hrow : scopedRow Submission submissionId orgId tables = some submission)
    (hsnapshot : snapshotOf configId orgId tables = some snapshot)
    (horg : tables.hasOrganization orgId = true)
    (hmid : Updated (underReview ctx.now submission) tables mid) :
    references mid (addedRun ctx submissionId orgId userId configId runMetadata tables) =
      tables.hasUser userId := by
  obtain ⟨hmem, hkey, _⟩ := scopedRow_some hrow
  have hmem' := mem_of_updated hmid hmem (key_underReview ctx.now submission)
  have hsubmission : mid.hasSubmission submissionId = true := by
    refine List.any_eq_true.2 ⟨_, hmem', decide_eq_true ?_⟩
    exact (key_underReview ctx.now submission).trans hkey
  have hconfig := hasConfig_snapshotOf hsnapshot
  obtain ⟨t, rfl, _⟩ := hmid
  change ((Tables.hasSubmission (put t tables) submissionId && configId.all tables.hasConfig) &&
    tables.hasOrganization orgId && tables.hasUser userId) = _
  rw [hsubmission, hconfig, horg]
  rfl

theorem startRun_follows {db : Database} {submission : Submission} {snapshot : Dict}
    (hrow : scopedRow Submission submissionId orgId db.tables = some submission)
    (hsnapshot : snapshotOf configId orgId db.tables = some snapshot)
    (horg : db.tables.hasOrganization orgId = true)
    (hguard : triggerGuard submissionId orgId configId db.tables = none) :
    (triggerContract ctx submissionId orgId userId configId runMetadata ip db.tables).Follows
      (Startable ctx orgId userId runMetadata db.tables) ctx db
      ((startRun ctx (underReview ctx.now submission)
        (addedRun ctx submissionId orgId userId configId runMetadata db.tables)
        orgId userId ip).run { state := db }) := by
  have hmem := (scopedRow_some hrow).1
  have hfits : fits (underReview ctx.now submission) = true := by
    rw [fits_underReview]
    exact db.tables.submissions.fits_of_mem hmem
  have hrunFits : fits (addedRun ctx submissionId orgId userId configId runMetadata db.tables) =
      dictStorable (runMetadata.getD []) :=
    fits_newRun _ _ (by rw [hsnapshot]; exact storable_snapshotOf hsnapshot)
  obtain ⟨_, mid, hupdate, hmid⟩ | ⟨hnot, _⟩ :=
    updateRow_cases (underReview ctx.now submission) db.tables hmem (key_underReview ctx.now submission) rfl
  case inr =>
    rw [hfits] at hnot
    cases hnot
  have href := @references_addedRun ctx submissionId orgId userId configId runMetadata db.tables mid
    submission snapshot hrow hsnapshot horg hmid
  have hruns : (table mid : Table EvaluationRun) = table db.tables := by
    obtain ⟨t, rfl, _⟩ := hmid
    rfl
  have hfresh : key (addedRun ctx submissionId orgId userId configId runMetadata db.tables) =
      (table mid : Table EvaluationRun).freshKey := by
    rw [hruns]
    rfl
  obtain ⟨huser, hmeta, mid', hinsert, hmid'⟩ | ⟨hnot, message, hinsert⟩ :=
    insertRow_cases _ mid hfresh (by rintro v ⟨⟩)
  · have hflush : ((updateRow (underReview ctx.now submission) db.tables).bind
        (insertRow (addedRun ctx submissionId orgId userId configId runMetadata db.tables))) =
        .ok mid' := by
      rw [hupdate]
      exact hinsert
    rw [href] at huser
    rw [hrunFits] at hmeta
    have hid : (addedRun ctx submissionId orgId userId configId runMetadata db.tables).id =
        (table db.tables : Table EvaluationRun).freshKey := rfl
    rw [startRun, run_bind_ok (run_flush_ok hflush), hid]
    cases hdelay : ctx.delay (table db.tables : Table EvaluationRun).freshKey with
    | error message =>
      refine .inr ⟨by simp [Startable, hdelay], broken_of_error (e := .failure message) ?_ rfl⟩
      rw [run_bind_error (run_external_error rfl _)]
    | ok taskId =>
      have hadded : addedRun ctx submissionId orgId userId configId runMetadata db.tables ∈
          (table mid' : Table EvaluationRun).rows := by
        obtain ⟨t, rfl, hrows⟩ := hmid'
        rw [table_put, hrows]
        exact List.mem_append_right _ List.mem_cons_self
      have hchange := changeRow_follows
        (triggerContract ctx submissionId orgId userId configId runMetadata ip db.tables) ctx
        { db with tables := mid' } "EVALUATION_STARTED"
        (runReport (table db.tables : Table EvaluationRun).freshKey orgId userId ip)
        (dispatched ctx.now taskId
          (addedRun ctx submissionId orgId userId configId runMetadata db.tables))
        hadded rfl rfl hguard
        (fun after hafter row hrow' => by
          rw [hrow] at hrow'
          cases hrow'
          exact ⟨taskId, mid, mid', hdelay, hmid, hmid', hafter⟩)
        rfl (fun _ => runReport_fits _ _ _ _)
      have haction : (AuditAction.ofName "EVALUATION_STARTED").isSome = true := by decide
      have hcond : Startable ctx orgId userId runMetadata db.tables ↔
          varchar 255 taskId = true := by
        simp [Startable, horg, huser, hmeta, hdelay]
      rw [run_bind_ok (run_external_ok rfl _), hcond]
      rw [fits_dispatched ctx.now taskId (hrunFits.trans hmeta), haction] at hchange
      simp only [true_and] at hchange
      exact hchange
  · have hflush : ((updateRow (underReview ctx.now submission) db.tables).bind
        (insertRow (addedRun ctx submissionId orgId userId configId runMetadata db.tables))) =
        .error (.databaseError message) := by
      rw [hupdate]
      exact hinsert
    rw [href, hrunFits] at hnot
    refine .inr ⟨fun h => hnot ⟨h.2.1, h.2.2.1⟩,
      broken_of_error (e := .databaseError message) ?_ rfl⟩
    rw [startRun, run_bind_error (run_flush_error hflush)]

theorem triggerEvaluation_follows (db : Database) :
    (triggerContract ctx submissionId orgId userId configId runMetadata ip db.tables).Follows
      (triggerGuard submissionId orgId configId db.tables = none →
        Startable ctx orgId userId runMetadata db.tables) ctx db
      ((triggerEvaluation ctx submissionId orgId userId configId runMetadata ip).run
        { state := db }) := by
  have hstop : ∀ {e : PyException} {r : Except PyException EvaluationRun × Transaction Database},
      triggerGuard submissionId orgId configId db.tables = some e → r.1 = .error e →
      (triggerContract ctx submissionId orgId userId configId runMetadata ip db.tables).Follows
        (triggerGuard submissionId orgId configId db.tables = none →
          Startable ctx orgId userId runMetadata db.tables) ctx db r :=
    fun he hr => .inl ⟨by simp [he], kept_of_guard he hr⟩
  cases hrow : scopedRow Submission submissionId orgId db.tables with
  | none =>
    apply hstop (e := .notFound "Submission" submissionId)
    · simp [triggerGuard, hrow]
    · rw [triggerEvaluation, run_bind_error (run_getScoped_none _ hrow)]
  | some submission =>
    by_cases harchived : submission.status = .archived
    · apply hstop (e := archivedSubmission)
      · simp [triggerGuard, hrow, harchived]
      · rw [triggerEvaluation, run_bind_ok (run_getScoped_some _ hrow)]
        simp [harchived]
    · rw [triggerEvaluation, run_bind_ok (run_getScoped_some _ hrow), if_neg harchived]
      cases hsnapshot : snapshotOf configId orgId db.tables with
      | none =>
        apply hstop (e := .notFound "Evaluation config" (configId.getD 0))
        · simp [triggerGuard, hrow, harchived, hsnapshot]
        · rw [run_bind_error (run_configSnapshot_none hsnapshot)]
      | some snapshot =>
        rw [run_bind_ok (run_configSnapshot_some hsnapshot), run_bind_ok (run_query _ db)]
        have hexists := organizationRow_isSome orgId db.tables
        cases horg : organizationRow orgId db.tables with
        | none =>
          rw [horg] at hexists
          have hguard : triggerGuard submissionId orgId configId db.tables = none := by
            simp [triggerGuard, hrow, harchived, hsnapshot, horg]
          refine .inr ⟨fun h => ?_, broken_of_error (e := .noResultFound) ?_ rfl⟩
          · have hhas := (h hguard).1
            rw [← hexists] at hhas
            cases hhas
          · rw [run_bind_error (run_fetchOrganization_none horg)]
        | some org =>
          rw [horg] at hexists
          rw [run_bind_ok (run_fetchOrganization_some horg)]
          by_cases hlimit : org.maxConcurrentEvaluations ≤ activeCount orgId db.tables
          · apply hstop (e := limitReached org.maxConcurrentEvaluations)
            · simp [triggerGuard, hrow, harchived, hsnapshot, horg, hlimit]
            · simp [hlimit]
          · have hguard : triggerGuard submissionId orgId configId db.tables = none := by
              simp [triggerGuard, hrow, harchived, hsnapshot, horg, hlimit]
            have hstart := @startRun_follows ctx submissionId orgId userId configId runMetadata ip db
              submission snapshot hrow hsnapshot hexists.symm hguard
            rw [if_neg hlimit, run_bind_ok (run_newKey db)]
            rw [addedRun, hsnapshot] at hstart
            simp only [hguard, forall_const]
            exact hstart

end EvalEngine.TriggerEvaluation
