import EvalEngine.Orchestrator

namespace EvalEngine.OrchestratorRetry

open EvalEngine.JsonValues EvalEngine.Exceptions EvalEngine.QueryResults EvalEngine.RunModel
open EvalEngine.SubmissionModel EvalEngine.Orchestrator

theorem filter_replace (runs : List EvaluationRun) (run : EvaluationRun) :
    (runs.map (fun r => if r.id = run.id then run else r)).filter (fun r => decide (r.id = run.id)) =
      (runs.filter (fun r => decide (r.id = run.id))).map (fun _ => run) := by
  induction runs with
  | nil => rfl
  | cons r runs ih =>
    by_cases h : r.id = run.id
    · simpa [h] using ih
    · simpa [h] using ih

theorem runsById_replaceRun {db : Tables} {runId : UUID} {run run' : EvaluationRun}
    (h : db.runsById runId = [run]) (hid : run'.id = run.id) :
    (db.replaceRun run').runsById runId = [run'] := by
  have hmem : run ∈ db.runsById runId := by simp [h]
  obtain rfl : run'.id = runId := by
    rw [hid]
    simpa using (List.mem_filter.1 hmem).2
  simp only [Tables.runsById, Tables.replaceRun] at h ⊢
  rw [filter_replace, h]
  rfl

theorem prepareRun_closed {db : Tables} {runId : UUID} {run : EvaluationRun} (now : Time)
    (hrun : db.runsById runId = [run]) (hc : run.isTerminal = true) :
    prepareRun db runId now = .ok (db, []) := by
  simp [prepareRun, hrun, scalarOneOrNone, hc, bind, Except.bind, pure, Except.pure]

theorem prepareRun_deleted {db : Tables} {runId : UUID} {run : EvaluationRun} (now : Time)
    (hrun : db.runsById runId = [run]) (ho : run.isTerminal = false)
    (hdel : run.deletedAt.isSome = true) : ∃ e, prepareRun db runId now = .error e := by
  obtain ⟨e, he⟩ := transitionStatus_deleted run runId .running now { totalWorkers := some 4 } hdel
  exact ⟨e, by simp [prepareRun, hrun, scalarOneOrNone, ho, he, bind, Except.bind]⟩

/-- What a committed `_prepare_run` hands out for an open run, and leaves behind. -/
theorem prepareRun_open {db db' : Tables} {runId : UUID} {run : EvaluationRun} {now : Time}
    {context : Dict} (hrun : db.runsById runId = [run]) (ho : run.isTerminal = false)
    (h : prepareRun db runId now = .ok (db', context)) : context ≠ [] ∧
      ∃ run', db'.runsById runId = [run'] ∧ run'.isTerminal = false ∧ run'.deletedAt = none := by
  cases hdel : run.deletedAt with
  | some at_ =>
    obtain ⟨e, he⟩ := prepareRun_deleted now hrun ho (by simp [hdel])
    rw [he] at h
    cases h
  | none =>
    obtain ⟨run', ht, hid, hs, hdel', _⟩ := transitionStatus_live run runId .running now
      { totalWorkers := some 4 } hdel
    simp only [prepareRun, hrun, scalarOneOrNone, ho, ht, bind, Except.bind, pure, Except.pure,
      Bool.false_eq_true, if_false] at h
    split at h
    · cases h
    · cases h
      exact ⟨by simp [pipelineContext], run', runsById_replaceRun hrun hid,
        by simp [EvaluationRun.isTerminal, RunStatus.isTerminal, hs], hdel'⟩

theorem failRun_live {db : Tables} {runId : UUID} {run : EvaluationRun} (error : String) (now : Time)
    (hrun : db.runsById runId = [run]) (ho : run.isTerminal = false) (hdel : run.deletedAt = none) :
    ∃ db' run', failRun db runId error now = .ok db' ∧ db'.runsById runId = [run'] ∧
      run'.isTerminal = true := by
  obtain ⟨run', ht, hid, hs, _⟩ := transitionStatus_live run runId .failed now
    { errorMessage := some error } hdel
  refine ⟨db.replaceRun run', run', ?_, runsById_replaceRun hrun hid,
    by simp [EvaluationRun.isTerminal, RunStatus.isTerminal, hs]⟩
  simp [failRun, hrun, scalarOneOrNone, ho, ht, bind, Except.bind, pure, Except.pure]

theorem failRun_deleted {db : Tables} {runId : UUID} {run : EvaluationRun} (error : String)
    (now : Time) (hrun : db.runsById runId = [run]) (ho : run.isTerminal = false)
    (hdel : run.deletedAt.isSome = true) : ∃ e, failRun db runId error now = .error e := by
  obtain ⟨e, he⟩ := transitionStatus_deleted run runId .failed now { errorMessage := some error } hdel
  exact ⟨e, by simp [failRun, hrun, scalarOneOrNone, ho, he, bind, Except.bind]⟩

/-- A failed attempt leaves the run open; only `_fail_run` closes it. -/
theorem tryDispatch_failed {db db' : Tables} {runId : UUID} {run : EvaluationRun} {now : Time}
    {faults : Faults} {exc : PyException} (hrun : db.runsById runId = [run])
    (ho : run.isTerminal = false) (h : tryDispatch db runId now faults = (db', .error exc)) :
    ∃ run', db'.runsById runId = [run'] ∧ run'.isTerminal = false ∧
      run'.deletedAt.isSome = run.deletedAt.isSome := by
  simp only [tryDispatch] at h
  split at h
  · cases h
    exact ⟨run, hrun, ho, rfl⟩
  · cases h
    exact ⟨run, hrun, ho, rfl⟩
  · rename_i db₁ context _ hp
    obtain ⟨hne, run', hrun', ho', hdel'⟩ := prepareRun_open hrun ho hp
    have hlive : run.deletedAt.isSome = false := by
      by_contra hdel
      obtain ⟨e, he⟩ := prepareRun_deleted now hrun ho (eq_true_of_ne_false hdel)
      rw [he] at hp
      cases hp
    split at h
    · cases h
    · split at h <;> cases h
      exact ⟨run', hrun', ho', by rw [hdel', hlive]; rfl⟩

theorem evaluateSubmission_retry {db : Tables} {runId : UUID} {retries : Nat} {now : Time}
    {faults : Faults} {exc : PyException}
    (h : (evaluateSubmission db runId retries now faults).2 = .retry exc) :
    ∃ db', tryDispatch db runId now faults = (db', .error exc) ∧
      (evaluateSubmission db runId retries now faults).1 = failRunLogged db' runId exc now faults := by
  cases ht : tryDispatch db runId now faults with
  | mk db' result =>
    cases result with
    | ok outcome =>
      -- the normal path never asks for a retry
      simp only [evaluateSubmission, ht] at h
      subst h
      simp only [tryDispatch] at ht
      split at ht
      · cases ht
      · cases ht
      · split at ht
        · cases ht
        · split at ht <;> cases ht
    | error exc' =>
      simp only [evaluateSubmission, ht] at h
      split at h <;> cases h
      exact ⟨db', rfl, by simp [evaluateSubmission, ht]⟩

/-- If the retry gets through `_prepare_run` and meets no fault, it publishes. -/
def RetryEffective (db : Tables) (runId : UUID) (later : Time) : Prop :=
  ∀ db' context, prepareRun db runId later = .ok (db', context) →
    ∃ context', (evaluateSubmission db runId 1 later {}).2 = .dispatched context'

theorem retryEffective_open {db : Tables} {runId : UUID} {run : EvaluationRun} {later : Time}
    (hrun : db.runsById runId = [run]) (ho : run.isTerminal = false) :
    RetryEffective db runId later := by
  intro db' context hp
  have hne := (prepareRun_open hrun ho hp).1
  refine ⟨context, ?_⟩
  simp [evaluateSubmission, tryDispatch, hp, hne]

theorem not_retryEffective_closed (db : Tables) (runId : UUID) {run : EvaluationRun} {later : Time}
    (hrun : db.runsById runId = [run]) (hc : run.isTerminal = true) :
    ¬ RetryEffective db runId later := by
  intro h
  have hp := prepareRun_closed later hrun hc
  obtain ⟨context, hd⟩ := h db [] hp
  simp [evaluateSubmission, tryDispatch, hp] at hd

theorem retryEffective_iff (db : Tables) (runId : UUID) (run : EvaluationRun) (now later : Time)
    (faults : Faults) (exc : PyException) (hrun : db.runsById runId = [run])
    (ho : run.isTerminal = false)
    (hexc : (evaluateSubmission db runId 0 now faults).2 = .retry exc) :
    RetryEffective (evaluateSubmission db runId 0 now faults).1 runId later ↔
      faults.failRun = true ∨ run.deletedAt.isSome = true := by
  obtain ⟨db', ht, hdb⟩ := evaluateSubmission_retry hexc
  obtain ⟨run', hrun', ho', hdel'⟩ := tryDispatch_failed hrun ho ht
  rw [hdb]
  cases hf : faults.failRun with
  | true =>
    simp only [failRunLogged, hf, true_or, iff_true]
    exact retryEffective_open hrun' ho'
  | false =>
    cases hdel : run.deletedAt with
    | some at_ =>
      have hd : run'.deletedAt.isSome = true := by rw [hdel', hdel]; rfl
      obtain ⟨e, he⟩ := failRun_deleted exc.str now hrun' ho' hd
      simp only [failRunLogged, hf, he, Option.isSome_some, or_true, iff_true]
      exact retryEffective_open hrun' ho'
    | none =>
      have hd : run'.deletedAt = none := by
        rw [hdel] at hdel'
        simpa using hdel'
      obtain ⟨db'', run'', hfail, hrun'', hc⟩ := failRun_live exc.str now hrun' ho' hd
      simp only [failRunLogged, hf, hfail, Option.isSome_none, Bool.false_eq_true, or_self, iff_false]
      exact not_retryEffective_closed db'' runId hrun'' hc

def queuedRun : EvaluationRun :=
  { id := 1, submissionId := 2, configId := none, organizationId := 3, triggeredById := none
    createdAt := 10, updatedAt := 10 }

def queuedTables : Tables :=
  { runs := [queuedRun]
    submissions := [{ id := 2, organizationId := 3, submittedById := none, startupName := "Acme"
                      createdAt := 5, updatedAt := 5 }] }

/-- The broker refuses the chord, and the transaction of `_fail_run` is lost as well. -/
def brokerDown : Faults := { dispatch := some (.failure "broker down"), failRun := true }

theorem retryEffective_iff_brokerDown :
    RetryEffective (evaluateSubmission queuedTables 1 0 11 brokerDown).1 1 12 ↔
      brokerDown.failRun = true ∨ queuedRun.deletedAt.isSome = true :=
  retryEffective_iff queuedTables 1 queuedRun 11 12 brokerDown (.failure "broker down") rfl rfl rfl

/-- The law as specified: after any exception the scheduled retry is effective. -/
def RetriesEffective : Prop :=
  ∀ db runId run now later faults exc, db.runsById runId = [run] → run.isTerminal = false →
    (evaluateSubmission db runId 0 now faults).2 = .retry exc →
    RetryEffective (evaluateSubmission db runId 0 now faults).1 runId later

theorem closed_before_retry : ¬ RetriesEffective := by
  intro h
  have heff := h queuedTables 1 queuedRun 11 12 { dispatch := some (.failure "broker down") }
    (.failure "broker down") rfl rfl rfl
  exact not_retryEffective_closed (evaluateSubmission queuedTables 1 0 11
    { dispatch := some (.failure "broker down") }).1 1 rfl rfl heff

end EvalEngine.OrchestratorRetry
