import EvalEngine.Orchestrator
import EvalEngine.PipelineDispatch
import EvalEngine.TriggerEvaluation

namespace EvalEngine.DispatchBeforeCommit

open EvalEngine.JsonValues EvalEngine.Exceptions EvalEngine.QueryResults EvalEngine.RunModel
open EvalEngine.ConstrainedTables EvalEngine.ServiceTables EvalEngine.Transactions
open EvalEngine.AuditService EvalEngine.ServiceContracts EvalEngine.RowOperations
open EvalEngine.SubmissionService EvalEngine.TriggerEvaluation EvalEngine.Transitions
open EvalEngine.RunWriters (Writer)
open EvalEngine.PipelineDispatch (written)
open Entity Stored Contract

/-- How far the request has got, with the row of its run inside its transaction. -/
inductive Phase
  | handling
  | flushed (run : EvaluationRun)
  | sent (run : EvaluationRun)
  | recorded (run : EvaluationRun)
  | reported (t : Transaction (Option EvaluationRun))
  | committed
  | rolledBack

def Phase.isOver : Phase → Bool
  | .committed | .rolledBack => true
  | _ => false

/-- The committed row, the request, the broker, and what each execution of
`evaluate_submission` has found in the place of the row. -/
structure State where
  row : Option EvaluationRun := none
  request : Phase := .handling
  published : Bool := false
  executions : List (Option EvaluationRun) := []

inductive Action
  | flush
  | delay
  | record (taskId : String) (now : Time)
  | report (accepted : Bool)
  | commit
  | raise
  | execute
  | write (version : Nat) (writer : Writer)

/-- The statements of the request stand in the order of the code, and `raise`
ends it anywhere. A message that is published can be executed at any time, and
more than once. -/
def step (run : EvaluationRun) (s : State) : Action → Option State
  | .flush =>
    match s.request with
    | .handling => some { s with request := .flushed run }
    | _ => none
  | .delay =>
    match s.request with
    | .flushed run => some { s with request := .sent run, published := true }
    | _ => none
  | .record taskId now =>
    match s.request with
    | .sent run => some { s with request := .recorded (dispatched now taskId run) }
    | _ => none
  | .report accepted =>
    match s.request with
    | .recorded run =>
      some { s with request := .reported { state := some run, aborted := !accepted } }
    | _ => none
  | .commit =>
    match s.request with
    | .reported t => some { s with
        row := Transactions.commit s.row t
        request := if t.aborted then .rolledBack else .committed }
    | _ => none
  | .raise => if s.request.isOver then none else some { s with request := .rolledBack }
  | .execute => if s.published then some { s with executions := s.executions ++ [s.row] } else none
  | .write version w => some { s with row := s.row.map (written run.id version w) }

def Found (s : State) : Prop :=
  (∀ row ∈ s.executions, row.isSome = true) ∧ (s.request = .rolledBack → s.executions = [])

/-- A dispatched run exists. -/
def DispatchedRunExists (run : EvaluationRun) (ok : State → Action → Prop) : Prop :=
  ∀ s, Exec (step run) ok {} s → Found s

/-- The message waits for the end of the request, and nothing rolls the
request back once the message is out. -/
def Held (s : State) : Action → Prop
  | .execute => s.request.isOver = true
  | .raise => s.published = false
  | .commit => ∀ t, s.request = .reported t → t.aborted = false
  | _ => True

structure Inv (s : State) : Prop where
  found : ∀ row ∈ s.executions, row.isSome = true
  unsent : s.published = false → s.executions = []
  committed : s.request = .committed → s.row.isSome = true
  rolledBack : s.request = .rolledBack → s.published = false
  reported : ∀ t, s.request = .reported t → t.state.isSome = true

theorem inv_start : Inv {} := by
  refine ⟨?_, fun _ => rfl, ?_, ?_, ?_⟩
  · rintro row ⟨⟩
  · rintro ⟨⟩
  · rintro ⟨⟩
  · rintro t ⟨⟩

theorem inv_step {run : EvaluationRun} (s : State) (a : Action) (t : State) (hinv : Inv s)
    (hok : Held s a) (h : step run s a = some t) : Inv t := by
  cases a with
  | flush =>
    simp only [step] at h
    split at h <;> cases h
    exact ⟨hinv.found, hinv.unsent, by rintro ⟨⟩, by rintro ⟨⟩, by rintro t ⟨⟩⟩
  | delay =>
    simp only [step] at h
    split at h <;> cases h
    exact ⟨hinv.found, by rintro ⟨⟩, by rintro ⟨⟩, by rintro ⟨⟩, by rintro t ⟨⟩⟩
  | record taskId now =>
    simp only [step] at h
    split at h <;> cases h
    exact ⟨hinv.found, hinv.unsent, by rintro ⟨⟩, by rintro ⟨⟩, by rintro t ⟨⟩⟩
  | report accepted =>
    simp only [step] at h
    split at h <;> cases h
    exact ⟨hinv.found, hinv.unsent, by rintro ⟨⟩, by rintro ⟨⟩, by rintro t ⟨⟩; rfl⟩
  | commit =>
    simp only [step] at h
    split at h
    next t hreported =>
      cases h
      have hclean : t.aborted = false := hok t hreported
      have hrow : Transactions.commit s.row t = t.state := by simp [Transactions.commit, hclean]
      simp only [hrow, hclean, Bool.false_eq_true, if_false]
      exact ⟨hinv.found, hinv.unsent, fun _ => hinv.reported t hreported, by rintro ⟨⟩,
        by rintro t ⟨⟩⟩
    next => cases h
  | raise =>
    simp only [step] at h
    split at h <;> cases h
    exact ⟨hinv.found, hinv.unsent, by rintro ⟨⟩, fun _ => hok, by rintro t ⟨⟩⟩
  | execute =>
    simp only [step] at h
    split at h
    next hpublished =>
      cases h
      have hover : s.request.isOver = true := hok
      have hcommitted : s.request = .committed := by
        cases hreq : s.request with
        | committed => rfl
        | rolledBack =>
          have hunsent := hinv.rolledBack hreq
          rw [hpublished] at hunsent
          cases hunsent
        | _ =>
          rw [hreq] at hover
          cases hover
      refine ⟨?_, ?_, hinv.committed, hinv.rolledBack, hinv.reported⟩
      · intro row hrow
        obtain hold | hnew := List.mem_append.1 hrow
        · exact hinv.found row hold
        · rw [List.mem_singleton.1 hnew]
          exact hinv.committed hcommitted
      · intro hunsent
        rw [hpublished] at hunsent
        cases hunsent
    next => cases h
  | write version w =>
    cases h
    refine ⟨hinv.found, hinv.unsent, ?_, hinv.rolledBack, hinv.reported⟩
    intro hcommitted
    rw [Option.isSome_map]
    exact hinv.committed hcommitted

theorem Inv.holds {s : State} (h : Inv s) : Found s :=
  ⟨h.found, fun hback => h.unsent (h.rolledBack hback)⟩

theorem dispatchedRunExists_of_held (run : EvaluationRun) : DispatchedRunExists run Held := by
  intro s h
  exact (h.invariant inv_start inv_step).holds

/-- The request has published the message and is still open. -/
def Phase.isSent : Phase → Bool
  | .sent _ | .recorded _ | .reported _ => true
  | _ => false

/-- What needs no guard: nobody sees the row before the request is over, and
the request publishes the message before it commits. -/
structure Order (s : State) : Prop where
  hidden : s.request.isOver = false → s.row = none
  sent : s.request.isSent = true → s.published = true

theorem order_step {run : EvaluationRun} (s : State) (a : Action) (t : State) (horder : Order s)
    (_ : free s a) (h : step run s a = some t) : Order t := by
  cases a with
  | flush =>
    simp only [step] at h
    split at h <;> cases h
    exact ⟨fun _ => horder.hidden (by simp [*, Phase.isOver]), by rintro ⟨⟩⟩
  | delay =>
    simp only [step] at h
    split at h <;> cases h
    exact ⟨fun _ => horder.hidden (by simp [*, Phase.isOver]), fun _ => rfl⟩
  | record taskId now =>
    simp only [step] at h
    split at h <;> cases h
    exact ⟨fun _ => horder.hidden (by simp [*, Phase.isOver]),
      fun _ => horder.sent (by simp [*, Phase.isSent])⟩
  | report accepted =>
    simp only [step] at h
    split at h <;> cases h
    exact ⟨fun _ => horder.hidden (by simp [*, Phase.isOver]),
      fun _ => horder.sent (by simp [*, Phase.isSent])⟩
  | commit =>
    simp only [step] at h
    split at h
    next t _ =>
      cases h
      cases t.aborted <;> exact ⟨by rintro ⟨⟩, by rintro ⟨⟩⟩
    next => cases h
  | raise =>
    simp only [step] at h
    split at h <;> cases h
    exact ⟨by rintro ⟨⟩, by rintro ⟨⟩⟩
  | execute =>
    simp only [step] at h
    split at h <;> cases h
    exact ⟨horder.hidden, horder.sent⟩
  | write version w =>
    cases h
    refine ⟨fun hover => ?_, horder.sent⟩
    rw [horder.hidden hover]
    rfl

theorem not_found_of_rolledBack {run : EvaluationRun} {s : State} (hback : s.request = .rolledBack)
    (hpublished : s.published = true) : ∃ t, Exec (step run) free s t ∧ ¬ Found t := by
  have hstep : step run s .execute = some { s with executions := s.executions ++ [s.row] } := by
    simp [step, hpublished]
  refine ⟨_, Exec.single trivial hstep, ?_⟩
  rintro ⟨_, hnone⟩
  exact absurd (hnone hback) (by simp)

/-- Each step that the guard leaves out lets a worker look for a row that is
not there, or execute the message of a request that is rolled back. -/
theorem not_found_of_not_held {run : EvaluationRun} {s t : State} {a : Action}
    (hreach : Exec (step run) free {} s) (hok : ¬ Held s a) (h : step run s a = some t) :
    ∃ u, Exec (step run) free t u ∧ ¬ Found u := by
  have horder : Order s := hreach.invariant ⟨fun _ => rfl, by rintro ⟨⟩⟩ order_step
  cases a with
  | execute =>
    have hrow := horder.hidden (by simpa [Held] using hok)
    simp only [step] at h
    split at h <;> cases h
    refine ⟨_, Exec.refl _, ?_⟩
    rintro ⟨hfound, _⟩
    have hlast := hfound s.row (by simp)
    rw [hrow] at hlast
    cases hlast
  | raise =>
    have hpublished : s.published = true := by simpa [Held] using hok
    simp only [step] at h
    split at h <;> cases h
    exact not_found_of_rolledBack rfl hpublished
  | commit =>
    simp only [Held, not_forall, Bool.not_eq_false] at hok
    obtain ⟨t', hreported, haborted⟩ := hok
    have hpublished := horder.sent (by simp [hreported, Phase.isSent])
    simp only [step, hreported, haborted, if_true, Option.some.injEq] at h
    subst h
    exact not_found_of_rolledBack rfl hpublished
  | flush | delay | record _ _ | report _ | write _ _ => exact absurd trivial hok

/-- `_prepare_run` takes a row that is not there for an error. -/
theorem prepareRun_missing {db : Orchestrator.Tables} {runId : UUID} (now : Time)
    (h : db.runsById runId = []) : Orchestrator.prepareRun db runId now =
      .error (.valueError ("Evaluation run " ++ uuidText runId ++ " not found")) := by
  simp [Orchestrator.prepareRun, h, scalarOneOrNone, bind, Except.bind]

section Handler

variable {ctx : Context} {submissionId orgId userId : UUID} {configId : Option UUID}
  {runMetadata : Option Dict} {ip : Option String}

/-- The run of a request as some tables have it. -/
def runRow (runId : UUID) (tables : Tables) : Option EvaluationRun :=
  tables.evaluationRuns.rows.find? (fun run => decide (run.id = runId))

theorem runRow_fresh (tables : Tables) :
    runRow (table tables : Table EvaluationRun).freshKey tables = none := by
  apply List.find?_eq_none.2
  intro run hrun hid
  have hlt := tables.evaluationRuns.lt_freshKey hrun
  exact absurd (of_decide_eq_true hid) (Nat.ne_of_lt hlt)

theorem runRow_of_mem {tables : Tables} {run : EvaluationRun}
    (h : run ∈ tables.evaluationRuns.rows) : runRow run.id tables = some run := by
  have hfilter := tables.evaluationRuns.filter_key (fun r => decide (r.id = run.id)) run.id
    (fun _ hr => of_decide_eq_true hr)
  have hmem : run ∈ tables.evaluationRuns.rows.filter (fun r => decide (r.id = run.id)) :=
    List.mem_filter.2 ⟨h, decide_eq_true rfl⟩
  rw [hfilter] at hmem
  simpa [runRow] using hmem

/-- A handler that returns has taken the steps of the model up to its COMMIT,
with no committed row yet. -/
theorem handler_reported {db : Database} {run' : EvaluationRun} {t : Transaction Database}
    (h : (triggerEvaluation ctx submissionId orgId userId configId runMetadata ip).run
      { state := db } = (.ok run', t)) :
    ∃ run taskId, run.id = (table db.tables : Table EvaluationRun).freshKey ∧
      ctx.delay run.id = .ok taskId ∧ runRow run.id db.tables = none ∧
      runList (step run) {} [.flush, .delay, .record taskId ctx.now, .report !t.aborted] =
        some {
          request := .reported { state := runRow run.id t.state.tables, aborted := t.aborted }
          published := true } := by
  have hfollows := @triggerEvaluation_follows ctx submissionId orgId userId configId runMetadata ip db
  rw [h] at hfollows
  obtain ⟨_, hguard, after, hchange, _, ht⟩ := hfollows.of_ok rfl
  have hsubmission : ∃ submission, scopedRow SubmissionModel.Submission submissionId orgId db.tables =
      some submission := by
    cases hrow : scopedRow SubmissionModel.Submission submissionId orgId db.tables with
    | some submission => exact ⟨submission, rfl⟩
    | none =>
      have hstop : triggerGuard submissionId orgId configId db.tables =
          some (.notFound "Submission" submissionId) := by simp [triggerGuard, hrow]
      rw [show triggerGuard submissionId orgId configId db.tables = none from hguard] at hstop
      cases hstop
  obtain ⟨submission, hrow⟩ := hsubmission
  obtain ⟨taskId, mid, mid', hdelay, _, hinserted, hupdated⟩ := hchange submission hrow
  have hadded : addedRun ctx submissionId orgId userId configId runMetadata db.tables ∈
      (table mid' : Table EvaluationRun).rows := by
    obtain ⟨t', rfl, hrows⟩ := hinserted
    rw [table_put, hrows]
    exact List.mem_append_right _ List.mem_cons_self
  have hrecorded := runRow_of_mem (mem_of_updated hupdated hadded rfl)
  have htables : t.state.tables = after := by
    change t = _ at ht
    rw [ht, close_tables]
  refine ⟨addedRun ctx submissionId orgId userId configId runMetadata db.tables, taskId, rfl, hdelay,
    runRow_fresh db.tables, ?_⟩
  rw [htables]
  simp only [runList, step, Option.bind_some, Bool.not_not]
  rw [← hrecorded]
  rfl

end Handler

section Sample

def sampleRun : EvaluationRun :=
  SubmissionService.newRun 10 1 1 1 1 none [] none

/-- The message is executed twice after the commit, once before and once after the preparation. -/
theorem executed_after_commit : ∃ s, s.executions.map Option.isSome = [true, true] ∧ Found s := by
  have hcommitted := (((((@Exec.refl _ _ (step sampleRun) Held {}).tail (a := Action.flush) trivial
    rfl).tail (a := Action.delay) trivial rfl).tail (a := Action.record "task" 11) trivial rfl).tail
    (a := Action.report true) trivial rfl).tail (a := Action.commit) (by rintro t ⟨⟩; rfl) rfl
  have hexecuted := ((hcommitted.tail (a := Action.execute) rfl rfl).tail
    (a := Action.write 1 (.prepareRun 12)) trivial rfl).tail (a := Action.execute) rfl rfl
  exact ⟨_, rfl, dispatchedRunExists_of_held sampleRun _ hexecuted⟩

/-- The message is executed before the request commits. -/
theorem executed_before_commit : ¬ DispatchedRunExists sampleRun free := by
  intro h
  have hfound := h _ (exec_get (step sampleRun) {} [.flush, .delay, .execute] rfl)
  cases hfound.1 none (by simp [runList, step])

end Sample

end EvalEngine.DispatchBeforeCommit
