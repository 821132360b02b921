import EvalEngine.TaskObjects

namespace EvalEngine.BodyReached

open EvalEngine.JsonValues EvalEngine.Exceptions EvalEngine.RunModel EvalEngine.SubmissionModel
open EvalEngine.QueryResults EvalEngine.Orchestrator EvalEngine.PythonCall EvalEngine.TaskObjects

/-- The outside world of an invocation that has nothing to skip and meets no failure. -/
structure Smooth (out : Outside) : Prop where
  fresh : out.cached = .ok none
  created : out.created = .ok ()
  analysed : ∀ analysis, ∃ output, out.output analysis = .ok output
  marked : out.marked = .ok ()

def runIdValue (runId : UUID) : Value := .json (.str (uuidText runId))

/-- The message is bound and processed to its end, with the analysis executed
once between the idempotency check and the completion mark. -/
def ReachesBody (out : Outside) (task : TaskObject) (workerType : String) (analysis : Analysis)
    (runId : UUID) (context : Dict) : Prop :=
  ∃ fuel output kwargs, invoke out task fuel runId context = some (.ok output,
    [.checkIdempotent workerType (runIdValue runId), .createWorkerResult workerType (runIdValue runId),
      .analyse analysis (runIdValue runId) kwargs,
      .markCompleted workerType (runIdValue runId) output])

def entryFunction (analysis : Analysis) : Function :=
  entryPoint (match analysis with
    | .analyzeGithub => "github_analysis_task"
    | .analyzePitchDeck => "pitch_deck_task"
    | .analyzeVideo => "video_analysis_task"
    | .verifyWeb => "web_verification_task") analysis.workerType

theorem task_run (analysis : Analysis) :
    analysis.task.run = .method (entryFunction analysis) := by
  cases analysis <;> rfl

theorem context_keys {db db' : Tables} {runId : UUID} {now : Time} {context : Dict}
    (h : prepareRun db runId now = .ok (db', context)) :
    context = [] ∨ "run_id" ∈ context.map Prod.fst := by
  simp only [prepareRun, bind, Except.bind, pure, Except.pure] at h
  split at h
  · cases h
  · split at h
    · cases h
    · split at h
      · cases h
        exact .inl rfl
      · split at h
        · cases h
        · split at h <;> cases h
          exact .inr (by simp [pipelineContext])

/-- A keyword `run_id` clashes with the positional run id of every call. -/
theorem callFunction_clash (out : Outside) (task : TaskObject) (fuel : Nat) (workerType : String)
    (f : Function) (runId : Value) {kwargs : Kwargs} (hf : f.signature = selfRunId)
    (hk : "run_id" ∈ kwargs.map Prod.fst) :
    ∃ message, callFunction out task (fuel + 1) workerType f [.task, runId] kwargs =
      some (.error (.typeError message), []) := by
  have hp : "run_id" ∈ (f.signature.params.zip [Value.task, runId]).map Prod.fst := by
    simp [hf, selfRunId]
  obtain ⟨e, he⟩ := bindCall_duplicate hp hk
  exact ⟨_, by rw [callFunction, he]⟩

theorem bindCall_selfRunId (runId : Value) {kwargs : Kwargs}
    (hfresh : ∀ kw ∈ kwargs, kw.1 ∉ selfRunId.params) :
    bindCall selfRunId [.task, runId] kwargs =
      .ok ⟨[("self", .task), ("run_id", runId)], kwargs⟩ :=
  bindCall_positional rfl rfl hfresh

/-- Once the decorator has replaced `run`, the entry point calls itself: no
depth of recursion is enough. -/
theorem callFunction_loops (out : Outside) {task : TaskObject} {name workerType : String}
    (hrun : task.run = .method (entryPoint name workerType)) (runId : Value) {kwargs : Kwargs}
    (hfresh : ∀ kw ∈ kwargs, kw.1 ∉ selfRunId.params) (fuel : Nat) :
    ∀ current, callFunction out task fuel current (entryPoint name workerType) [.task, runId] kwargs =
      none := by
  induction fuel with
  | zero => intro current; rfl
  | succ fuel ih =>
    intro current
    have hb : bindCall (entryPoint name workerType).signature [.task, runId] kwargs =
        .ok ⟨[("self", .task), ("run_id", runId)], kwargs⟩ := bindCall_selfRunId runId hfresh
    rw [callFunction, hb]
    simpa [entryPoint, Bound.get, hrun] using ih workerType

/-- The lambda on the task object takes the run id for `self`. -/
theorem unbound_execute_fails (out : Outside) (task : TaskObject) (fuel : Nat) (workerType : String)
    (analysis : Analysis) {runId : Value} {kwargs : Kwargs}
    (hfresh : ∀ kw ∈ kwargs, kw.1 ∉ selfRunId.params) :
    callFunction out task (fuel + 1) workerType (analysisLambda analysis) [runId] kwargs =
      some (.error (.typeError (bindErrorText "<lambda>" (.missing "run_id"))), []) := by
  have hkw := bindKeywords_rest selfRunId rfl kwargs ⟨[("self", runId)], []⟩
    (fun kw h => ⟨fun hself => hfresh kw h (by simp_all [Bound.names, selfRunId]), hfresh kw h⟩)
  have hb : bindCall (analysisLambda analysis).signature [runId] kwargs =
      .error (.missing "run_id") := by
    simp only [bindCall, analysisLambda, selfRunId, List.zip_cons_cons, List.zip_nil_right] at hkw ⊢
    rw [hkw]
    simp [Except.bind, Bound.names]
  rw [callFunction, hb]
  rfl

theorem invoke_clash (out : Outside) (analysis : Analysis) (fuel : Nat) (runId : UUID)
    (context : Dict) (hk : "run_id" ∈ context.map Prod.fst) :
    ∃ message, invoke out analysis.task (fuel + 1) runId context =
      some (.error (.typeError message), []) := by
  have hk' : "run_id" ∈ (context.map (fun kv => (kv.1, Value.json kv.2))).map Prod.fst := by
    simpa using hk
  obtain ⟨message, hm⟩ := callFunction_clash out analysis.task fuel "unknown"
    (entryFunction analysis) (runIdValue runId) rfl hk'
  exact ⟨message, by simpa [invoke, task_run, runIdValue] using hm⟩

theorem invoke_loops (out : Outside) (analysis : Analysis) (fuel : Nat) (runId : UUID) :
    invoke out analysis.task fuel runId [] = none := by
  have h := callFunction_loops out (task_run analysis) (runIdValue runId) (List.forall_mem_nil _) fuel
    "unknown"
  simpa [invoke, task_run, runIdValue, entryFunction] using h

theorem never_reaches_body (db db' : Tables) (runId : UUID) (now : Time) (context : Dict)
    (out : Outside) (analysis : Analysis) (h : prepareRun db runId now = .ok (db', context)) :
    ¬ ReachesBody out analysis.task analysis.workerType analysis runId context := by
  rintro ⟨fuel, output, kwargs, hinv⟩
  obtain rfl | hk := context_keys h
  · rw [invoke_loops] at hinv
    cases hinv
  · cases fuel with
    | zero => simp [invoke, task_run, callFunction] at hinv
    | succ fuel =>
      obtain ⟨message, hm⟩ := invoke_clash out analysis fuel runId context hk
      rw [hm] at hinv
      cases hinv

def pendingRun : EvaluationRun :=
  { id := 1, submissionId := 2, configId := none, organizationId := 3, triggeredById := none
    createdAt := 10, updatedAt := 10 }

def pitchedSubmission : Submission :=
  { id := 2, organizationId := 3, submittedById := none, startupName := "Acme", createdAt := 5
    updatedAt := 5 }

def freshTables : Tables := { runs := [pendingRun], submissions := [pitchedSubmission] }

def smoothOutside : Outside :=
  { cached := .ok none, created := .ok (), output := fun _ => .ok [], marked := .ok () }

theorem smoothOutside_smooth : Smooth smoothOutside :=
  ⟨rfl, rfl, fun _ => ⟨[], rfl⟩, rfl⟩

theorem never_reaches_body_pending :
    ¬ ReachesBody smoothOutside githubAnalysisTask "github_analysis" .analyzeGithub 1
      (pipelineContext 1 pendingRun pitchedSubmission) :=
  never_reaches_body freshTables _ 1 11 _ smoothOutside .analyzeGithub rfl

/-- The pipeline as specified: whatever `_prepare_run` hands out, each of the
four messages reaches its analysis. -/
def PipelineReachesBodies : Prop :=
  ∀ db db' runId now context out analysis, prepareRun db runId now = .ok (db', context) →
    Smooth out → ReachesBody out analysis.task analysis.workerType analysis runId context

theorem pipeline_misses_bodies : ¬ PipelineReachesBodies := by
  intro h
  obtain ⟨fuel, output, kwargs, hinv⟩ := h freshTables _ 1 11 _ smoothOutside .analyzeGithub rfl
    smoothOutside_smooth
  cases fuel with
  | zero => cases hinv
  | succ fuel =>
    obtain ⟨message, hm⟩ := invoke_clash smoothOutside .analyzeGithub fuel 1
      (pipelineContext 1 pendingRun pitchedSubmission) (by simp [pipelineContext])
    rw [hm] at hinv
    cases hinv

/-- The task object with all three slips mended: the lifecycle stays the `run`
of the object, `execute` is a method, and the context leaves out the run id. -/
def mended (analysis : Analysis) : TaskObject :=
  { baseEvalTask with execute := .method (analysisLambda analysis) }

theorem mended_reaches_body (out : Outside) (hout : Smooth out) (analysis : Analysis) (runId : UUID)
    (context : Dict) (hfresh : ∀ kv ∈ context, kv.1 ∉ selfRunId.params) :
    ReachesBody out (mended analysis) "unknown" analysis runId context := by
  obtain ⟨output, ho⟩ := hout.analysed analysis
  have hkw : ∀ kw ∈ context.map (fun kv => (kv.1, Value.json kv.2)), kw.1 ∉ selfRunId.params := by
    intro kw hmem
    obtain ⟨kv, hkv, rfl⟩ := List.mem_map.1 hmem
    exact hfresh kv hkv
  have hb := bindCall_selfRunId (runIdValue runId) hkw
  refine ⟨2, output, context.map (fun kv => (kv.1, Value.json kv.2)), ?_⟩
  simp only [runIdValue] at hb ⊢
  simp [invoke, mended, baseEvalTask, callFunction, analysisLambda, hb, Bound.get, lifecycle, ho,
    hout.fresh, hout.created, hout.marked]

end EvalEngine.BodyReached
