import EvalEngine.BodyReached
import EvalEngine.SingleDispatch

namespace EvalEngine.CheckedDispatch

open EvalEngine.JsonValues EvalEngine.Exceptions EvalEngine.RunModel EvalEngine.SubmissionModel
open EvalEngine.Orchestrator EvalEngine.PythonCall EvalEngine.TaskObjects EvalEngine.BodyReached
open EvalEngine.Transitions EvalEngine.RunLifecycle EvalEngine.SingleDispatch
open EvalEngine.RunWriters hiding Action start step
open EvalEngine.PipelineDispatch hiding State start step

/-- `task.apply_async(args, kwargs)` for a task made from a function: the
message is sent, or an exception is raised in the caller. -/
abbrev ApplyAsync := Function → List Value → Kwargs → Except PyException Unit

/-- The header of a bound task: the parameters of its function after `self`. -/
def header (f : Function) : Signature := { f.signature with params := f.signature.params.tail }

/-- Arguments that the header of a task does not take are refused before a
message is sent, as they would be in a call of the function. -/
def TypeChecked (applyAsync : ApplyAsync) : Prop :=
  ∀ f args kwargs e, bindCall (header f) args kwargs = .error e →
    ∃ exc, applyAsync f args kwargs = .error exc

def parallelTasks : List Analysis := [.analyzeGithub, .analyzePitchDeck, .analyzeVideo, .verifyWeb]

/-- `chord(parallel_tasks)(sequential_pipeline)`: the signatures
`task.s(run_id, **context)` of the group are applied in order. -/
def publishChord (applyAsync : ApplyAsync) (runId : UUID) (context : Dict) : Except PyException Unit :=
  forM parallelTasks fun analysis => applyAsync (entryFunction analysis) [runIdValue runId]
    (context.map (fun kv => (kv.1, Value.json kv.2)))

/-- The deliveries for one run, each with the context that its `_prepare_run` returned. -/
structure State where
  pipeline : PipelineDispatch.State
  context : Nat → Dict := fun _ => []

def start (req : TriggerRequest) (runId : UUID) (now : Time) : State :=
  { pipeline := PipelineDispatch.start req runId now }

/-- A step of the pipeline; a commit also has the submission that
`_prepare_run` has read by then. -/
structure Event where
  action : PipelineDispatch.Action
  submission : Submission

/-- Where the publication raises, the delivery ends. What its `except` branch
does next, `_fail_run` and a retry, is one of the other writers of the row and
a further delivery. -/
def step (applyAsync : ApplyAsync) (runId : UUID) (s : State) (e : Event) : Option State :=
  match e.action with
  | .commit i now => (PipelineDispatch.step runId s.pipeline (.commit i now)).map fun p =>
    { pipeline := p
      context := Function.update s.context i (pipelineContext runId s.pipeline.row e.submission) }
  | .publish i =>
    match s.pipeline.delivery i, publishChord applyAsync runId (s.context i) with
    | .prepared, .error _ => some { s with pipeline := s.pipeline.move i .ended }
    | _, _ => (PipelineDispatch.step runId s.pipeline (.publish i)).map fun p =>
      { s with pipeline := p }
  | a => (PipelineDispatch.step runId s.pipeline a).map fun p => { s with pipeline := p }

variable {applyAsync : ApplyAsync} {runId : UUID} {s t : State}

/-- The run id is passed by position, so a context that has it too is refused. -/
theorem publishChord_clash (hcheck : TypeChecked applyAsync) (runId : UUID) {context : Dict}
    (hk : "run_id" ∈ context.map Prod.fst) :
    ∃ exc, publishChord applyAsync runId context = .error exc := by
  have hp : "run_id" ∈
      ((header (entryFunction .analyzeGithub)).params.zip [runIdValue runId]).map Prod.fst := by
    simp [header, entryFunction, entryPoint, selfRunId]
  have hk' : "run_id" ∈ (context.map (fun kv => (kv.1, Value.json kv.2))).map Prod.fst := by
    simpa using hk
  obtain ⟨e, he⟩ := bindCall_duplicate hp hk'
  obtain ⟨exc, hexc⟩ := hcheck _ _ _ e he
  refine ⟨exc, ?_⟩
  simp only [publishChord, parallelTasks, List.forM_cons, hexc]
  rfl

/-- A delivery that is about to publish has its run id in the context. -/
structure Unpublished (s : State) : Prop where
  none : s.pipeline.chords = 0
  carries : ∀ i, s.pipeline.delivery i = .prepared → "run_id" ∈ (s.context i).map Prod.fst

theorem unpublished_start (req : TriggerRequest) (runId : UUID) (now : Time) :
    Unpublished (start req runId now) :=
  ⟨rfl, by rintro i ⟨⟩⟩

theorem pipelineContext_runId (runId : UUID) (run : EvaluationRun) (submission : Submission) :
    "run_id" ∈ (pipelineContext runId run submission).map Prod.fst := by
  simp [pipelineContext]

/-- Only a commit prepares a delivery, and only a publication adds a chord. -/
theorem pipeline_step {p q : PipelineDispatch.State} {a : PipelineDispatch.Action}
    (h : PipelineDispatch.step runId p a = some q) :
    (∃ i now, a = .commit i now ∧ q.chords = p.chords ∧
      ∀ j, q.delivery j = .prepared → j = i ∨ p.delivery j = .prepared) ∨
    (∃ i, a = .publish i ∧ p.delivery i = .prepared) ∨
    ((∀ i now, a ≠ .commit i now) ∧ (∀ i, a ≠ .publish i) ∧ q.chords = p.chords ∧
      ∀ j, q.delivery j = .prepared → p.delivery j = .prepared) := by
  cases a with
  | commit i now =>
    refine .inl ⟨i, now, rfl, ?_⟩
    simp only [PipelineDispatch.step] at h
    split at h
    · split at h <;> cases h
      · exact ⟨rfl, fun j hj => (move_eq hj).imp And.left id⟩
      · exact ⟨rfl, fun j hj => (move_eq hj).imp And.left id⟩
    · cases h
  | publish i =>
    refine .inr (.inl ⟨i, rfl, ?_⟩)
    simp only [PipelineDispatch.step] at h
    split at h
    · assumption
    · cases h
  | read i =>
    refine .inr (.inr ⟨by rintro _ _ ⟨⟩, by rintro _ ⟨⟩, ?_⟩)
    simp only [PipelineDispatch.step] at h
    split at h <;> cases h
    refine ⟨rfl, fun j hj => ?_⟩
    obtain ⟨_, hd⟩ | hj := move_eq hj
    · split at hd <;> cases hd
    · exact hj
  | stop i =>
    refine .inr (.inr ⟨by rintro _ _ ⟨⟩, by rintro _ ⟨⟩, ?_⟩)
    cases h
    refine ⟨rfl, fun j hj => ?_⟩
    obtain ⟨_, hd⟩ | hj := move_eq hj
    · cases hd
    · exact hj
  | begin tx w =>
    refine .inr (.inr ⟨by rintro _ _ ⟨⟩, by rintro _ ⟨⟩, ?_⟩)
    simp only [PipelineDispatch.step] at h
    split at h <;> cases h
    exact ⟨rfl, fun _ => id⟩
  | write tx | rollback tx =>
    refine .inr (.inr ⟨by rintro _ _ ⟨⟩, by rintro _ ⟨⟩, ?_⟩)
    simp only [PipelineDispatch.step, Option.map_eq_some_iff] at h
    obtain ⟨f, _, rfl⟩ := h
    exact ⟨rfl, fun _ => id⟩
  | cleanup now =>
    refine .inr (.inr ⟨by rintro _ _ ⟨⟩, by rintro _ ⟨⟩, ?_⟩)
    cases h
    exact ⟨rfl, fun _ => id⟩

theorem unpublished_step (hcheck : TypeChecked applyAsync) {e : Event} (hs : Unpublished s)
    (h : step applyAsync runId s e = some t) : Unpublished t := by
  obtain ⟨action, submission⟩ := e
  have hother : ∀ p, PipelineDispatch.step runId s.pipeline action = some p →
      (∀ i now, action ≠ .commit i now) → (∀ i, action ≠ .publish i) →
      Unpublished { s with pipeline := p } := by
    intro p hp hcommit hpublish
    obtain ⟨i, now, rfl, _⟩ | ⟨i, rfl, _⟩ | ⟨_, _, hchords, hprepared⟩ := pipeline_step hp
    · exact absurd rfl (hcommit i now)
    · exact absurd rfl (hpublish i)
    · exact ⟨hchords.trans hs.none, fun j hj => hs.carries j (hprepared j hj)⟩
  cases action with
  | commit i now =>
    simp only [step, Option.map_eq_some_iff] at h
    obtain ⟨p, hp, rfl⟩ := h
    obtain ⟨_, _, hi, hchords, hprepared⟩ | ⟨_, ⟨⟩, _⟩ | ⟨hcommit, _⟩ := pipeline_step hp
    · cases hi
      refine ⟨hchords.trans hs.none, fun j hj => ?_⟩
      by_cases hji : j = i
      · subst hji
        simp only [Function.update_self]
        exact pipelineContext_runId runId _ _
      · simp only [Function.update_of_ne hji]
        exact hs.carries j ((hprepared j hj).resolve_left hji)
    · exact absurd rfl (hcommit i now)
  | publish i =>
    simp only [step] at h
    split at h
    · cases h
      refine ⟨hs.none, fun j hj => ?_⟩
      obtain ⟨_, hd⟩ | hj := move_eq hj
      · cases hd
      · exact hs.carries j hj
    · rename_i hnot
      simp only [Option.map_eq_some_iff] at h
      obtain ⟨p, hp, _⟩ := h
      obtain ⟨_, _, ⟨⟩, _⟩ | ⟨_, hi, hprepared⟩ | ⟨_, hpublish, _⟩ := pipeline_step hp
      · cases hi
        obtain ⟨exc, hexc⟩ := publishChord_clash hcheck runId (hs.carries i hprepared)
        exact absurd hexc (hnot exc hprepared)
      · exact absurd rfl (hpublish i)
  | read _ | stop _ | begin _ _ | write _ | rollback _ | cleanup _ =>
    simp only [step, Option.map_eq_some_iff] at h
    obtain ⟨p, hp, rfl⟩ := h
    exact hother p hp (by rintro _ _ ⟨⟩) (by rintro _ ⟨⟩)

/-- The dispatch raises before any chord is published. The second part is about
the dispatch without that slip: it publishes one chord at most as long as no
delivery takes a published pipeline over. -/
theorem dispatched_at_most_once (applyAsync : ApplyAsync) (hcheck : TypeChecked applyAsync)
    (req : TriggerRequest) (runId : UUID) (now : Time) :
    (∀ s, Exec (step applyAsync runId) free (start req runId now) s → s.pipeline.chords ≤ 1) ∧
      AtMostOneChord req runId now Unclaimed := by
  refine ⟨fun s h => ?_, atMostOneChord_of_unclaimed req runId now⟩
  have hs := h.invariant (unpublished_start req runId now) fun s _ t hs _ hst =>
    unpublished_step hcheck hs hst
  exact Nat.le_of_eq hs.none |>.trans (Nat.zero_le 1)

/-- The check of the arguments, and a broker that takes every message. -/
def checkedSend : ApplyAsync := fun f args kwargs =>
  match bindCall (header f) args kwargs with
  | .error e => .error (.typeError (bindErrorText f.name e))
  | .ok _ => .ok ()

theorem checkedSend_typeChecked : TypeChecked checkedSend := by
  intro f args kwargs e h
  exact ⟨_, by rw [checkedSend, h]⟩

/-- Two deliveries in turn: the first one fails at the dispatch, and before its
`_fail_run` has committed, the second one takes the RUNNING run over. -/
def overlapping : List Event :=
  [.read 0, .commit 0 11, .publish 0, .begin 0 (.failRun "multiple values" 12), .read 1, .commit 1 12,
    .publish 1, .write 0, .begin 1 (.failRun "multiple values" 13), .write 1, .read 2].map
    fun action => ⟨action, pitchedSubmission⟩

theorem overlapping_dispatched_at_most_once :
    ∃ s, runList (step checkedSend 1) (start raceRequest 1 10) overlapping = some s ∧
      s.pipeline.chords ≤ 1 ∧ s.pipeline.row.status = .failed := by
  have h : (runList (step checkedSend 1) (start raceRequest 1 10) overlapping).isSome =
      true := rfl
  refine ⟨_, (Option.some_get h).symm, ?_, rfl⟩
  exact (dispatched_at_most_once checkedSend checkedSend_typeChecked raceRequest 1 10).1 _
    (exec_get _ _ overlapping h)

end EvalEngine.CheckedDispatch
