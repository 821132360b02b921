import EvalEngine.BodyReached
import EvalEngine.Retries
import Mathlib.Logic.Function.Basic

namespace EvalEngine.DeadLetters

open EvalEngine.JsonValues EvalEngine.Retries EvalEngine.TaskObjects

structure DlqEntry where
  taskName : String
  runId : String
  workerType : String
  kwargs : Dict
  traceback : String
  retries : Nat
  hostname : String
  failedAt : Nat

/-- The dead letter queue in Redis: the hashes, and the list `dlq:all`. -/
structure Redis where
  hashes : String → Option DlqEntry := fun _ => none
  all : List String := []

/-- The `run` that Celery calls: the one of the base class, or the decorated
function, which takes its place in the class of the task. -/
inductive Run
  | baseEvalTask
  | decorated
  deriving DecidableEq

structure EvalTask where
  name : String
  workerType : String
  maxRetries : Nat
  run : Run

/-- `@celery_app.task(name=..., base=BaseEvalTask, bind=True, max_retries=...)`. -/
def celeryTask (name workerType : String) (maxRetries : Nat) : EvalTask :=
  { name, workerType, maxRetries, run := .decorated }

def githubAnalysis : EvalTask :=
  celeryTask "src.workers.tasks.github_analysis.github_analysis_task" "github_analysis" 3

def pitchDeck : EvalTask :=
  celeryTask "src.workers.tasks.pitch_deck.pitch_deck_task" "pitch_deck" 3

def videoAnalysis : EvalTask :=
  celeryTask "src.workers.tasks.video_analysis.video_analysis_task" "video_analysis" 3

def webVerification : EvalTask :=
  celeryTask "src.workers.tasks.web_verification.web_verification_task" "web_verification" 3

def crossCheck : EvalTask :=
  celeryTask "src.workers.tasks.cross_check.cross_check_task" "cross_check" 3

def fabrication : EvalTask :=
  celeryTask "src.workers.tasks.fabrication.fabrication_detection_task" "fabrication_detection" 3

def llmJudge : EvalTask :=
  celeryTask "src.workers.tasks.llm_judge.llm_judge_task" "llm_judge" 3

def finalize : EvalTask :=
  celeryTask "src.workers.tasks.finalize.finalize_and_notify_task" "finalize" 2

def pipelineTasks : List EvalTask :=
  [githubAnalysis, pitchDeck, videoAnalysis, webVerification, crossCheck, fabrication, llmJudge,
    finalize]

inductive Raised
  | softTimeLimitExceeded
  | maxRetriesExceeded
  | other (error : String)

inductive Outcome
  | returned (output : Dict)
  | raised (e : Raised)

/-- How one attempt ends, and what its handlers meet: `answered` of the commands
HSET, EXPIRE, LPUSH and LTRIM come through before Redis fails. -/
structure Attempt where
  outcome : Outcome
  answered : Nat := 4
  traceback : String := ""
  hostname : String := "unknown"
  now : Nat := 0

def Attempt.returns (attempt : Attempt) : Bool :=
  match attempt.outcome with
  | .returned _ => true
  | .raised _ => false

def dlqKey (task : EvalTask) (runId : String) : String := "dlq:" ++ runId ++ ":" ++ task.workerType

def newEntry (task : EvalTask) (runId : String) (kwargs : Dict) (retries : Nat) (attempt : Attempt) :
    DlqEntry where
  taskName := task.name
  runId
  workerType := task.workerType
  kwargs
  traceback := attempt.traceback
  retries
  hostname := attempt.hostname
  failedAt := attempt.now

/-- `_send_to_dlq`, which swallows the errors of Redis. What has been written
before one stays. -/
def sendToDlq (task : EvalTask) (runId : String) (kwargs : Dict) (retries : Nat) (attempt : Attempt)
    (redis : Redis) : Redis :=
  let key := dlqKey task runId
  { hashes :=
      if 1 ≤ attempt.answered then
        Function.update redis.hashes key (some (newEntry task runId kwargs retries attempt))
      else redis.hashes
    all :=
      if 4 ≤ attempt.answered then (key :: redis.all).take 10000
      else if 3 ≤ attempt.answered then key :: redis.all
      else redis.all }

/-- The handlers of `BaseEvalTask.run`. Each of them marks the failure in the
database and raises again, and `on_failure` and `on_retry` only log. -/
def handlers (task : EvalTask) (runId : String) (kwargs : Dict) (retries : Nat) (attempt : Attempt)
    (redis : Redis) : Redis :=
  match attempt.outcome with
  | .returned _ => redis
  | .raised .softTimeLimitExceeded => redis
  | .raised .maxRetriesExceeded => sendToDlq task runId kwargs retries attempt redis
  | .raised (.other _) => redis

/-- The task as Celery runs it: what escapes from `run` is caught outside, and
leads to another attempt while there are retries left. -/
def job (task : EvalTask) (runId : String) (kwargs : Dict) : Job Attempt Redis where
  done := Attempt.returns
  handle retries attempt redis :=
    match task.run with
    | .baseEvalTask => handlers task runId kwargs retries attempt redis
    | .decorated => redis

def autoretry (task : EvalTask) (runId : String) (kwargs : Dict) (attempts : Nat → Attempt)
    (redis : Redis) : Bool × Redis :=
  (job task runId kwargs).run attempts task.maxRetries 0 redis

/-- A task that fails for good leaves one hash and a reference to it, and a task
that succeeds leaves none. -/
structure DeadLettered (task : EvalTask) (runId : String) (kwargs : Dict)
    (attempts : Nat → Attempt) (redis : Redis) : Prop where
  failed : (autoretry task runId kwargs attempts redis).1 = false →
    ((autoretry task runId kwargs attempts redis).2.hashes (dlqKey task runId)).isSome = true ∧
      dlqKey task runId ∈ (autoretry task runId kwargs attempts redis).2.all
  succeeded : (autoretry task runId kwargs attempts redis).1 = true →
    (autoretry task runId kwargs attempts redis).2.hashes (dlqKey task runId) = none ∧
      dlqKey task runId ∉ (autoretry task runId kwargs attempts redis).2.all
  others : ∀ key, key ≠ dlqKey task runId →
    (autoretry task runId kwargs attempts redis).2.hashes key = redis.hashes key

/-- Redis knows nothing of the task yet. -/
structure Unlisted (task : EvalTask) (runId : String) (redis : Redis) : Prop where
  hash : redis.hashes (dlqKey task runId) = none
  reference : dlqKey task runId ∉ redis.all

def FailsForGood (task : EvalTask) (attempts : Nat → Attempt) : Prop :=
  ∀ k, k ≤ task.maxRetries → (attempts k).returns = false

/-- The exception of exhausted retries is raised inside `BaseEvalTask.run`,
where its handler is, and Redis answers the first commands of that. -/
def Exhausted (commands : Nat) (task : EvalTask) (attempt : Attempt) : Prop :=
  task.run = .baseEvalTask ∧ attempt.outcome = .raised .maxRetriesExceeded ∧
    commands ≤ attempt.answered

/-- An attempt that is made: the retries allow it, and none before it has returned. -/
def Made (task : EvalTask) (attempts : Nat → Attempt) (k : Nat) : Prop :=
  k ≤ task.maxRetries ∧ ∀ i, i < k → (attempts i).returns = false

variable {task : EvalTask} {runId : String} {kwargs : Dict} {attempts : Nat → Attempt}
  {redis : Redis}

theorem made_iff {k : Nat} :
    (job task runId kwargs).Made attempts task.maxRetries 0 k ↔ Made task attempts k := by
  simp [Job.Made, Made, job]

theorem autoretry_failed : (autoretry task runId kwargs attempts redis).1 = false ↔
    FailsForGood task attempts := by
  rw [← Bool.not_eq_true, autoretry, run_done]
  simp [FailsForGood, job]

def evalTask : Analysis → EvalTask
  | .analyzeGithub => githubAnalysis
  | .analyzePitchDeck => pitchDeck
  | .analyzeVideo => videoAnalysis
  | .verifyWeb => webVerification

/-- The class of an analysis task holds the decorated function under the name `run`. -/
theorem run_evalTask (analysis : Analysis) : (evalTask analysis).run = .baseEvalTask ↔
    ∃ f, analysis.task.run = .method f ∧ f.body = .baseRun := by
  rw [BodyReached.task_run]
  cases analysis <;> simp [evalTask, githubAnalysis, pitchDeck, videoAnalysis, webVerification,
    celeryTask, BodyReached.entryFunction, entryPoint]

/-- An attempt leaves Redis as it is, or sends the task to the dead letter queue. -/
theorem handle_cases (k : Nat) (attempt : Attempt) (redis : Redis) :
    (job task runId kwargs).handle k attempt redis = redis ∧ (∀ n, ¬ Exhausted n task attempt) ∨
      (job task runId kwargs).handle k attempt redis = sendToDlq task runId kwargs k attempt redis ∧
        ∀ n, Exhausted n task attempt ↔ n ≤ attempt.answered := by
  cases hrun : task.run with
  | decorated => exact .inl ⟨by simp [job, hrun], by simp [Exhausted, hrun]⟩
  | baseEvalTask =>
    cases hout : attempt.outcome with
    | returned output => exact .inl ⟨by simp [job, hrun, handlers, hout], by simp [Exhausted, hout]⟩
    | raised e =>
      cases e with
      | softTimeLimitExceeded =>
        exact .inl ⟨by simp [job, hrun, handlers, hout], by simp [Exhausted, hout]⟩
      | other error => exact .inl ⟨by simp [job, hrun, handlers, hout], by simp [Exhausted, hout]⟩
      | maxRetriesExceeded =>
        exact .inr ⟨by simp [job, hrun, handlers, hout], by simp [Exhausted, hrun, hout]⟩

theorem stored_step (k : Nat) (attempt : Attempt) (redis : Redis) :
    (((job task runId kwargs).handle k attempt redis).hashes (dlqKey task runId)).isSome = true ↔
      (redis.hashes (dlqKey task runId)).isSome = true ∨ Exhausted 1 task attempt := by
  obtain ⟨hsame, hnot⟩ | ⟨hsent, hexhausted⟩ := @handle_cases task runId kwargs k attempt redis
  · simp [hsame, hnot]
  · rw [hsent, hexhausted, sendToDlq]
    by_cases hstored : 1 ≤ attempt.answered <;> simp [hstored]

theorem referenced_step (k : Nat) (attempt : Attempt) (redis : Redis) :
    dlqKey task runId ∈ ((job task runId kwargs).handle k attempt redis).all ↔
      dlqKey task runId ∈ redis.all ∨ Exhausted 3 task attempt := by
  obtain ⟨hsame, hnot⟩ | ⟨hsent, hexhausted⟩ := @handle_cases task runId kwargs k attempt redis
  · simp [hsame, hnot]
  · rw [hsent, hexhausted, sendToDlq]
    by_cases htrimmed : 4 ≤ attempt.answered
    · have hlisted : 3 ≤ attempt.answered := by omega
      simp [htrimmed, hlisted]
    · by_cases hlisted : 3 ≤ attempt.answered <;> simp [htrimmed, hlisted]

theorem others_step {key : String} (hkey : key ≠ dlqKey task runId) (k : Nat) (attempt : Attempt)
    (redis : Redis) :
    ((job task runId kwargs).handle k attempt redis).hashes key = redis.hashes key := by
  obtain ⟨hsame, _⟩ | ⟨hsent, _⟩ := @handle_cases task runId kwargs k attempt redis
  · rw [hsame]
  · rw [hsent, sendToDlq]
    by_cases hstored : 1 ≤ attempt.answered <;> simp [hstored, hkey]

/-- An entry is there in the end if and only if an attempt has raised inside
`BaseEvalTask.run` what only Celery raises, outside of it. -/
theorem stored_iff (h : Unlisted task runId redis) :
    ((autoretry task runId kwargs attempts redis).2.hashes (dlqKey task runId)).isSome = true ↔
      ∃ k, Made task attempts k ∧ Exhausted 1 task (attempts k) := by
  refine (run_iff (P := fun redis => (redis.hashes (dlqKey task runId)).isSome = true)
    (Q := Exhausted 1 task) fun j s => stored_step j (attempts j) s).trans ?_
  simp [h.hash, made_iff]

theorem referenced_iff (h : Unlisted task runId redis) :
    dlqKey task runId ∈ (autoretry task runId kwargs attempts redis).2.all ↔
      ∃ k, Made task attempts k ∧ Exhausted 3 task (attempts k) := by
  refine (run_iff (P := fun redis => dlqKey task runId ∈ redis.all)
    (Q := Exhausted 3 task) fun j s => referenced_step j (attempts j) s).trans ?_
  simp [h.reference, made_iff]

theorem others_kept {key : String} (hkey : key ≠ dlqKey task runId) :
    (autoretry task runId kwargs attempts redis).2.hashes key = redis.hashes key := by
  apply run_invariant (P := fun r : Redis => r.hashes key = redis.hashes key) rfl
  intro j s hs
  rw [others_step hkey, hs]

/-- Whoever lists the entry has stored it. -/
theorem exhausted_stored {attempt : Attempt} (h : Exhausted 3 task attempt) :
    Exhausted 1 task attempt := by
  obtain ⟨hrun, hout, hanswered⟩ := h
  exact ⟨hrun, hout, by omega⟩

/-- The dead letter queue tells the failed tasks from the others if and only if
the exception of exhausted retries is raised inside `BaseEvalTask.run` just for them. -/
theorem deadLettered_iff (h : Unlisted task runId redis) :
    DeadLettered task runId kwargs attempts redis ↔
      (FailsForGood task attempts → ∃ k, Made task attempts k ∧ Exhausted 3 task (attempts k)) ∧
        ((∃ k, Made task attempts k ∧ Exhausted 1 task (attempts k)) → FailsForGood task attempts) := by
  have hstored := @stored_iff task runId kwargs attempts redis h
  have hreferenced := @referenced_iff task runId kwargs attempts redis h
  have hfailed := @autoretry_failed task runId kwargs attempts redis
  constructor
  · intro hdead
    constructor
    · intro hfails
      exact hreferenced.1 (hdead.failed (hfailed.2 hfails)).2
    · intro hexhausted
      by_contra hsucceeds
      have hdone : (autoretry task runId kwargs attempts redis).1 = true := by
        rw [← hfailed, Bool.not_eq_false] at hsucceeds
        exact hsucceeds
      have hsome := hstored.2 hexhausted
      rw [(hdead.succeeded hdone).1] at hsome
      cases hsome
  · rintro ⟨hlists, hfails⟩
    refine ⟨?_, ?_, fun _ => others_kept⟩
    · intro hfalse
      obtain ⟨k, hmade, hexhausted⟩ := hlists (hfailed.1 hfalse)
      exact ⟨hstored.2 ⟨k, hmade, exhausted_stored hexhausted⟩, hreferenced.2 ⟨k, hmade, hexhausted⟩⟩
    · intro htrue
      have hnone : ¬ ∃ k, Made task attempts k ∧ Exhausted 1 task (attempts k) := by
        intro hexhausted
        rw [hfailed.2 (hfails hexhausted)] at htrue
        cases htrue
      constructor
      · rw [← Option.not_isSome_iff_eq_none]
        exact fun hsome => hnone (hstored.1 hsome)
      · intro hmem
        obtain ⟨k, hmade, hexhausted⟩ := hreferenced.1 hmem
        exact hnone ⟨k, hmade, exhausted_stored hexhausted⟩

theorem run_pipelineTasks (h : task ∈ pipelineTasks) : task.run = .decorated := by
  simp only [pipelineTasks, List.mem_cons, List.not_mem_nil, or_false] at h
  obtain rfl | rfl | rfl | rfl | rfl | rfl | rfl | rfl := h <;> rfl

/-- No task of the pipeline runs `BaseEvalTask.run`, and none is ever listed. -/
theorem deadLettered_pipelineTasks (h : Unlisted task runId redis) (htask : task ∈ pipelineTasks) :
    DeadLettered task runId kwargs attempts redis ↔
      ∃ k, k ≤ task.maxRetries ∧ (attempts k).returns = true := by
  have hnever : ∀ n, ¬ ∃ k, Made task attempts k ∧ Exhausted n task (attempts k) := by
    rintro n ⟨k, _, hrun, _⟩
    rw [run_pipelineTasks htask] at hrun
    cases hrun
  rw [deadLettered_iff h]
  simp only [hnever, imp_false, FailsForGood, not_forall, Bool.not_eq_false, exists_prop, IsEmpty.forall_iff,
    and_true]

theorem dead_letters (h : Unlisted task runId redis) :
    (DeadLettered task runId kwargs attempts redis ↔
      (FailsForGood task attempts → ∃ k, Made task attempts k ∧ Exhausted 3 task (attempts k)) ∧
        ((∃ k, Made task attempts k ∧ Exhausted 1 task (attempts k)) → FailsForGood task attempts)) ∧
    (task ∈ pipelineTasks → (DeadLettered task runId kwargs attempts redis ↔
      ∃ k, k ≤ task.maxRetries ∧ (attempts k).returns = true)) :=
  ⟨deadLettered_iff h, deadLettered_pipelineTasks h⟩

section Sample

/-- A finalizer that the database fails three times. -/
def unreachable : Nat → Attempt := fun _ => { outcome := .raised (.other "connection refused") }

theorem dead_letters_lost : ¬ DeadLettered finalize "1" [] unreachable {} := by
  intro hdead
  have hstored := (hdead.failed rfl).1
  cases hstored

def secondTry : Nat → Attempt
  | 0 => { outcome := .raised .softTimeLimitExceeded }
  | _ => { outcome := .returned [] }

theorem dead_letters_retried : DeadLettered crossCheck "1" [] secondTry {} := by
  apply ((@dead_letters crossCheck "1" [] secondTry {} ⟨rfl, List.not_mem_nil⟩).2 ?_).2
  · exact ⟨1, by decide, rfl⟩
  · simp [pipelineTasks]

end Sample

end EvalEngine.DeadLetters
