import EvalEngine.DeadLetters
import Mathlib.Logic.Relation

namespace EvalEngine.DeadLetterRetry

open EvalEngine.JsonValues EvalEngine.PythonCall EvalEngine.TaskObjects EvalEngine.DeadLetters

/-- A task and the header of its decorated function. -/
structure TaskFunction where
  task : EvalTask
  signature : Signature

def analysis (task : EvalTask) : TaskFunction := { task, signature := selfRunId }

/-- A task of the chain, whose first argument is the result of the stage before. -/
def chained (task : EvalTask) (previous : String) : TaskFunction :=
  { task, signature := { params := ["self", previous, "run_id"], varKeywords := true } }

def pipelineFunctions : List TaskFunction :=
  [analysis githubAnalysis, analysis pitchDeck, analysis videoAnalysis, analysis webVerification,
    chained crossCheck "parallel_results", chained fabrication "cross_check_result",
    chained llmJudge "fabrication_result", chained finalize "llm_result"]

/-- A message on the broker. -/
structure Message where
  taskName : String
  args : List Json
  kwargs : Dict

/-- The parameters with which a message enters the body of a task. -/
def enter (f : TaskFunction) (message : Message) : Except BindError (Bound Value) :=
  bindCall f.signature (.task :: message.args.map .json)
    (message.kwargs.map fun kv => (kv.1, .json kv.2))

/-- The keyword arguments that the body passes on. -/
def restOf (b : Bound Value) : Dict :=
  b.rest.filterMap fun kv => match kv.2 with
    | .json v => some (kv.1, v)
    | .task => none

/-- Which of the calls of one retry come back. -/
structure Answers where
  redisAnswers : Bool := true
  sends : Bool := true
  deletes : Bool := true
  unlists : Bool := true

structure Retried where
  returned : Bool
  sent : List Message
  redis : Redis

def keyOf (runId workerType : String) : String := "dlq:" ++ runId ++ ":" ++ workerType

/-- `retry_dlq_entry`, which swallows every exception. -/
def retryDlqEntry (runId workerType : String) (answers : Answers) (redis : Redis) : Retried :=
  if answers.redisAnswers then
    match redis.hashes (keyOf runId workerType) with
    | none => ⟨false, [], redis⟩
    | some entry =>
      if entry.taskName = "" then ⟨false, [], redis⟩
      else if answers.sends then
        let sent := [{ taskName := entry.taskName, args := [.str runId], kwargs := [] }]
        if answers.deletes then
          let deleted := { redis with
            hashes := Function.update redis.hashes (keyOf runId workerType) none }
          if answers.unlists then
            ⟨true, sent, { deleted with all := redis.all.erase (keyOf runId workerType) }⟩
          else ⟨false, sent, deleted⟩
        else ⟨false, sent, redis⟩
      else ⟨false, [], redis⟩
  else ⟨false, [], redis⟩

/-- What happens to the dead letters: tasks fail, entries are retried, and
after seven days an entry is gone. -/
inductive Step : Redis → Redis → Prop
  | sendToDlq (redis : Redis) (f : TaskFunction) (runId : String) (kwargs : Dict) (retries : Nat)
      (attempt : Attempt) (hf : f ∈ pipelineFunctions) :
      Step redis (sendToDlq f.task runId kwargs retries attempt redis)
  | retryDlqEntry (redis : Redis) (runId workerType : String) (answers : Answers) :
      Step redis (retryDlqEntry runId workerType answers redis).redis
  | expire (redis : Redis) (key : String) :
      Step redis { redis with hashes := Function.update redis.hashes key none }

def Later : Redis → Redis → Prop := Relation.ReflTransGen Step

/-- The retry repeats the call, and the entry outlives a broker that fails. -/
structure Requeues (f : TaskFunction) (failed : Message) (runId : String) (answers : Answers)
    (redis : Redis) : Prop where
  repeated : (retryDlqEntry runId f.task.workerType answers redis).returned = true →
    ∃ message, (retryDlqEntry runId f.task.workerType answers redis).sent = [message] ∧
      message = failed ∧ enter f message = enter f failed
  kept : answers.sends = false →
    (retryDlqEntry runId f.task.workerType answers redis).redis = redis

/-- A call that has entered its body and failed there: the run and the keyword
arguments are what the body was entered with. -/
structure Failed (f : TaskFunction) (failed : Message) (runId : String) (kwargs : Dict) : Prop where
  listed : f ∈ pipelineFunctions
  name : failed.taskName = f.task.name
  entered : ∃ bound, enter f failed = .ok bound ∧
    bound.get "run_id" = some (.json (.str runId)) ∧ restOf bound = kwargs

/-- The entries under the keys of a task are of that task. -/
def WellKeyed (redis : Redis) : Prop :=
  ∀ f ∈ pipelineFunctions, ∀ runId entry,
    redis.hashes (dlqKey f.task runId) = some entry → entry.taskName = f.task.name

theorem eq_of_append_cons {α : Type} {c : α} {xs xs' ys ys' : List α} (hc : c ∉ ys) (hc' : c ∉ ys')
    (h : xs ++ c :: ys = xs' ++ c :: ys') : ys = ys' := by
  obtain ⟨mid, _, hmid⟩ | ⟨mid, _, hmid⟩ := List.append_eq_append_iff.1 h
  · cases mid with
    | nil => exact (List.cons.inj hmid).2
    | cons d mid =>
      have hys : ys = mid ++ c :: ys' := (List.cons.inj hmid).2
      exact absurd (hys ▸ List.mem_append_right _ List.mem_cons_self) hc
  · cases mid with
    | nil => exact ((List.cons.inj hmid).2).symm
    | cons d mid =>
      have hys : ys' = mid ++ c :: ys := (List.cons.inj hmid).2
      exact absurd (hys ▸ List.mem_append_right _ List.mem_cons_self) hc'

/-- Behind the last colon of a key there is the worker type alone. -/
theorem workerType_of_keyOf {runId runId' workerType workerType' : String}
    (hw : ':' ∉ workerType.toList) (hw' : ':' ∉ workerType'.toList)
    (h : keyOf runId workerType = keyOf runId' workerType') : workerType = workerType' := by
  have hcons : ∀ xs ys : List Char, xs ++ ":".toList ++ ys = xs ++ ':' :: ys := by
    intro xs ys
    exact List.append_assoc xs [':'] ys
  have hlist := congrArg String.toList h
  simp only [keyOf, String.toList_append, hcons] at hlist
  exact String.toList_inj.1 (eq_of_append_cons hw hw' hlist)

theorem no_colon : ∀ f ∈ pipelineFunctions, ':' ∉ f.task.workerType.toList := by
  decide +kernel

theorem name_of_workerType {f g : TaskFunction} (hf : f ∈ pipelineFunctions) (hg : g ∈ pipelineFunctions)
    (h : f.task.workerType = g.task.workerType) : f.task.name = g.task.name := by
  have hall : ∀ f ∈ pipelineFunctions, ∀ g ∈ pipelineFunctions,
      f.task.workerType = g.task.workerType → f.task.name = g.task.name := by
    decide +kernel
  exact hall f hf g hg h

theorem name_ne_empty {f : TaskFunction} (hf : f ∈ pipelineFunctions) : f.task.name ≠ "" := by
  have hall : ∀ f ∈ pipelineFunctions, f.task.name ≠ "" := by decide +kernel
  exact hall f hf

theorem WellKeyed.of_fewer {redis redis' : Redis} (h : WellKeyed redis)
    (hfewer : ∀ key, redis'.hashes key = redis.hashes key ∨ redis'.hashes key = none) :
    WellKeyed redis' := by
  intro f hf runId entry hentry
  obtain hsame | hnone := hfewer (dlqKey f.task runId)
  · exact h f hf runId entry (hsame ▸ hentry)
  · rw [hnone] at hentry
    cases hentry

theorem update_fewer (redis : Redis) (key : String) : ∀ key',
    Function.update redis.hashes key none key' = redis.hashes key' ∨
      Function.update redis.hashes key none key' = none := by
  intro key'
  by_cases h : key' = key
  · subst h
    exact .inr (Function.update_self _ _ _)
  · exact .inl (Function.update_of_ne h _ _)

variable {runId workerType : String} {answers : Answers} {redis : Redis}

/-- The call that a retry of the entry makes. -/
def repeatedCall (runId : String) (entry : DlqEntry) : Message :=
  { taskName := entry.taskName, args := [.str runId], kwargs := [] }

/-- A retry stops before it has sent anything, or it sends the run id to the
task of the entry, whatever becomes of the entry. -/
theorem retry_cases :
    retryDlqEntry runId workerType answers redis = ⟨false, [], redis⟩ ∨
      ∃ entry, redis.hashes (keyOf runId workerType) = some entry ∧ answers.sends = true ∧
        (retryDlqEntry runId workerType answers redis).sent = [repeatedCall runId entry] ∧
        ((retryDlqEntry runId workerType answers redis).redis.hashes = redis.hashes ∨
          (retryDlqEntry runId workerType answers redis).redis.hashes =
            Function.update redis.hashes (keyOf runId workerType) none) := by
  obtain ⟨redisAnswers, sends, deletes, unlists⟩ := answers
  cases redisAnswers with
  | false => exact .inl rfl
  | true =>
    cases hentry : redis.hashes (keyOf runId workerType) with
    | none =>
      left
      simp only [retryDlqEntry, hentry, if_true]
    | some entry =>
      by_cases hname : entry.taskName = ""
      · left
        simp only [retryDlqEntry, hentry, hname, if_true]
      · cases sends with
        | false =>
          left
          simp only [retryDlqEntry, hentry, hname, if_true, if_false, Bool.false_eq_true]
        | true =>
          right
          refine ⟨entry, rfl, rfl, ?_⟩
          cases deletes <;> cases unlists <;>
            simp [retryDlqEntry, hentry, hname, repeatedCall]

theorem retry_fewer (key : String) :
    (retryDlqEntry runId workerType answers redis).redis.hashes key = redis.hashes key ∨
      (retryDlqEntry runId workerType answers redis).redis.hashes key = none := by
  obtain hstopped | ⟨_, _, _, _, hsame | hdeleted⟩ := @retry_cases runId workerType answers redis
  · exact .inl (by rw [hstopped])
  · exact .inl (by rw [hsame])
  · rw [hdeleted]
    exact update_fewer redis _ key

/-- A broker that fails leaves the dead letters as they are. -/
theorem retry_kept (h : answers.sends = false) :
    (retryDlqEntry runId workerType answers redis).redis = redis := by
  obtain hstopped | ⟨_, _, hsends, _⟩ := @retry_cases runId workerType answers redis
  · rw [hstopped]
  · rw [h] at hsends
    cases hsends

theorem retry_returned (h : (retryDlqEntry runId workerType answers redis).returned = true) :
    ∃ entry, redis.hashes (keyOf runId workerType) = some entry ∧
      (retryDlqEntry runId workerType answers redis).sent = [repeatedCall runId entry] := by
  obtain hstopped | ⟨entry, hentry, _, hsent, _⟩ := @retry_cases runId workerType answers redis
  · rw [hstopped] at h
    cases h
  · exact ⟨entry, hentry, hsent⟩

theorem retry_succeeds {entry : DlqEntry} (hentry : redis.hashes (keyOf runId workerType) = some entry)
    (hname : entry.taskName ≠ "") : (retryDlqEntry runId workerType {} redis).returned = true := by
  simp only [retryDlqEntry, hentry, if_true, if_neg hname]

theorem hashes_sendToDlq {task : EvalTask} {kwargs : Dict} {retries : Nat} {attempt : Attempt}
    (h : 1 ≤ attempt.answered) :
    ∃ entry, (sendToDlq task runId kwargs retries attempt redis).hashes =
        Function.update redis.hashes (dlqKey task runId) (some entry) ∧ entry.taskName = task.name := by
  simp only [sendToDlq, if_pos h]
  exact ⟨_, rfl, rfl⟩

theorem entry_sendToDlq {task : EvalTask} {kwargs : Dict} {retries : Nat} {attempt : Attempt}
    (h : 1 ≤ attempt.answered) :
    ∃ entry, (sendToDlq task runId kwargs retries attempt redis).hashes (keyOf runId task.workerType) =
      some entry ∧ entry.taskName = task.name := by
  obtain ⟨entry, hhashes, hname⟩ := @hashes_sendToDlq runId redis task kwargs retries attempt h
  have hkey : keyOf runId task.workerType = dlqKey task runId := rfl
  exact ⟨entry, by rw [hhashes, hkey, Function.update_self], hname⟩

theorem wellKeyed_sendToDlq (h : WellKeyed redis) {f : TaskFunction} (hf : f ∈ pipelineFunctions)
    (kwargs : Dict) (retries : Nat) (attempt : Attempt) :
    WellKeyed (sendToDlq f.task runId kwargs retries attempt redis) := by
  by_cases hanswers : 1 ≤ attempt.answered
  · intro g hg runId' entry hentry
    obtain ⟨written, hhashes, hname⟩ := @hashes_sendToDlq runId redis f.task kwargs retries attempt hanswers
    rw [hhashes] at hentry
    by_cases hkey : dlqKey g.task runId' = dlqKey f.task runId
    · rw [hkey, Function.update_self, Option.some.injEq] at hentry
      rw [← hentry, hname]
      exact name_of_workerType hf hg (workerType_of_keyOf (no_colon f hf) (no_colon g hg) hkey.symm)
    · rw [Function.update_of_ne hkey] at hentry
      exact h g hg runId' entry hentry
  · simpa only [sendToDlq, if_neg hanswers, WellKeyed] using h

theorem wellKeyed_step {redis redis' : Redis} (h : WellKeyed redis) (hstep : Step redis redis') :
    WellKeyed redis' := by
  cases hstep with
  | sendToDlq f runId kwargs retries attempt hf => exact wellKeyed_sendToDlq h hf kwargs retries attempt
  | retryDlqEntry runId workerType answers => exact h.of_fewer retry_fewer
  | expire key => exact h.of_fewer (update_fewer redis key)

theorem wellKeyed_later {redis redis' : Redis} (h : WellKeyed redis) (hlater : Later redis redis') :
    WellKeyed redis' := by
  induction hlater with
  | refl => exact h
  | tail _ hstep ih => exact wellKeyed_step ih hstep

theorem wellKeyed_empty : WellKeyed {} := by
  intro f _ runId entry hentry
  cases hentry

/-- What is sent again, at any later time, is a call with the run id alone, and
that is the failed call only if this has had no other argument. -/
theorem requeues_iff (f : TaskFunction) (failed : Message) (runId : String) (kwargs : Dict)
    (retries : Nat) (attempt : Attempt) (redis : Redis) (hfailed : Failed f failed runId kwargs)
    (hreached : Later {} redis) (hwritten : 1 ≤ attempt.answered) :
    (∀ redis' answers, Later (sendToDlq f.task runId kwargs retries attempt redis) redis' →
        Requeues f failed runId answers redis') ↔
      failed.args = [.str runId] ∧ failed.kwargs = [] := by
  constructor
  · intro h
    obtain ⟨entry, hentry, hname⟩ :=
      @entry_sendToDlq runId redis f.task kwargs retries attempt hwritten
    have hreturned := retry_succeeds hentry (hname ▸ name_ne_empty hfailed.listed)
    obtain ⟨message, hsent, rfl, _⟩ := (h _ {} Relation.ReflTransGen.refl).repeated hreturned
    obtain ⟨entry', _, hsent'⟩ := retry_returned hreturned
    rw [hsent', List.singleton_inj] at hsent
    rw [← hsent]
    exact ⟨rfl, rfl⟩
  · rintro ⟨hargs, hkwargs⟩ redis' answers hlater
    have hkeyed : WellKeyed redis' := by
      apply wellKeyed_later _ hlater
      exact wellKeyed_sendToDlq (wellKeyed_later wellKeyed_empty hreached) hfailed.listed _ _ _
    refine ⟨?_, retry_kept⟩
    intro hreturned
    obtain ⟨entry, hentry, hsent⟩ := retry_returned hreturned
    have hname : entry.taskName = f.task.name := hkeyed f hfailed.listed runId entry hentry
    have hsame : repeatedCall runId entry = failed := by
      rw [repeatedCall, hname, ← hfailed.name, ← hargs, ← hkwargs]
    exact ⟨_, hsent, hsame, congrArg (enter f) hsame⟩

/-- No call of a task of the chain is of this kind: the run id is taken for the
result of the stage before. -/
theorem enter_chained (task : EvalTask) {previous : String} (hprevious : "run_id" ≠ previous)
    (runId : String) (entry : DlqEntry) :
    enter (chained task previous) (repeatedCall runId entry) = .error (.missing "run_id") := by
  simp [enter, chained, repeatedCall, bindCall, bindKeywords, Except.bind, Bound.names, hprevious]

section Sample

/-- The cross check of run 1 as the chord calls it. -/
def crossCheckCall : Message := { taskName := crossCheck.name, args := [.arr [], .str "1"], kwargs := [] }

def lostConnection : Attempt := { outcome := .raised .maxRetriesExceeded, traceback := "connection refused" }

theorem failed_crossCheckCall :
    Failed (chained crossCheck "parallel_results") crossCheckCall "1" [] := by
  refine ⟨by simp [pipelineFunctions], rfl, ?_⟩
  exact ⟨_, rfl, rfl, rfl⟩

def crossCheckLetter : Redis := sendToDlq crossCheck "1" [] 3 lostConnection {}

/-- The cross check is sent again without the results that it checks, and the
call does not enter its body. -/
theorem crossCheck_requeued_without_results :
    Failed (chained crossCheck "parallel_results") crossCheckCall "1" [] ∧
      (retryDlqEntry "1" "cross_check" {} crossCheckLetter).returned = true ∧
      (∀ message ∈ (retryDlqEntry "1" "cross_check" {} crossCheckLetter).sent,
        enter (chained crossCheck "parallel_results") message = .error (.missing "run_id")) ∧
      ¬ Requeues (chained crossCheck "parallel_results") crossCheckCall "1" {} crossCheckLetter := by
  obtain ⟨entry, hentry, hname⟩ := @entry_sendToDlq "1" {} crossCheck [] 3 lostConnection (by decide)
  have hreturned : (retryDlqEntry "1" "cross_check" {} crossCheckLetter).returned = true :=
    retry_succeeds hentry (by rw [hname]; decide)
  obtain ⟨entry', _, hsent⟩ := retry_returned hreturned
  refine ⟨failed_crossCheckCall, hreturned, ?_, ?_⟩
  · rw [hsent]
    intro message hmessage
    obtain rfl := List.mem_singleton.1 hmessage
    exact enter_chained crossCheck (by decide) "1" entry'
  · intro h
    obtain ⟨message, hsent', rfl, _⟩ := h.repeated hreturned
    have hsame : [repeatedCall "1" entry'] = [crossCheckCall] := hsent.symm.trans hsent'
    have hargs := congrArg Message.args (List.singleton_inj.1 hsame)
    cases hargs

def pitchDeckCall : Message := { taskName := pitchDeck.name, args := [.str "1"], kwargs := [] }

theorem failed_pitchDeckCall : Failed (analysis pitchDeck) pitchDeckCall "1" [] := by
  refine ⟨by simp [pipelineFunctions], rfl, ?_⟩
  exact ⟨_, rfl, rfl, rfl⟩

theorem requeues_iff_pitchDeck : Failed (analysis pitchDeck) pitchDeckCall "1" [] ∧
    ∀ redis' answers, Later (sendToDlq pitchDeck "1" [] 3 lostConnection {}) redis' →
      Requeues (analysis pitchDeck) pitchDeckCall "1" answers redis' :=
  ⟨failed_pitchDeckCall, (requeues_iff (analysis pitchDeck) pitchDeckCall "1" [] 3 lostConnection {}
    failed_pitchDeckCall Relation.ReflTransGen.refl (by decide)).2 ⟨rfl, rfl⟩⟩

end Sample

end EvalEngine.DeadLetterRetry
