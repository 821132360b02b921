import EvalEngine.BaseEvalTask
import EvalEngine.PipelineMessages
import EvalEngine.Rounding
import EvalEngine.SingleDispatch

namespace EvalEngine.WorkerCounters

open EvalEngine.Exceptions EvalEngine.RunModel EvalEngine.Rounding EvalEngine.Transitions
open EvalEngine.RunLifecycle
open EvalEngine.TaskObjects (Analysis)
open EvalEngine.PipelineMessages (parallelTasks)
open EvalEngine.PipelineDispatch (written isPrepare SameRow written_sameRow cleanup_sameRow)
open EvalEngine.RunWriters (TriggerRequest Writer cleanupStaleRuns)
open EvalEngine.BaseEvalTask (WorkerResult WorkerStatus)

def progressPct (run : EvaluationRun) : ℚ :=
  if run.totalWorkers = 0 then 0
  else roundTo 2 (run.completedWorkers / run.totalWorkers * 100)

/-- What `count_by_status` finds of one worker type. -/
structure Tally where
  completed : Nat := 0
  failed : Nat := 0

def Tally.ended (tally : Tally) : Nat := tally.completed + tally.failed

def tally (rows : List WorkerResult) : Tally where
  completed := rows.countP (fun wr => decide (wr.status = .completed))
  failed := rows.countP (fun wr => decide (wr.status = .failed))

def total (f : Analysis → Nat) : Nat := (parallelTasks.map f).sum

/-- The run, the tasks that go through `BaseEvalTask.run`, how many of the
counted workers are attempts of each, and the finalizers that have counted. -/
structure State where
  run : EvaluationRun
  published : Bool := false
  task : Analysis → BaseEvalTask.State
  contributed : Analysis → Nat := fun _ => 0
  counted : Nat → Option (Analysis → Tally) := fun _ => none

def start (req : TriggerRequest) (runId : UUID) (now : Time) : State where
  run := req.newRun runId now
  task _ := BaseEvalTask.start req.organizationId 0 0

/-- The task of one worker type, with the counters of the run. -/
def State.view (s : State) (a : Analysis) : BaseEvalTask.State :=
  { s.task a with
    completedWorkers := s.run.completedWorkers
    failedWorkers := s.run.failedWorkers }

/-- The step is a committed increment of a counter. -/
def marks : BaseEvalTask.Action → Bool
  | .markCompleted _ | .markFailed _ => true
  | _ => false

/-- A step of a task, with what it adds to the counters of the run. -/
def State.advance (s : State) (a : Analysis) (act : BaseEvalTask.Action) (t : BaseEvalTask.State) :
    State :=
  { s with
    run := { s.run with
      completedWorkers := t.completedWorkers
      failedWorkers := t.failedWorkers }
    task := Function.update s.task a t
    contributed := Function.update s.contributed a (s.contributed a + (marks act).toNat) }

inductive Action
  | attempt (a : Analysis) (act : BaseEvalTask.Action)
  | write (version : Nat) (writer : Writer)
  | countWorkers (i : Nat)
  | finalize (i version : Nat) (finalScore : ℚ) (now : Time)
  | cleanup (now : Time)

/-- The tasks and the finalizer are sent behind a committed `_prepare_run`. -/
def step (s : State) : Action → Option State
  | .attempt a act =>
    if s.published then (BaseEvalTask.step (s.view a) act).map (s.advance a act) else none
  | .write version w =>
    if isFinalize w then none
    else some { s with
      run := written s.run.id version w s.run
      published := s.published || (isPrepare w && matchesVersion version s.run) }
  | .countWorkers i =>
    if s.published then
      some { s with
        counted := Function.update s.counted i (some fun a => tally (s.task a).rows) }
    else none
  | .finalize i version finalScore now => (s.counted i).map fun c =>
    let w := Writer.finalize finalScore (total fun a => (c a).completed)
      (total fun a => (c a).failed) now
    { s with
      run := written s.run.id version w s.run
      contributed := if matchesVersion version s.run then fun a => (c a).ended else s.contributed }
  | .cleanup now => some { s with run := cleanupStaleRuns now s.run }

structure Bounded (s : State) : Prop where
  sum : s.run.completedWorkers + s.run.failedWorkers ≤ s.run.totalWorkers
  once : ∀ a, s.contributed a ≤ 1
  progress : 0 ≤ progressPct s.run ∧ progressPct s.run ≤ 100

def CountersBounded (req : TriggerRequest) (runId : UUID) (now : Time)
    (ok : State → Action → Prop) : Prop :=
  ∀ s, Exec step ok (start req runId now) s → Bounded s

/-- An attempt is counted only for a worker type that is not counted yet, and
the finalizer finds at most one finished row of each type. -/
def Once (s : State) : Action → Prop
  | .attempt a act => marks act = true → s.contributed a = 0
  | .countWorkers _ => ∀ a, (tally (s.task a).rows).ended ≤ 1
  | _ => True

structure Inv (s : State) : Prop where
  published : s.published = true → s.run.totalWorkers = 4
  fresh : s.published = false → total s.contributed = 0
  sum : s.run.completedWorkers + s.run.failedWorkers = total s.contributed
  once : ∀ a, s.contributed a ≤ 1
  counted : ∀ i c, s.counted i = some c → s.published = true ∧ ∀ a, (c a).ended ≤ 1

theorem total_update (f : Analysis → Nat) (a : Analysis) (n : Nat) :
    total (Function.update f a (f a + n)) = total f + n := by
  cases a <;> simp [total, parallelTasks] <;> omega

theorem total_add (f g : Analysis → Nat) : total f + total g = total fun a => f a + g a := by
  simp only [total, parallelTasks, List.map_cons, List.map_nil, List.sum_cons, List.sum_nil]
  omega

theorem total_le {f : Analysis → Nat} (h : ∀ a, f a ≤ 1) : total f ≤ 4 := by
  have hgithub := h .analyzeGithub
  have hpitch := h .analyzePitchDeck
  have hvideo := h .analyzeVideo
  have hweb := h .verifyWeb
  simp only [total, parallelTasks, List.map_cons, List.map_nil, List.sum_cons, List.sum_nil]
  omega

theorem progressPct_mem {run : EvaluationRun} (h : run.completedWorkers ≤ run.totalWorkers) :
    0 ≤ progressPct run ∧ progressPct run ≤ 100 := by
  unfold progressPct
  split
  · exact ⟨le_refl 0, by norm_num⟩
  next hzero =>
    have hpos : (0 : ℚ) < run.totalWorkers := by exact_mod_cast Nat.pos_of_ne_zero hzero
    have hle : (run.completedWorkers : ℚ) ≤ run.totalWorkers := by exact_mod_cast h
    have hlow : ((0 : ℤ) : ℚ) ≤ run.completedWorkers / run.totalWorkers * 100 := by
      push_cast
      positivity
    have hhigh : (run.completedWorkers / run.totalWorkers * 100 : ℚ) ≤ ((100 : ℤ) : ℚ) := by
      have hratio := (div_le_one hpos).2 hle
      push_cast
      linarith
    have hround : ((0 : ℤ) : ℚ) ≤ roundTo 2 _ ∧ roundTo 2 _ ≤ ((100 : ℤ) : ℚ) := roundTo_mem hlow hhigh
    push_cast at hround
    exact hround

theorem Inv.bounded {s : State} (h : Inv s) : Bounded s := by
  have hle : s.run.completedWorkers + s.run.failedWorkers ≤ s.run.totalWorkers := by
    rw [h.sum]
    cases hpublished : s.published with
    | true =>
      rw [h.published hpublished]
      exact total_le h.once
    | false =>
      rw [h.fresh hpublished]
      exact Nat.zero_le _
  exact ⟨hle, h.once, progressPct_mem (by omega)⟩

/-- An attempt counts itself once where it ends. -/
theorem attempt_counters {s t : BaseEvalTask.State} {act : BaseEvalTask.Action}
    (h : BaseEvalTask.step s act = some t) :
    t.completedWorkers + t.failedWorkers =
      s.completedWorkers + s.failedWorkers + (marks act).toNat := by
  cases act with
  | checkIdempotent i =>
    simp only [BaseEvalTask.step] at h
    split at h <;> cases h
    unfold BaseEvalTask.State.orFail
    split
    next cached _ => cases cached <;> rfl
    next => rfl
  | createRead i =>
    simp only [BaseEvalTask.step] at h
    split at h <;> cases h
    unfold BaseEvalTask.State.orFail
    split <;> rfl
  | createWrite i =>
    simp only [BaseEvalTask.step] at h
    split at h <;> cases h
    unfold BaseEvalTask.createWrite
    split <;> rfl
  | markCompleted i =>
    simp only [BaseEvalTask.step] at h
    split at h <;> cases h
    exact Nat.add_right_comm _ 1 _
  | markFailed i =>
    simp only [BaseEvalTask.step] at h
    split at h <;> cases h
    rfl
  | start i req | execute i outcome | finish i | fault i error | markFailedError i | crash i =>
    simp only [BaseEvalTask.step] at h
    repeat' split at h
    all_goals cases h
    all_goals rfl

/-- The columns that this module follows are set by `_prepare_run` and
`_finalize` alone. -/
theorem written_counters (runId version : Nat) (w : Writer) (run : EvaluationRun)
    (hw : isFinalize w = false) :
    (written runId version w run).completedWorkers = run.completedWorkers ∧
      (written runId version w run).failedWorkers = run.failedWorkers ∧
      (written runId version w run).totalWorkers =
        if isPrepare w && matchesVersion version run then 4 else run.totalWorkers := by
  cases w with
  | triggerEvaluation req now => exact ⟨rfl, rfl, rfl⟩
  | cancelEvaluationRun orgId now => exact ⟨rfl, rfl, rfl⟩
  | finalize score completed failed now => cases hw
  | prepareRun now =>
    cases hm : matchesVersion version run with
    | true =>
      rw [written, RunWriters.Writer.write, transition_reached runId _ _ _ hm]
      exact ⟨rfl, rfl, rfl⟩
    | false =>
      rw [written, write_missed runId (w := .prepareRun now) hm]
      exact ⟨rfl, rfl, rfl⟩
  | failRun error now =>
    cases hm : matchesVersion version run with
    | true =>
      rw [written, RunWriters.Writer.write, transition_reached runId _ _ _ hm]
      exact ⟨rfl, rfl, rfl⟩
    | false =>
      rw [written, write_missed runId (w := .failRun error now) hm]
      exact ⟨rfl, rfl, rfl⟩

theorem written_finalize (runId version : Nat) (score : ℚ) (completed failed : Nat) (now : Time)
    (run : EvaluationRun) :
    let run' := written runId version (.finalize score completed failed now) run
    run'.totalWorkers = run.totalWorkers ∧
      (run'.completedWorkers, run'.failedWorkers) =
        if matchesVersion version run then (completed, failed)
        else (run.completedWorkers, run.failedWorkers) := by
  cases hm : matchesVersion version run with
  | true =>
    simp only [written, RunWriters.Writer.write]
    rw [transition_reached runId _ _ _ hm]
    exact ⟨rfl, rfl⟩
  | false =>
    simp only [written]
    rw [write_missed runId (w := .finalize score completed failed now) hm]
    exact ⟨rfl, rfl⟩

theorem cleanup_counters (now : Time) (run : EvaluationRun) :
    (cleanupStaleRuns now run).completedWorkers = run.completedWorkers ∧
      (cleanupStaleRuns now run).failedWorkers = run.failedWorkers ∧
      (cleanupStaleRuns now run).totalWorkers = run.totalWorkers := by
  unfold cleanupStaleRuns
  split <;> exact ⟨rfl, rfl, rfl⟩

theorem inv_start (req : TriggerRequest) (runId : UUID) (now : Time) : Inv (start req runId now) := by
  refine ⟨?_, fun _ => rfl, rfl, fun _ => Nat.zero_le 1, ?_⟩
  · rintro ⟨⟩
  · rintro i c ⟨⟩

theorem inv_attempt {s t : State} {a : Analysis} {act : BaseEvalTask.Action} (hinv : Inv s)
    (hok : Once s (.attempt a act)) (h : step s (.attempt a act) = some t) : Inv t := by
  simp only [step] at h
  split at h
  next hpublished =>
    obtain ⟨task, htask, rfl⟩ := Option.map_eq_some_iff.1 h
    have hcount : task.completedWorkers + task.failedWorkers =
        s.run.completedWorkers + s.run.failedWorkers + (marks act).toNat := attempt_counters htask
    refine ⟨hinv.published, ?_, ?_, ?_, hinv.counted⟩
    · intro hunpublished
      rw [State.advance, hpublished] at hunpublished
      cases hunpublished
    · change task.completedWorkers + task.failedWorkers = total (Function.update _ _ _)
      rw [total_update, hcount, hinv.sum]
    · intro b
      by_cases hb : b = a
      · subst hb
        change Function.update s.contributed b _ b ≤ 1
        rw [Function.update_self]
        cases hmarks : marks act with
        | true =>
          rw [hok hmarks]
          exact le_refl 1
        | false =>
          rw [Bool.toNat_false, Nat.add_zero]
          exact hinv.once b
      · change Function.update s.contributed a _ b ≤ 1
        rw [Function.update_of_ne hb]
        exact hinv.once b
  next => cases h

theorem inv_finalize {s t : State} {i version : Nat} {finalScore : ℚ} {now : Time} (hinv : Inv s)
    (h : step s (.finalize i version finalScore now) = some t) : Inv t := by
  obtain ⟨c, hc, rfl⟩ := Option.map_eq_some_iff.1 h
  obtain ⟨hpublished, hended⟩ := hinv.counted i c hc
  obtain ⟨htotal, hcounters⟩ := written_finalize s.run.id version finalScore
    (total fun a => (c a).completed) (total fun a => (c a).failed) now s.run
  refine ⟨fun _ => htotal.trans (hinv.published hpublished), ?_, ?_, ?_, hinv.counted⟩
  · intro hunpublished
    rw [hpublished] at hunpublished
    cases hunpublished
  · cases hm : matchesVersion version s.run with
    | true =>
      simp only [hm, if_true, Prod.mk.injEq] at hcounters ⊢
      rw [hcounters.1, hcounters.2, total_add]
      rfl
    | false =>
      simp only [hm, Bool.false_eq_true, if_false, Prod.mk.injEq] at hcounters ⊢
      rw [hcounters.1, hcounters.2]
      exact hinv.sum
  · cases hm : matchesVersion version s.run with
    | true => simpa only [hm, if_true] using hended
    | false => simpa only [hm, Bool.false_eq_true, if_false] using hinv.once

theorem inv_step (s : State) (a : Action) (t : State) (hinv : Inv s) (hok : Once s a)
    (h : step s a = some t) : Inv t := by
  cases a with
  | attempt a act => exact inv_attempt hinv hok h
  | write version w =>
    simp only [step] at h
    split at h
    · cases h
    next hw =>
      cases h
      obtain ⟨hcompleted, hfailed, htotal⟩ :=
        written_counters s.run.id version w s.run (by simpa using hw)
      refine ⟨?_, ?_, ?_, hinv.once, ?_⟩
      · intro hpublished
        change (written s.run.id version w s.run).totalWorkers = 4
        rw [htotal]
        split
        · rfl
        next hnot =>
          rw [Bool.not_eq_true] at hnot
          apply hinv.published
          simpa [hnot] using hpublished
      · intro hunpublished
        exact hinv.fresh (Bool.or_eq_false_iff.1 hunpublished).1
      · change (written s.run.id version w s.run).completedWorkers +
          (written s.run.id version w s.run).failedWorkers = _
        rw [hcompleted, hfailed]
        exact hinv.sum
      · intro i c hc
        obtain ⟨hpublished, hended⟩ := hinv.counted i c hc
        exact ⟨by simp [hpublished], hended⟩
  | countWorkers i =>
    simp only [step] at h
    split at h
    next hpublished =>
      cases h
      refine ⟨hinv.published, hinv.fresh, hinv.sum, hinv.once, ?_⟩
      intro j c hc
      by_cases hj : j = i
      · subst hj
        obtain rfl : (fun a => tally (s.task a).rows) = c := by simpa using hc
        exact ⟨hpublished, hok⟩
      · exact hinv.counted j c (by simpa [hj] using hc)
    next => cases h
  | finalize i version finalScore now => exact inv_finalize hinv h
  | cleanup now =>
    cases h
    obtain ⟨hcompleted, hfailed, htotal⟩ := cleanup_counters now s.run
    refine ⟨fun hpublished => htotal.trans (hinv.published hpublished), hinv.fresh, ?_, hinv.once,
      hinv.counted⟩
    change (cleanupStaleRuns now s.run).completedWorkers +
      (cleanupStaleRuns now s.run).failedWorkers = _
    rw [hcompleted, hfailed]
    exact hinv.sum

theorem countersBounded_of_once (req : TriggerRequest) (runId : UUID) (now : Time) :
    CountersBounded req runId now Once := by
  intro s h
  exact (h.invariant (inv_start req runId now) inv_step).bounded

theorem step_sameRow {s t : State} {a : Action} (h : step s a = some t) : SameRow s.run t.run := by
  cases a with
  | attempt a act =>
    simp only [step] at h
    split at h
    · obtain ⟨_, _, rfl⟩ := Option.map_eq_some_iff.1 h
      exact ⟨rfl, rfl, rfl, rfl⟩
    · cases h
  | write version w =>
    simp only [step] at h
    split at h <;> cases h
    exact written_sameRow _ _ _ _
  | countWorkers i =>
    simp only [step] at h
    split at h <;> cases h
    exact SameRow.refl s.run
  | finalize i version finalScore now =>
    obtain ⟨_, _, rfl⟩ := Option.map_eq_some_iff.1 h
    exact written_sameRow _ _ _ _
  | cleanup now =>
    cases h
    exact cleanup_sameRow now s.run

/-- A finalizer that has counted can overwrite the counters of a live run. -/
theorem step_finalize {s : State} {i : Nat} {c : Analysis → Tally} (hc : s.counted i = some c)
    (hlive : s.run.deletedAt = none) :
    ∃ t, step s (.finalize i s.run.version 0 0) = some t ∧ t.contributed = fun a => (c a).ended := by
  have hm : matchesVersion s.run.version s.run = true := by simp [matchesVersion, hlive]
  simp only [step, hc, Option.map_some, hm, if_true]
  exact ⟨_, rfl, rfl⟩

/-- From each step that the guard leaves out a bound can be broken. -/
theorem unbounded_of_not_once {req : TriggerRequest} {runId : UUID} {now : Time} {s t : State}
    {a : Action} (hreach : Exec step free (start req runId now) s) (hok : ¬ Once s a)
    (h : step s a = some t) : ∃ u, Exec step free t u ∧ ¬ Bounded u := by
  have hlive : s.run.deletedAt = none := hreach.invariant (P := fun s => s.run.deletedAt = none) rfl
    fun _ _ _ hlive _ hstep => (step_sameRow hstep).deletedAt.trans hlive
  cases a with
  | attempt a act =>
    simp only [Once, Classical.not_imp] at hok
    obtain ⟨hmarks, hcounted⟩ := hok
    refine ⟨t, Exec.refl t, fun hbounded => ?_⟩
    simp only [step] at h
    split at h
    · obtain ⟨task, _, rfl⟩ := Option.map_eq_some_iff.1 h
      have honce := hbounded.once a
      simp only [State.advance, Function.update_self, hmarks, Bool.toNat_true] at honce
      omega
    · cases h
  | countWorkers i =>
    simp only [Once, not_forall, not_le] at hok
    obtain ⟨a, hended⟩ := hok
    simp only [step] at h
    split at h
    · have hcounted : t.counted i = some fun a => tally (s.task a).rows := by
        cases h
        exact Function.update_self _ _ _
      have hrun : t.run.deletedAt = none := by
        cases h
        exact hlive
      obtain ⟨u, hstep, hcontributed⟩ := step_finalize hcounted hrun
      refine ⟨u, Exec.single trivial hstep, fun hbounded => ?_⟩
      have honce : (tally (s.task a).rows).ended ≤ 1 := by
        rw [← congrFun hcontributed a]
        exact hbounded.once a
      omega
    · cases h
  | write _ _ | finalize _ _ _ _ | cleanup _ => exact absurd trivial hok

section Sample

def delivery : BaseEvalTask.Request := { taskId := "task", hostname := "worker" }

/-- An attempt up to the commit of its row. -/
def createdRow (a : Analysis) (i : Nat) : List Action :=
  [.attempt a (.start i delivery), .attempt a (.checkIdempotent i), .attempt a (.createRead i),
    .attempt a (.createWrite i)]

theorem createdRow_once (a : Analysis) (i : Nat) : ∀ act ∈ createdRow a i, ∀ s, Once s act := by
  simp [createdRow, Once, marks]

/-- One attempt that runs into an exception. -/
def failedAttempt (a : Analysis) (i : Nat) : List Action :=
  [.attempt a (.start i delivery), .attempt a (.fault i "rate limited"), .attempt a (.markFailed i)]

/-- One analysis completes, another one fails once, and the finalizer counts both. -/
theorem two_counted : ∃ s : State, Bounded s ∧ s.run.status = .completed ∧
    s.run.completedWorkers = 1 ∧ s.run.failedWorkers = 1 := by
  have hrunning := (@Exec.refl _ _ step Once (start raceRequest 1 10)).tail
    (a := Action.write 1 (.prepareRun 11)) trivial rfl
  have hexecuted := (hrunning.along (createdRow_once .analyzeGithub 0) rfl).tail
    (a := Action.attempt .analyzeGithub (.execute 0 (.ok [("status", .str "completed")]))) (by rintro ⟨⟩) rfl
  have hcompleted := hexecuted.tail (a := Action.attempt .analyzeGithub (.markCompleted 0))
    (fun _ => rfl) rfl
  have hraised := (hcompleted.along (createdRow_once .analyzePitchDeck 0) rfl).tail
    (a := Action.attempt .analyzePitchDeck (.fault 0 "timeout")) (by rintro ⟨⟩) rfl
  have hfailed := hraised.tail (a := Action.attempt .analyzePitchDeck (.markFailed 0)) (fun _ => rfl) rfl
  have hcounted := hfailed.tail (a := Action.countWorkers 0) (fun a => by cases a <;> decide) rfl
  have hfinalized := hcounted.tail (a := Action.finalize 0 2 (1 / 2) 12) trivial rfl
  exact ⟨_, countersBounded_of_once raceRequest 1 10 _ hfinalized, rfl, rfl, rfl⟩

/-- One task fails with its three retries, and another one once. -/
def retried : List Action :=
  .write 1 (.prepareRun 11) :: (failedAttempt .analyzeGithub 0 ++ failedAttempt .analyzeGithub 1 ++
    failedAttempt .analyzeGithub 2 ++ failedAttempt .analyzeGithub 3 ++
    failedAttempt .analyzePitchDeck 0)

theorem retries_counted_twice : ¬ CountersBounded raceRequest 1 10 free ∧
    ∃ s, Exec step free (start raceRequest 1 10) s ∧ s.contributed .analyzeGithub = 4 ∧
      s.run.totalWorkers < s.run.completedWorkers + s.run.failedWorkers := by
  have hexec := exec_get step (start raceRequest 1 10) retried rfl
  constructor
  · intro h
    exact absurd ((h _ hexec).once .analyzeGithub) (by decide)
  · exact ⟨_, hexec, rfl, by decide⟩

end Sample

end EvalEngine.WorkerCounters
