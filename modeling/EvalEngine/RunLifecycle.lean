import EvalEngine.RunWriters

namespace EvalEngine.RunLifecycle

open EvalEngine.Exceptions EvalEngine.RunModel EvalEngine.RunWriters EvalEngine.Transitions
open Relation (ReflTransGen)

/-- The state machine of a run. -/
inductive Edge : RunStatus → RunStatus → Prop
  | start : Edge .pending .running
  | finish {status : RunStatus} (h : status.isTerminal = true) : Edge .running status
  | fail : Edge .pending .failed
  | cancel : Edge .pending .cancelled

/-- What a run is for its observers: once closed it has a verdict that does
not change any more. -/
inductive Life
  | absent
  | waiting
  | active
  | closed (status : RunStatus) (overallScore : Option ℚ) (completedAt : Option Time)

inductive Move : Life → Life → Prop
  | create : Move .absent .waiting
  | start : Move .waiting .active
  | abort {status : RunStatus} {score : Option ℚ} {at_ : Option Time}
      (h : Edge .pending status) (hc : status.isTerminal = true) :
      Move .waiting (.closed status score at_)
  | finish {status : RunStatus} {score : Option ℚ} {at_ : Option Time}
      (h : status.isTerminal = true) : Move .active (.closed status score at_)

theorem closed_stuck (status : RunStatus) (score : Option ℚ) (at_ : Option Time) (l : Life) :
    ¬ Move (.closed status score at_) l := by
  rintro ⟨⟩

def view : Option EvaluationRun → Life
  | none => .absent
  | some run =>
    match run.status with
    | .pending => .waiting
    | .running => .active
    | status => .closed status run.overallScore run.completedAt

theorem view_terminal {run : EvaluationRun} (h : run.isTerminal = true) :
    view (some run) = .closed run.status run.overallScore run.completedAt := by
  cases hs : run.status <;> simp_all [view, EvaluationRun.isTerminal, RunStatus.isTerminal]

def reaches (version : Nat) : Writer → EvaluationRun → Bool
  | .triggerEvaluation _ _, _ => false
  | .cancelEvaluationRun _ _, _ => true
  | _, run => matchesVersion version run

def isFinalize : Writer → Bool
  | .finalize _ _ _ _ => true
  | _ => false

/-- How the UPDATE of a writer changes the row that it reaches. -/
inductive Rewrites (w : Writer) (run run' : EvaluationRun) : Prop
  | start (hs : run'.status = .running) (hc : run'.completedAt = run.completedAt)
  | close (hs : run'.isTerminal = true) (hc : run'.completedAt.isSome = true)
      (hw : run'.status = .completed → isFinalize w = true)

theorem transition_reached (runId : UUID) {version : Nat} {run : EvaluationRun} (status : RunStatus)
    (now : Time) (extra : RunValues) (hm : matchesVersion version run = true) :
    orRollback (some run) (transitionStatus (some run) runId version status now extra) =
      some { (transitionValues status now extra).apply run with
        version := version + 1, updatedAt := now } := by
  rw [transitionStatus, updateWithOptimisticLock_some run runId version now _ hm]
  rfl

theorem transition_missed (runId : UUID) {version : Nat} {row : Option EvaluationRun}
    (status : RunStatus) (now : Time) (extra : RunValues)
    (hm : ∀ run ∈ row, matchesVersion version run = false) :
    orRollback row (transitionStatus row runId version status now extra) = row := by
  obtain ⟨e, he⟩ := updateWithOptimisticLock_miss row runId version now
    (transitionValues status now extra) hm
  rw [transitionStatus, he]
  rfl

theorem write_reached (runId : UUID) {version : Nat} {w : Writer} {run : EvaluationRun}
    (hr : reaches version w run = true) :
    ∃ run', w.write runId version (some run) = some run' ∧ Rewrites w run run' := by
  cases w with
  | triggerEvaluation req now => cases hr
  | prepareRun now => exact ⟨_, transition_reached runId _ _ _ hr, .start rfl rfl⟩
  | failRun error now =>
    exact ⟨_, transition_reached runId _ _ _ hr, .close rfl rfl (by rintro ⟨⟩)⟩
  | finalize score completed failed now =>
    exact ⟨_, transition_reached runId _ _ _ hr, .close rfl rfl (fun _ => rfl)⟩
  | cancelEvaluationRun orgId now => exact ⟨_, rfl, .close rfl rfl (by rintro ⟨⟩)⟩

theorem write_missed (runId : UUID) {version : Nat} {w : Writer} {run : EvaluationRun}
    (hr : reaches version w run = false) : w.write runId version (some run) = some run := by
  have hmiss : ∀ r ∈ some run, reaches version w r = false := by
    rintro r ⟨⟩
    exact hr
  cases w with
  | triggerEvaluation req now => rfl
  | prepareRun now => exact transition_missed runId _ _ _ hmiss
  | failRun error now => exact transition_missed runId _ _ _ hmiss
  | finalize score completed failed now => exact transition_missed runId _ _ _ hmiss
  | cancelEvaluationRun orgId now => cases hr

theorem write_absent (runId : UUID) (version : Nat) (w : Writer) :
    w.write runId version none = none ∨
      ∃ req now, w.write runId version none = some (TriggerRequest.newRun req runId now) := by
  cases w with
  | triggerEvaluation req now => exact .inr ⟨req, now, rfl⟩
  | prepareRun _ | failRun _ _ | finalize _ _ _ _ | cancelEvaluationRun _ _ => exact .inl rfl

/-- No UPDATE that is about to commit reaches a row that was closed after the
writer had tested `is_terminal` on its snapshot. -/
def Current (s : Store) : Action → Prop
  | .commit tx => ∀ f run, s.inFlight tx = some f → s.row = some run →
      reaches f.version f.writer run = true → run.isTerminal = false
  | _ => True

structure Inv (s : Store) : Prop where
  stamped : ∀ run, s.row = some run → run.completedAt.isSome = run.isTerminal
  started : s.dispatched = true → ∃ run, s.row = some run ∧ run.status ≠ .pending
  finalizing : ∀ tx f, s.inFlight tx = some f → isFinalize f.writer = true → s.dispatched = true

/-- What one current step can do to the row. -/
inductive RowStep : Option EvaluationRun → Option EvaluationRun → Prop
  | kept {row : Option EvaluationRun} : RowStep row row
  | created {run : EvaluationRun} (hs : run.status = .pending) (hc : run.completedAt = none) :
      RowStep none (some run)
  | started {run run' : EvaluationRun} (ho : run.isTerminal = false) (hs : run'.status = .running)
      (hc : run'.completedAt = run.completedAt) : RowStep (some run) (some run')
  | closed {run run' : EvaluationRun} (he : Edge run.status run'.status)
      (ht : run'.isTerminal = true) (hc : run'.completedAt.isSome = true) :
      RowStep (some run) (some run')

theorem edge_of_close {run run' : EvaluationRun} (ho : run.isTerminal = false)
    (ht : run'.isTerminal = true)
    (hc : run.status = .pending → run'.status ≠ .completed) : Edge run.status run'.status := by
  cases hs : run.status with
  | pending =>
    cases hs' : run'.status with
    | failed => exact .fail
    | cancelled => exact .cancel
    | completed => exact absurd hs' (hc hs)
    | pending | running => simp [EvaluationRun.isTerminal, RunStatus.isTerminal, hs'] at ht
  | running => exact .finish ht
  | completed | failed | cancelled =>
    simp [EvaluationRun.isTerminal, RunStatus.isTerminal, hs] at ho

theorem commit_rowStep {runId : UUID} {s : Store} {tx : Nat} {f : InFlight} (hinv : Inv s)
    (hok : Current s (.commit tx)) (hf : s.inFlight tx = some f) :
    RowStep s.row (f.writer.write runId f.version s.row) := by
  cases hrow : s.row with
  | none =>
    obtain h | ⟨req, now, h⟩ := write_absent runId f.version f.writer
    · rw [h]; exact .kept
    · rw [h]; exact .created rfl rfl
  | some run =>
    cases hr : reaches f.version f.writer run with
    | false => rw [write_missed runId hr]; exact .kept
    | true =>
      have ho := hok f run hf hrow hr
      obtain ⟨run', hw, hre⟩ := write_reached runId hr
      rw [hw]
      cases hre with
      | start hs hc => exact .started ho hs hc
      | close hs hc hcompleted =>
        refine .closed (edge_of_close ho hs ?_) hs hc
        -- only a finalizer writes COMPLETED, and it starts behind the RUNNING transition
        intro hp hcomp
        obtain ⟨run₀, hrun₀, hne⟩ := hinv.started (hinv.finalizing tx f hf (hcompleted hcomp))
        cases hrow.symm.trans hrun₀
        exact hne hp

theorem cleanup_rowStep (now : Time) (row : Option EvaluationRun) :
    RowStep row (row.map (cleanupStaleRuns now)) := by
  cases row with
  | none => exact .kept
  | some run =>
    simp only [Option.map_some, cleanupStaleRuns]
    split
    · rename_i h
      simp only [Bool.and_eq_true, Bool.not_eq_true'] at h
      exact .closed (edge_of_close h.1 rfl (by simp)) rfl rfl
    · exact .kept

theorem row_step {runId : UUID} {s t : Store} {a : Action} (hinv : Inv s) (hok : Current s a)
    (h : step runId s a = some t) : RowStep s.row t.row := by
  cases a with
  | begin tx w =>
    simp only [step] at h
    split at h
    · cases h; exact .kept
    · cases h
  | commit tx =>
    simp only [step, Option.map_eq_some_iff] at h
    obtain ⟨f, hf, rfl⟩ := h
    exact commit_rowStep hinv hok hf
  | rollback tx =>
    simp only [step, Option.map_eq_some_iff] at h
    obtain ⟨f, hf, rfl⟩ := h
    exact .kept
  | cleanup now =>
    simp only [step, Option.some.injEq] at h
    subst h
    exact cleanup_rowStep now s.row

theorem RowStep.stamped {row row' : Option EvaluationRun} (h : RowStep row row')
    (hs : ∀ run, row = some run → run.completedAt.isSome = run.isTerminal) :
    ∀ run, row' = some run → run.completedAt.isSome = run.isTerminal := by
  rintro run rfl
  cases h with
  | kept => exact hs run rfl
  | created hp hc => simp [EvaluationRun.isTerminal, RunStatus.isTerminal, hp, hc]
  | started ho hr hc =>
    rw [hc, hs _ rfl, ho]
    simp [EvaluationRun.isTerminal, RunStatus.isTerminal, hr]
  | closed _ ht hc => rw [hc, ht]

theorem RowStep.left_pending {row row' : Option EvaluationRun} (h : RowStep row row')
    (hp : ∃ run, row = some run ∧ run.status ≠ .pending) :
    ∃ run, row' = some run ∧ run.status ≠ .pending := by
  obtain ⟨run, rfl, hne⟩ := hp
  cases h with
  | kept => exact ⟨run, rfl, hne⟩
  | started _ hs _ => exact ⟨_, rfl, by rw [hs]; decide⟩
  | closed _ ht _ =>
    refine ⟨_, rfl, fun hs => ?_⟩
    simp [EvaluationRun.isTerminal, RunStatus.isTerminal, hs] at ht

theorem RowStep.moves {row row' : Option EvaluationRun} (h : RowStep row row') :
    ReflTransGen Move (view row) (view row') := by
  cases h with
  | kept => exact .refl
  | created hs hc => simpa [view, hs] using ReflTransGen.single Move.create
  | started ho hs hc =>
    rename_i run run'
    have hv : view (some run') = .active := by simp [view, hs]
    rw [hv]
    cases hst : run.status with
    | pending => simpa [view, hst] using ReflTransGen.single Move.start
    | running => simpa [view, hst] using ReflTransGen.refl
    | completed | failed | cancelled =>
      simp [EvaluationRun.isTerminal, RunStatus.isTerminal, hst] at ho
  | closed he ht hc =>
    rename_i run run'
    rw [view_terminal ht]
    cases hst : run.status with
    | pending =>
      rw [hst] at he
      simpa [view, hst] using ReflTransGen.single (Move.abort he ht)
    | running => simpa [view, hst] using ReflTransGen.single (Move.finish ht)
    | completed | failed | cancelled =>
      rw [hst] at he
      cases he

theorem publishes_running {runId : UUID} {f : InFlight} {row : Option EvaluationRun}
    (h : publishes f row = true) :
    ∃ run, f.writer.write runId f.version row = some run ∧ run.status ≠ .pending := by
  obtain ⟨w, v⟩ := f
  cases w with
  | prepareRun now =>
    cases row with
    | none => simp [publishes] at h
    | some run =>
      have hm : matchesVersion v run = true := by simpa [publishes] using h
      refine ⟨_, by
        simp only [Writer.write, transitionStatus]
        rw [updateWithOptimisticLock_some run runId v now _ hm]
        rfl, ?_⟩
      simp [RunValues.apply, transitionValues]
  | triggerEvaluation _ _ | failRun _ _ | finalize _ _ _ _ | cancelEvaluationRun _ _ =>
    simp [publishes] at h

theorem select_dispatched {d : Bool} {w : Writer} {row : Option EvaluationRun} {v : Nat}
    (h : w.select d row = some v) (hw : isFinalize w = true) : d = true := by
  cases w with
  | finalize score completed failed now =>
    cases row with
    | none => simp [Writer.select] at h
    | some run =>
      by_cases hd : d = true
      · exact hd
      · simp [Writer.select, Option.filter, hd] at h
  | triggerEvaluation _ _ | prepareRun _ | failRun _ _ | cancelEvaluationRun _ _ =>
    simp [isFinalize] at hw

/-- A transaction in flight was there before, or its SELECT is this step. -/
theorem step_inFlight {runId : UUID} {s t : Store} {a : Action} (h : step runId s a = some t)
    {tx : Nat} {f : InFlight} (hf : t.inFlight tx = some f) :
    s.inFlight tx = some f ∨ f.writer.select s.dispatched s.row = some f.version := by
  cases a with
  | begin tx' w =>
    simp only [step] at h
    split at h
    · rename_i v hnone hv
      cases h
      obtain ⟨rfl, hw⟩ | hold := entry_update hf
      · cases hw
        exact .inr hv
      · exact .inl hold
    · cases h
  | commit tx' | rollback tx' =>
    simp only [step, Option.map_eq_some_iff] at h
    obtain ⟨g, hg, rfl⟩ := h
    obtain ⟨_, hw⟩ | hold := entry_update hf
    · cases hw
    · exact .inl hold
  | cleanup now =>
    simp only [step, Option.some.injEq] at h
    subst h
    exact .inl hf

theorem step_dispatched {runId : UUID} {s t : Store} {a : Action} (h : step runId s a = some t)
    (hd : s.dispatched = true) : t.dispatched = true := by
  cases a with
  | begin tx w =>
    simp only [step] at h
    split at h
    · cases h; exact hd
    · cases h
  | commit tx | rollback tx =>
    simp only [step, Option.map_eq_some_iff] at h
    obtain ⟨f, hf, rfl⟩ := h
    simp [hd]
  | cleanup now =>
    simp only [step, Option.some.injEq] at h
    exact h ▸ hd

theorem step_finalizing {runId : UUID} {s t : Store} {a : Action} (hinv : Inv s)
    (h : step runId s a = some t) (tx : Nat) (f : InFlight) (hf : t.inFlight tx = some f)
    (hw : isFinalize f.writer = true) : t.dispatched = true := by
  obtain hold | hsel := step_inFlight h hf
  · exact step_dispatched h (hinv.finalizing tx f hold hw)
  · exact step_dispatched h (select_dispatched hsel hw)

theorem step_started {runId : UUID} {s t : Store} {a : Action} (hinv : Inv s) (hok : Current s a)
    (h : step runId s a = some t) (hd : t.dispatched = true) :
    ∃ run, t.row = some run ∧ run.status ≠ .pending := by
  have hrow := row_step hinv hok h
  by_cases hs : s.dispatched = true
  · exact hrow.left_pending (hinv.started hs)
  · cases a with
    | commit tx =>
      simp only [step, Option.map_eq_some_iff] at h
      obtain ⟨f, hf, rfl⟩ := h
      exact publishes_running (by simpa [hs] using hd)
    | begin tx w =>
      simp only [step] at h
      split at h
      · cases h; exact absurd hd hs
      · cases h
    | rollback tx =>
      simp only [step, Option.map_eq_some_iff] at h
      obtain ⟨f, hf, rfl⟩ := h
      exact absurd hd hs
    | cleanup now =>
      simp only [step, Option.some.injEq] at h
      subst h
      exact absurd hd hs

theorem inv_start : Inv start :=
  ⟨by rintro run ⟨⟩, by rintro ⟨⟩, by rintro tx f ⟨⟩⟩

theorem inv_step {runId : UUID} (s : Store) (a : Action) (t : Store) (hinv : Inv s)
    (hok : Current s a) (h : step runId s a = some t) : Inv t :=
  ⟨(row_step hinv hok h).stamped hinv.stamped, step_started hinv hok h, step_finalizing hinv h⟩

theorem exec_inv {runId : UUID} {t : Store} (h : Exec (step runId) Current start t) : Inv t :=
  h.invariant inv_start inv_step

/-- The current writers refine the abstract life of a run. -/
theorem exec_refines {runId : UUID} {s t : Store} (hs : Inv s) (h : Exec (step runId) Current s t) :
    ReflTransGen Move (view s.row) (view t.row) :=
  h.refines (fun s => view s.row) hs inv_step
    (fun _ _ _ hP hok hst => (row_step hP hok hst).moves)

/-- The status component of a life; an absent run counts as not yet started. -/
def statusOf : Life → RunStatus
  | .absent | .waiting => .pending
  | .active => .running
  | .closed status _ _ => status

theorem statusOf_view (run : EvaluationRun) : statusOf (view (some run)) = run.status := by
  cases hs : run.status <;> simp [view, statusOf, hs]

theorem edges_of_moves {x y : Life} (h : ReflTransGen Move x y) :
    ReflTransGen Edge (statusOf x) (statusOf y) := by
  induction h with
  | refl => exact .refl
  | tail _ hm ih =>
    cases hm with
    | create => exact ih
    | start => exact ih.tail .start
    | abort h _ => exact ih.tail h
    | finish h => exact ih.tail (.finish h)

/-- Two sightings of the run, the second one later: the status has moved along
the state machine, a verdict once reached has not changed, and the run carries
a completion time exactly when it is closed. -/
structure Kept (run run' : EvaluationRun) : Prop where
  moved : ReflTransGen Edge run.status run'.status
  frozen : run.isTerminal = true → run'.status = run.status ∧
    run'.overallScore = run.overallScore ∧ run'.completedAt = run.completedAt
  stamped : run'.completedAt.isSome = run'.isTerminal

/-- The lifecycle contract, for the executions whose steps all meet `ok`. -/
def Lifecycle (runId : UUID) (ok : Store → Action → Prop) : Prop :=
  ∀ s t run', Exec (step runId) ok start s → Exec (step runId) ok s t → t.row = some run' →
    ReflTransGen Edge .pending run'.status ∧ ∀ run, s.row = some run → Kept run run'

theorem lifecycle_of_current (runId : UUID) : Lifecycle runId Current := by
  intro s t run' hs hst hrow'
  have hinv := exec_inv hs
  have hstamp := (exec_inv (hs.trans hst)).stamped run' hrow'
  refine ⟨?_, fun run hrow => ⟨?_, fun hterm => ?_, hstamp⟩⟩
  · have hmoves := edges_of_moves (exec_refines inv_start (hs.trans hst))
    rwa [hrow', statusOf_view] at hmoves
  · have hmoves := edges_of_moves (exec_refines hinv hst)
    rwa [hrow, hrow', statusOf_view, statusOf_view] at hmoves
  · have hmoves := exec_refines hinv hst
    rw [hrow, hrow', view_terminal hterm] at hmoves
    have hview := eq_of_stuck (closed_stuck _ _ _) hmoves
    have hst' : run'.isTerminal = true := by
      cases hs' : run'.status <;> simp_all [view, EvaluationRun.isTerminal, RunStatus.isTerminal]
    rw [view_terminal hst'] at hview
    injection hview with h1 h2 h3
    exact ⟨h1, h2, h3⟩

/-- The guard leaves out only commits that rewrite a closed run. -/
theorem rewrites_of_not_current {runId : UUID} {s t : Store} {a : Action} (hok : ¬ Current s a)
    (h : step runId s a = some t) : ∃ w run run', s.row = some run ∧ run.isTerminal = true ∧
      t.row = some run' ∧ Rewrites w run run' := by
  cases a with
  | commit tx =>
    simp only [Current, not_forall] at hok
    obtain ⟨f, run, hf, hrow, hr, hterm⟩ := hok
    simp only [step, hf, Option.map_some, Option.some.injEq] at h
    subst h
    obtain ⟨run', hw, hre⟩ := write_reached runId hr
    exact ⟨f.writer, run, run', hrow, by simpa using hterm, by simpa only [hrow] using hw, hre⟩
  | begin _ _ | rollback _ | cleanup _ => exact absurd trivial hok

def raceRequest : TriggerRequest :=
  { submissionId := 2, configId := none, organizationId := 3, userId := 4, configSnapshot := []
    runMetadata := [], taskId := "task" }

/-- The finalizer commits COMPLETED between the read and the flush of a cancellation. -/
def untilCompleted : List Action :=
  [.begin 0 (.triggerEvaluation raceRequest 10), .commit 0, .begin 0 (.prepareRun 11), .commit 0,
    .begin 1 (.cancelEvaluationRun 3 12), .begin 2 (.finalize 1 8 0 13), .commit 2]

/-- The second of two deliveries and a failure come too late, and their UPDATEs match no row. -/
theorem completed_kept : ∃ run run' : EvaluationRun, run.status = .completed ∧
    run'.overallScore = some 1 ∧ Kept run run' := by
  have hcreated := ((@Exec.refl _ _ (step 1) Current start).tail
    (a := Action.begin 0 (.triggerEvaluation raceRequest 10)) trivial rfl).tail
    (a := Action.commit 0) (by rintro f run ⟨⟩ ⟨⟩) rfl
  have hboth := (hcreated.tail (a := Action.begin 0 (.prepareRun 11)) trivial rfl).tail
    (a := Action.begin 3 (.prepareRun 11)) trivial rfl
  have hrunning := (hboth.tail (a := Action.commit 0) (by rintro f run ⟨⟩ ⟨⟩ _; rfl) rfl).tail
    (a := Action.commit 3) (by rintro f run ⟨⟩ ⟨⟩ _; rfl) rfl
  have hreads := (hrunning.tail (a := Action.begin 1 (.failRun "lost" 12)) trivial rfl).tail
    (a := Action.begin 2 (.finalize 1 8 0 13)) trivial rfl
  have hcompleted := hreads.tail (a := Action.commit 2) (by rintro f run ⟨⟩ ⟨⟩ _; rfl) rfl
  have hkept := lifecycle_of_current 1 _ _ _ hcompleted ((Exec.refl _).tail (a := Action.commit 1)
    (by rintro f run ⟨⟩ ⟨⟩ hreached; cases hreached) rfl) rfl
  exact ⟨_, _, rfl, rfl, hkept.2 _ rfl⟩

theorem completed_then_cancelled : ¬ Lifecycle 1 free := by
  intro h
  have hs := exec_get (step 1) start untilCompleted rfl
  have hk := (h _ _ _ hs (exec_get _ _ [.commit 1] rfl) rfl).2 _ rfl
  exact absurd (hk.frozen rfl).1 (by decide)

end EvalEngine.RunLifecycle
