import EvalEngine.RunWriters

namespace EvalEngine.PipelineDispatch

open EvalEngine.Exceptions EvalEngine.RunModel EvalEngine.RunWriters

/-- One delivery of `evaluate_submission`: its `_prepare_run` reads the run
first and commits the transition later, and only then is the chord published. -/
inductive Delivery
  | idle
  | opened (version : Nat) (status : RunStatus)
  | prepared
  | published
  | ended

/-- All deliveries for one run, and its other writers. -/
structure State where
  row : EvaluationRun
  delivery : Nat → Delivery := fun _ => .idle
  writers : Nat → Option InFlight := fun _ => none
  chords : Nat := 0

def start (req : TriggerRequest) (runId : UUID) (now : Time) : State := { row := req.newRun runId now }

def State.move (s : State) (i : Nat) (d : Delivery) : State :=
  { s with delivery := Function.update s.delivery i d }

inductive Action
  | read (i : Nat)
  | commit (i : Nat) (now : Time)
  | publish (i : Nat)
  | stop (i : Nat)
  | begin (tx : Nat) (writer : Writer)
  | write (tx : Nat)
  | rollback (tx : Nat)
  | cleanup (now : Time)

def isPrepare : Writer → Bool
  | .prepareRun _ => true
  | _ => false

/-- The row after the UPDATE of a writer; a writer never deletes it. -/
def written (runId version : Nat) (w : Writer) (row : EvaluationRun) : EvaluationRun :=
  (w.write runId version (some row)).getD row

/-- A redelivery is a further delivery, and `stop` ends one at any point: by
returning, by an exception, or with its worker. The publication is the one that
the code attempts; what comes of its arguments is in `CheckedDispatch`. -/
def step (runId : UUID) (s : State) : Action → Option State
  | .read i =>
    match s.delivery i with
    | .idle => some (s.move i
        (if s.row.isTerminal then .ended else .opened s.row.version s.row.status))
    | _ => none
  | .commit i now =>
    match s.delivery i with
    | .opened version _ =>
      if matchesVersion version s.row then
        some ({ s with row := written runId version (.prepareRun now) s.row }.move i .prepared)
      else some (s.move i .ended)
    | _ => none
  | .publish i =>
    match s.delivery i with
    | .prepared => some ({ s with chords := s.chords + 1 }.move i .published)
    | _ => none
  | .stop i => some (s.move i .ended)
  | .begin tx w =>
    match s.writers tx, w.select (decide (0 < s.chords)) (some s.row), isPrepare w with
    | none, some v, false =>
      some { s with writers := Function.update s.writers tx (some ⟨w, v⟩) }
    | _, _, _ => none
  | .write tx => (s.writers tx).map fun f =>
    { s with
      row := written runId f.version f.writer s.row
      writers := Function.update s.writers tx none }
  | .rollback tx => (s.writers tx).map fun _ =>
    { s with writers := Function.update s.writers tx none }
  | .cleanup now => some { s with row := cleanupStaleRuns now s.row }

/-- A delivery that has read the run as RUNNING takes it over only while
nobody has published the pipeline or is about to. -/
def Unclaimed (s : State) : Action → Prop
  | .commit i _ => ∀ version, s.delivery i = .opened version .running →
      matchesVersion version s.row = true → s.chords = 0 ∧ ∀ j, s.delivery j ≠ .prepared
  | _ => True

/-- What the UPDATE of a writer leaves alone. -/
structure SameRow (run run' : EvaluationRun) : Prop where
  id : run'.id = run.id
  organizationId : run'.organizationId = run.organizationId
  submissionId : run'.submissionId = run.submissionId
  deletedAt : run'.deletedAt = run.deletedAt

theorem SameRow.refl (run : EvaluationRun) : SameRow run run := ⟨rfl, rfl, rfl, rfl⟩

/-- A relation that both kinds of UPDATE respect holds of every writer. -/
theorem written_related {R : EvaluationRun → EvaluationRun → Prop} (hrefl : ∀ run, R run run)
    (hvalues : ∀ (values : RunValues) (run : EvaluationRun) (version : Nat) (now : Time),
      R run { values.apply run with version, updatedAt := now })
    (hcancel : ∀ now run, R run (cancelFlush now run)) (runId version : Nat) (w : Writer)
    (run : EvaluationRun) : R run (written runId version w run) := by
  have htransition : ∀ status now extra, R run ((orRollback (some run)
      (transitionStatus (some run) runId version status now extra)).getD run) := by
    intro status now extra
    cases hm : matchesVersion version run with
    | true =>
      rw [transitionStatus, updateWithOptimisticLock_some run runId version now _ hm]
      exact hvalues _ _ _ _
    | false =>
      obtain ⟨e, he⟩ := updateWithOptimisticLock_miss (some run) runId version now
        (transitionValues status now extra) (by rintro r ⟨⟩; exact hm)
      rw [transitionStatus, he]
      exact hrefl run
  cases w with
  | triggerEvaluation req now => exact hrefl run
  | prepareRun now => exact htransition _ _ _
  | failRun error now => exact htransition _ _ _
  | finalize score completed failed now => exact htransition _ _ _
  | cancelEvaluationRun orgId now => exact hcancel now run

theorem written_sameRow (runId version : Nat) (w : Writer) (run : EvaluationRun) :
    SameRow run (written runId version w run) :=
  written_related SameRow.refl (fun _ _ _ _ => ⟨rfl, rfl, rfl, rfl⟩)
    (fun _ _ => ⟨rfl, rfl, rfl, rfl⟩) runId version w run

theorem cleanup_sameRow (now : Time) (run : EvaluationRun) :
    SameRow run (cleanupStaleRuns now run) := by
  unfold cleanupStaleRuns
  split <;> exact ⟨rfl, rfl, rfl, rfl⟩

end EvalEngine.PipelineDispatch
