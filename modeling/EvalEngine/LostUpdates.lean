import EvalEngine.OptimisticLock
import EvalEngine.RunWriters

namespace EvalEngine.LostUpdates

open EvalEngine.Exceptions EvalEngine.RunModel EvalEngine.CompareAndSwap EvalEngine.OptimisticLock
open EvalEngine.Transitions
open EvalEngine.RunWriters (Writer cancelFlush cleanupStaleRuns orRollback staleRunHours)

/-- A writer that has read and has still to write. `_finalize` reads the scores
and the worker results in transactions of their own before it reads the version. -/
inductive Pending
  | versioned (snapshot : EvaluationRun) (values : EvaluationRun → EvaluationRun)
  | scored (scores : EvaluationRun)
  | counted (scores workers : EvaluationRun)
  | finalizing (scores workers : EvaluationRun) (version : Nat) (finalScore : ℚ)
      (completedWorkers failedWorkers : Nat)
  | cancelling (snapshot : EvaluationRun)

/-- The row at the times of the reads that the new values come from. -/
def Pending.snapshots : Pending → List EvaluationRun
  | .versioned snapshot _ | .scored snapshot | .cancelling snapshot => [snapshot]
  | .counted scores workers | .finalizing scores workers _ _ _ _ => [scores, workers]

def finalizeCall (version : Nat) (finalScore : ℚ) (completed failed : Nat) (now : Time) : Call :=
  ⟨version, now, (transitionValues .completed now
    { overallScore := some finalScore
      completedWorkers := some completed
      failedWorkers := some failed }).apply⟩

/-- The UPDATE on the row as it is committed now, if it reaches the row. -/
def Pending.newRow (now : Time) (run : EvaluationRun) : Pending → Option EvaluationRun
  | .versioned snapshot values => runCell.swap run ⟨snapshot.version, now, values⟩
  | .finalizing _ _ version finalScore completed failed =>
    runCell.swap run (finalizeCall version finalScore completed failed now)
  | .cancelling _ => some (cancelFlush now run)
  | .scored _ | .counted _ _ => none

theorem orRollback_eq (runId : UUID) (run : EvaluationRun) (version : Nat) (now : Time)
    (values : RunValues) :
    orRollback (some run) (updateWithOptimisticLock (some run) runId version now values) =
      some ((runCell.swap run ⟨version, now, values.apply⟩).getD run) := by
  rw [updateWithOptimisticLock_eq]
  cases hswap : runCell.swap run ⟨version, now, values.apply⟩ with
  | some run' =>
    rw [attempt_swapped (by simpa using hswap)]
    rfl
  | none =>
    rw [attempt_refused (by simpa using hswap)]
    cases Option.any runCell.live (some run) <;> rfl

/-- The UPDATEs of `_finalize` and of the cancellation, as the lifecycle has them. -/
theorem newRow_finalizing (runId : UUID) (scores workers run : EvaluationRun) (version : Nat)
    (finalScore : ℚ) (completed failed : Nat) (now : Time) :
    (Writer.finalize finalScore completed failed now).write runId version (some run) =
      some (((Pending.finalizing scores workers version finalScore completed failed).newRow now
        run).getD run) :=
  orRollback_eq runId run version now _

theorem newRow_cancelling (runId orgId : UUID) (snapshot run : EvaluationRun) (version : Nat)
    (now : Time) : (Writer.cancelEvaluationRun orgId now).write runId version (some run) =
      (Pending.cancelling snapshot).newRow now run := rfl

/-- A committed write: where its values come from, and the row before and after. -/
structure Write where
  snapshots : List EvaluationRun
  before : EvaluationRun
  after : EvaluationRun

structure State where
  row : EvaluationRun
  pending : Nat → Option Pending := fun _ => none
  writes : List Write := []

def State.wait (s : State) (tx : Nat) (p : Option Pending) : State :=
  { s with pending := Function.update s.pending tx p }

def State.write (s : State) (snapshots : List EvaluationRun) (run : EvaluationRun) : State :=
  { s with row := run, writes := s.writes ++ [⟨snapshots, s.row, run⟩] }

def countCompleted (now : Time) (run : EvaluationRun) : EvaluationRun :=
  { run with completedWorkers := run.completedWorkers + 1, updatedAt := now }

def countFailed (now : Time) (run : EvaluationRun) : EvaluationRun :=
  { run with failedWorkers := run.failedWorkers + 1, updatedAt := now }

/-- The WHERE clause of `_cleanup_stale_runs`. -/
def isStale (now : Time) (run : EvaluationRun) : Bool :=
  !run.isTerminal && decide (run.createdAt < now - staleRunHours * 3600)

inductive Action
  | read (tx : Nat) (values : EvaluationRun → EvaluationRun)
  | readScores (tx : Nat)
  | countWorkers (tx : Nat)
  | reread (tx : Nat) (finalScore : ℚ) (completedWorkers failedWorkers : Nat)
  | beginCancel (tx : Nat) (orgId : UUID)
  | commit (tx : Nat) (now : Time)
  | rollback (tx : Nat)
  | markCompleted (now : Time)
  | markFailed (now : Time)
  | cleanup (now : Time)

def step (s : State) : Action → Option State
  | .read tx values =>
    match s.pending tx with
    | none => some (s.wait tx (some (.versioned s.row values)))
    | some _ => none
  | .readScores tx =>
    match s.pending tx with
    | none => if s.row.isTerminal then none else some (s.wait tx (some (.scored s.row)))
    | some _ => none
  | .countWorkers tx =>
    match s.pending tx with
    | some (.scored scores) => some (s.wait tx (some (.counted scores s.row)))
    | _ => none
  | .reread tx finalScore completed failed =>
    match s.pending tx with
    | some (.counted scores workers) =>
      if s.row.isTerminal then none
      else some (s.wait tx
        (some (.finalizing scores workers s.row.version finalScore completed failed)))
    | _ => none
  | .beginCancel tx orgId =>
    match s.pending tx, (Writer.cancelEvaluationRun orgId 0).select true (some s.row) with
    | none, some _ => some (s.wait tx (some (.cancelling s.row)))
    | _, _ => none
  | .commit tx now =>
    match s.pending tx with
    | some p =>
      match p.newRow now s.row with
      | some run => some ((s.write p.snapshots run).wait tx none)
      | none => some (s.wait tx none)
    | none => none
  | .rollback tx => some (s.wait tx none)
  | .markCompleted now => some (s.write [s.row] (countCompleted now s.row))
  | .markFailed now => some (s.write [s.row] (countFailed now s.row))
  | .cleanup now =>
    if isStale now s.row then some (s.write [s.row] (cleanupStaleRuns now s.row)) else some s

/-- The write takes the version up by one, and its values come from the very
row that it replaces. -/
structure Write.Safe (w : Write) : Prop where
  bumped : w.after.version = w.before.version + 1
  compared : ∀ snapshot ∈ w.snapshots, snapshot.version = w.before.version
  current : ∀ snapshot ∈ w.snapshots, snapshot = w.before

def NoLostUpdate (run : EvaluationRun) (ok : State → Action → Prop) : Prop :=
  ∀ s, Exec step ok { row := run } s → ∀ w ∈ s.writes, w.Safe

/-- The row is reached by versioned UPDATEs alone, and `_finalize` finds the
version under which it has read its values. -/
def Versioned (s : State) : Action → Prop
  | .markCompleted _ | .markFailed _ => False
  | .cleanup now => isStale now s.row = false
  | .commit tx _ => ∀ p, s.pending tx = some p →
    match p with
    | .cancelling _ => False
    | .finalizing scores workers version _ _ _ => matchesVersion version s.row = true →
        scores.version = version ∧ workers.version = version
    | _ => True
  | _ => True

/-- A snapshot of the current version is the current row. -/
structure Inv (s : State) : Prop where
  safe : ∀ w ∈ s.writes, w.Safe
  known : ∀ tx p, s.pending tx = some p → ∀ snapshot ∈ p.snapshots,
    snapshot.version ≤ s.row.version ∧ (snapshot.version = s.row.version → snapshot = s.row)

theorem inv_start (run : EvaluationRun) : Inv { row := run } := by
  refine ⟨?_, ?_⟩
  · rintro w ⟨⟩
  · rintro tx p ⟨⟩

theorem inv_wait {s : State} {tx : Nat} {p : Option Pending} (hinv : Inv s)
    (hp : ∀ q, p = some q → ∀ snapshot ∈ q.snapshots,
      snapshot = s.row ∨ ∃ q', s.pending tx = some q' ∧ snapshot ∈ q'.snapshots) :
    Inv (s.wait tx p) := by
  refine ⟨hinv.safe, ?_⟩
  intro tx' q hq snapshot hsnapshot
  obtain ⟨_, hpq⟩ | hold := entry_update hq
  · obtain rfl | ⟨q', hq', hmem⟩ := hp q hpq snapshot hsnapshot
    · exact ⟨Nat.le_refl _, fun _ => rfl⟩
    · exact hinv.known tx q' hq' snapshot hmem
  · exact hinv.known tx' q hold snapshot hsnapshot

theorem inv_write {s : State} {snapshots : List EvaluationRun} {run : EvaluationRun} (hinv : Inv s)
    (hbump : run.version = s.row.version + 1) (hsnapshots : ∀ snapshot ∈ snapshots, snapshot = s.row) :
    Inv (s.write snapshots run) := by
  refine ⟨?_, ?_⟩
  · intro w hw
    obtain hold | hnew := List.mem_append.1 hw
    · exact hinv.safe w hold
    · rw [List.mem_singleton.1 hnew]
      exact ⟨hbump, fun x hx => congrArg _ (hsnapshots x hx), hsnapshots⟩
  · intro tx p hp snapshot hsnapshot
    have hle := (hinv.known tx p hp snapshot hsnapshot).1
    change snapshot.version ≤ run.version ∧ (snapshot.version = run.version → snapshot = run)
    rw [hbump]
    refine ⟨Nat.le_succ_of_le hle, fun heq => ?_⟩
    omega

/-- A versioned UPDATE reaches the version that it expects. -/
theorem swap_versions {run run' : EvaluationRun} {call : Call} (h : runCell.swap run call = some run') :
    run.version = call.expectedVersion ∧ run'.version = run.version + 1 := by
  obtain ⟨⟨_, hversion⟩, rfl⟩ := swap_some.1 h
  have hv : run.version = call.expectedVersion := hversion
  refine ⟨hv, ?_⟩
  rw [hv]
  rfl

theorem matchesVersion_of_swap {run run' : EvaluationRun} {call : Call}
    (h : runCell.swap run call = some run') : matchesVersion call.expectedVersion run = true := by
  obtain ⟨⟨hlive, hversion⟩, _⟩ := swap_some.1 h
  simp only [matchesVersion, Bool.and_eq_true, decide_eq_true_eq]
  exact ⟨hversion, hlive⟩

theorem inv_commit {s t : State} {tx : Nat} {now : Time} (hinv : Inv s)
    (hok : Versioned s (.commit tx now)) (h : step s (.commit tx now) = some t) : Inv t := by
  simp only [step] at h
  split at h
  next p hp =>
    split at h
    next run hrun =>
      cases h
      have hguard := hok p hp
      have hknown := hinv.known tx p hp
      apply inv_wait _ (by rintro q ⟨⟩)
      cases p with
      | versioned snapshot values =>
        obtain ⟨hversion, hbump⟩ := swap_versions hrun
        refine inv_write hinv hbump fun x hx => (hknown x hx).2 ?_
        rw [List.mem_singleton.1 hx, hversion]
      | finalizing scores workers version finalScore completed failed =>
        obtain ⟨hversion, hbump⟩ := swap_versions hrun
        have hscores : scores.version = version ∧ workers.version = version :=
          hguard (matchesVersion_of_swap hrun)
        have hcurrent : s.row.version = version := hversion
        refine inv_write hinv hbump fun x hx => (hknown x hx).2 ?_
        simp only [Pending.snapshots, List.mem_cons, List.not_mem_nil, or_false] at hx
        obtain rfl | rfl := hx
        · rw [hscores.1, hcurrent]
        · rw [hscores.2, hcurrent]
      | cancelling snapshot => exact hguard.elim
      | scored scores => cases hrun
      | counted scores workers => cases hrun
    next =>
      cases h
      exact inv_wait hinv (by rintro q ⟨⟩)
  next => cases h

theorem inv_step (s : State) (a : Action) (t : State) (hinv : Inv s) (hok : Versioned s a)
    (h : step s a = some t) : Inv t := by
  cases a with
  | read tx values =>
    simp only [step] at h
    split at h <;> cases h
    refine inv_wait hinv ?_
    rintro q ⟨⟩ x hx
    exact .inl (List.mem_singleton.1 hx)
  | readScores tx =>
    simp only [step] at h
    split at h
    · split at h <;> cases h
      refine inv_wait hinv ?_
      rintro q ⟨⟩ x hx
      exact .inl (List.mem_singleton.1 hx)
    · cases h
  | countWorkers tx =>
    simp only [step] at h
    split at h
    next scores hscored =>
      cases h
      refine inv_wait hinv ?_
      rintro q ⟨⟩ x hx
      simp only [Pending.snapshots, List.mem_cons, List.not_mem_nil, or_false] at hx
      obtain rfl | rfl := hx
      · exact .inr ⟨_, hscored, List.mem_singleton_self _⟩
      · exact .inl rfl
    next => cases h
  | reread tx finalScore completed failed =>
    simp only [step] at h
    split at h
    next scores workers hcounted =>
      split at h <;> cases h
      refine inv_wait hinv ?_
      rintro q ⟨⟩ x hx
      exact .inr ⟨_, hcounted, hx⟩
    next => cases h
  | beginCancel tx orgId =>
    simp only [step] at h
    split at h <;> cases h
    refine inv_wait hinv ?_
    rintro q ⟨⟩ x hx
    exact .inl (List.mem_singleton.1 hx)
  | commit tx now => exact inv_commit hinv hok h
  | rollback tx =>
    cases h
    exact inv_wait hinv (by rintro q ⟨⟩)
  | markCompleted now => exact hok.elim
  | markFailed now => exact hok.elim
  | cleanup now =>
    have hfresh : isStale now s.row = false := hok
    simp only [step, hfresh, Bool.false_eq_true, if_false] at h
    cases h
    exact hinv

theorem noLostUpdate_of_versioned (run : EvaluationRun) : NoLostUpdate run Versioned := by
  intro s h
  exact (h.invariant (inv_start run) inv_step).safe

theorem mem_write (s : State) (snapshots : List EvaluationRun) (run : EvaluationRun) :
    ⟨snapshots, s.row, run⟩ ∈ (s.write snapshots run).writes :=
  List.mem_append_right _ List.mem_cons_self

theorem unsafe_of_unbumped {w : Write} (h : w.after.version = w.before.version) : ¬ w.Safe := by
  intro hsafe
  have hbump := hsafe.bumped
  omega

/-- Every step that the guard leaves out commits an unsafe write. -/
theorem unsafe_of_not_versioned {s t : State} {a : Action} (hok : ¬ Versioned s a)
    (h : step s a = some t) : ∃ w ∈ t.writes, ¬ w.Safe := by
  cases a with
  | markCompleted now =>
    cases h
    exact ⟨_, mem_write s _ _, unsafe_of_unbumped rfl⟩
  | markFailed now =>
    cases h
    exact ⟨_, mem_write s _ _, unsafe_of_unbumped rfl⟩
  | cleanup now =>
    have hstale : isStale now s.row = true := by simpa [Versioned] using hok
    simp only [step, hstale, if_true] at h
    cases h
    refine ⟨_, mem_write s _ _, unsafe_of_unbumped ?_⟩
    unfold cleanupStaleRuns
    split <;> rfl
  | commit tx now =>
    simp only [Versioned, not_forall] at hok
    obtain ⟨p, hp, hnot⟩ := hok
    simp only [step, hp] at h
    cases p with
    | cancelling snapshot =>
      cases h
      exact ⟨_, mem_write s _ _, unsafe_of_unbumped rfl⟩
    | finalizing scores workers version finalScore completed failed =>
      simp only [not_forall] at hnot
      obtain ⟨hmatch, hstale⟩ := hnot
      have hswap : runCell.swap s.row (finalizeCall version finalScore completed failed now) =
          some ((finalizeCall version finalScore completed failed now).apply s.row) := by
        simp only [matchesVersion, Bool.and_eq_true, decide_eq_true_eq] at hmatch
        exact swap_some.2 ⟨⟨hmatch.2, hmatch.1⟩, rfl⟩
      simp only [Pending.newRow, hswap] at h
      cases h
      refine ⟨_, mem_write s _ _, fun hsafe => hstale ?_⟩
      have hversion : s.row.version = version := (swap_versions hswap).1
      rw [← hversion]
      exact ⟨hsafe.compared scores (by simp [Pending.snapshots]),
        hsafe.compared workers (by simp [Pending.snapshots])⟩
    | versioned _ _ | scored _ | counted _ _ => exact absurd trivial hnot
  | read _ _ | readScores _ | countWorkers _ | reread _ _ _ _ | beginCancel _ _ | rollback _ =>
    exact absurd trivial hok

section Sample

def runningRun : EvaluationRun where
  id := 1
  submissionId := 1
  configId := none
  organizationId := 1
  triggeredById := none
  status := .running
  version := 2
  totalWorkers := 4
  createdAt := 0
  updatedAt := 0

/-- A failure that has read the row before the finalizer's commit, and is refused. -/
theorem failure_refused : ∃ w : Write, w.before.version = 2 ∧ w.after.status = .completed ∧
    w.Safe := by
  have hread := ((@Exec.refl _ _ step Versioned { row := runningRun }).tail
    (a := Action.readScores 0) trivial rfl).tail (a := Action.countWorkers 0) trivial rfl
  have hboth := (hread.tail (a := Action.read 1 (transitionValues .failed 12 {}).apply) trivial rfl).tail
    (a := Action.reread 0 (1 / 2) 4 0) trivial rfl
  have hcompleted := hboth.tail (a := Action.commit 0 12)
    (by rintro p ⟨⟩; exact fun _ => ⟨rfl, rfl⟩) rfl
  have hrefused := hcompleted.tail (a := Action.commit 1 13) (by rintro p ⟨⟩; trivial) rfl
  have hsafe := noLostUpdate_of_versioned runningRun _ hrefused _ List.mem_cons_self
  exact ⟨_, rfl, rfl, hsafe⟩

/-- A worker fails after `_finalize` has counted the failures. -/
def failureAfterCount : List Action :=
  [.readScores 0, .countWorkers 0, .markFailed 11, .reread 0 (1 / 2) 4 0, .commit 0 12]

/-- The increment is committed, and the finalizer then overwrites it. -/
theorem failure_overwritten : ¬ NoLostUpdate runningRun free ∧
    ∃ s, Exec step free { row := runningRun } s ∧
      s.writes.map (fun w => (w.after.version, w.after.failedWorkers)) = [(2, 1), (3, 0)] := by
  constructor
  · intro h
    have hstep : step { row := runningRun } (.markFailed 11) = some _ := rfl
    have hsafe := h _ (Exec.single trivial hstep) _ (mem_write _ _ _)
    cases hsafe.bumped
  · exact ⟨_, exec_get step { row := runningRun } failureAfterCount rfl, rfl⟩

end Sample

end EvalEngine.LostUpdates
