import EvalEngine.RunLifecycle
import EvalEngine.RunTransactions

namespace EvalEngine.ConcurrencyLimit

open EvalEngine.Exceptions EvalEngine.RunModel EvalEngine.RunLifecycle EvalEngine.Transitions
open EvalEngine.RunWriters (InFlight TriggerRequest Writer cleanupStaleRuns)
open EvalEngine.PipelineDispatch (written isPrepare written_sameRow)
open EvalEngine.ConstrainedTables EvalEngine.ServiceTables
open EvalEngine.RunTransactions (State Pending isActive activeRuns find_some
  isActive_terminal isActive_open)
open Entity

variable (limit : UUID → Int) (orgId : UUID)

/-- The write makes one more run of the organization active: it is the INSERT
of a trigger, or the UPDATE of `_prepare_run` still matches the version of a
run that has been closed. -/
def Opens (s : State) : RunTransactions.Action → Prop
  | .insert tx _ _ => ∃ req, s.pending tx = some (.trigger req) ∧ req.organizationId = orgId
  | .write tx => ∃ runId f run, s.pending tx = some (.writer runId f) ∧ s.find runId = some run ∧
      run.organizationId = orgId ∧ run.isTerminal = true ∧ isPrepare f.writer = true ∧
      matchesVersion f.version run = true
  | _ => False

/-- There is room for the run when it is committed, not only when the runs were counted. -/
def Room (s : State) (a : RunTransactions.Action) : Prop :=
  Opens orgId s a → activeRuns orgId s.runs < limit orgId

variable {limit orgId}

theorem activeRuns_insert (orgId : UUID) {runs runs' : Table EvaluationRun} {run : EvaluationRun}
    (h : runs.insert run = some runs') :
    activeRuns orgId runs' = activeRuns orgId runs + (isActive orgId run).toNat := by
  rw [activeRuns, Table.write_some h, List.countP_append, activeRuns]
  cases hactive : isActive orgId run <;> simp [hactive]

theorem activeRuns_update (orgId : UUID) {runs runs' : Table EvaluationRun} {old run : EvaluationRun}
    (hold : old ∈ runs.rows) (hid : run.id = old.id) (h : runs.update run = some runs') :
    activeRuns orgId runs' + (isActive orgId old).toNat =
      activeRuns orgId runs + (isActive orgId run).toNat := by
  rw [activeRuns, Table.write_some h]
  exact Table.countP_replaced (isActive orgId) runs.valid.1 hold hid

theorem activeRuns_cleanup {runs runs' : Table EvaluationRun} {now : Time}
    (h : Table.write (runs.rows.map (cleanupStaleRuns now)) = some runs') :
    activeRuns orgId runs' ≤ activeRuns orgId runs := by
  rw [activeRuns, Table.write_some h, List.countP_map]
  apply List.countP_mono_left
  intro run _ hactive
  simp only [Function.comp_apply, cleanupStaleRuns] at hactive
  split at hactive
  · simp [isActive] at hactive
  · exact hactive

/-- Every UPDATE but the preparation's closes the run that it reaches. -/
theorem written_closed (runId : UUID) {version : Nat} {w : Writer} {run : EvaluationRun}
    (hw : isPrepare w = false) (hreach : reaches version w run = true) :
    (written runId version w run).isTerminal = true := by
  cases w with
  | triggerEvaluation req now => cases hreach
  | prepareRun now => cases hw
  | failRun error now =>
    rw [written, Writer.write, transition_reached runId _ _ _ hreach]
    rfl
  | finalize score completed failed now =>
    rw [written, Writer.write, transition_reached runId _ _ _ hreach]
    rfl
  | cancelEvaluationRun org now => rfl

theorem isActive_written (orgId : UUID) (runId : UUID) {f : InFlight} {run : EvaluationRun}
    (h : ¬ (run.isTerminal = true ∧ isPrepare f.writer = true ∧ matchesVersion f.version run = true)) :
    (isActive orgId (written runId f.version f.writer run)).toNat ≤ (isActive orgId run).toNat := by
  have horg := (written_sameRow runId f.version f.writer run).organizationId
  cases hreach : reaches f.version f.writer run with
  | false =>
    rw [written, write_missed runId hreach]
    exact Nat.le_refl _
  | true =>
    cases hprepare : isPrepare f.writer with
    | false =>
      rw [isActive_terminal orgId (written_closed runId hprepare hreach)]
      exact Nat.zero_le _
    | true =>
      have hmatch : matchesVersion f.version run = true := by
        cases hw : f.writer <;> simp_all [isPrepare, reaches]
      have hopen : run.isTerminal = false := by
        by_contra hclosed
        exact h ⟨by simpa using hclosed, hprepare, hmatch⟩
      rw [isActive_open orgId hopen, ← horg]
      unfold isActive
      cases decide ((written runId f.version f.writer run).organizationId = orgId) <;> simp
      exact Bool.toNat_le _

/-- The preparation reopens a closed run whose version it matches. -/
theorem isActive_reopened (runId : UUID) {f : InFlight} {run : EvaluationRun}
    (horg : run.organizationId = orgId) (hprepare : isPrepare f.writer = true)
    (hmatch : matchesVersion f.version run = true) :
    isActive orgId (written runId f.version f.writer run) = true := by
  cases hw : f.writer with
  | prepareRun now =>
    rw [written, Writer.write, transition_reached runId _ _ _ hmatch]
    simp [isActive, horg, RunValues.apply, transitionValues]
  | _ => simp_all [isPrepare]

theorem write_activeRuns {s t : State} {tx : Nat} {runId : UUID} {f : InFlight} {run : EvaluationRun}
    (hf : s.pending tx = some (.writer runId f)) (hrun : s.find runId = some run)
    (hcount : activeRuns orgId t.runs + (isActive orgId run).toNat =
      activeRuns orgId s.runs + (isActive orgId (written runId f.version f.writer run)).toNat) :
    (Opens orgId s (.write tx) ∧ activeRuns orgId t.runs = activeRuns orgId s.runs + 1) ∨
      (¬ Opens orgId s (.write tx) ∧ activeRuns orgId t.runs ≤ activeRuns orgId s.runs) := by
  by_cases hopens : Opens orgId s (.write tx)
  · obtain ⟨runId', f', run', hf', hrun', horg, hclosed, hprepare, hmatch⟩ := hopens
    obtain ⟨rfl, rfl⟩ : runId = runId' ∧ f = f' := by simpa [hf] using hf'
    obtain rfl : run = run' := by simpa [hrun] using hrun'
    rw [isActive_terminal orgId hclosed, isActive_reopened runId horg hprepare hmatch] at hcount
    exact .inl ⟨⟨runId, f, run, hf, hrun, horg, hclosed, hprepare, hmatch⟩, hcount⟩
  · refine .inr ⟨hopens, ?_⟩
    by_cases horg : run.organizationId = orgId
    · have hstale : ¬ (run.isTerminal = true ∧ isPrepare f.writer = true ∧
          matchesVersion f.version run = true) :=
        fun hreopen => hopens ⟨runId, f, run, hf, hrun, horg, hreopen⟩
      have hle := isActive_written orgId runId hstale
      omega
    · have hother : isActive orgId (written runId f.version f.writer run) = false := by
        simp [isActive, (written_sameRow runId f.version f.writer run).organizationId, horg]
      rw [hother, Bool.toNat_false] at hcount
      omega

/-- One step makes at most one more run active, and none unless it opens one. -/
theorem step_activeRuns (orgId : UUID) {s t : State} {a : RunTransactions.Action}
    (h : RunTransactions.step limit s a = some t) :
    (Opens orgId s a ∧ activeRuns orgId t.runs = activeRuns orgId s.runs + 1) ∨
      (¬ Opens orgId s a ∧ activeRuns orgId t.runs ≤ activeRuns orgId s.runs) := by
  cases a with
  | count tx req =>
    simp only [RunTransactions.step] at h
    split at h
    · split at h <;> cases h
      exact .inr ⟨id, Nat.le_refl _⟩
    · cases h
  | insert tx runId now =>
    simp only [RunTransactions.step] at h
    split at h
    next req hreq =>
      obtain ⟨runs, hruns, rfl⟩ := Option.map_eq_some_iff.1 h
      have hcount := activeRuns_insert orgId hruns
      by_cases horg : req.organizationId = orgId
      · have hactive : isActive orgId (req.newRun runId now) = true := by
          simp [isActive, TriggerRequest.newRun, horg]
        rw [hactive] at hcount
        exact .inl ⟨⟨req, hreq, horg⟩, hcount⟩
      · have hactive : isActive orgId (req.newRun runId now) = false := by
          simp [isActive, TriggerRequest.newRun, horg]
        rw [hactive] at hcount
        refine .inr ⟨?_, Nat.le_of_eq hcount⟩
        rintro ⟨req', hreq', horg'⟩
        rw [hreq] at hreq'
        cases hreq'
        exact horg horg'
    next => cases h
  | select tx runId w =>
    simp only [RunTransactions.step] at h
    split at h <;> cases h
    exact .inr ⟨id, Nat.le_refl _⟩
  | write tx =>
    simp only [RunTransactions.step] at h
    split at h
    next runId f hf =>
      split at h
      next run hrun =>
        obtain ⟨runs, hruns, rfl⟩ := Option.map_eq_some_iff.1 h
        have hid := (written_sameRow runId f.version f.writer run).id
        have hcount := activeRuns_update orgId (find_some hrun).1 hid hruns
        exact write_activeRuns hf hrun hcount
      next hnone =>
        cases h
        refine .inr ⟨?_, Nat.le_refl _⟩
        rintro ⟨runId', f', run, hf', hrun, _⟩
        rw [hf] at hf'
        cases hf'
        rw [hnone] at hrun
        cases hrun
    next => cases h
  | rollback tx =>
    obtain ⟨_, _, rfl⟩ := Option.map_eq_some_iff.1 h
    exact .inr ⟨id, Nat.le_refl _⟩
  | cleanup now =>
    obtain ⟨runs, hruns, rfl⟩ := Option.map_eq_some_iff.1 h
    exact .inr ⟨id, activeRuns_cleanup hruns⟩

def NeverExceeds (limit : UUID → Int) (orgId : UUID)
    (ok : State → RunTransactions.Action → Prop) : Prop :=
  ∀ s t, activeRuns orgId s.runs ≤ limit orgId → Exec (RunTransactions.step limit) ok s t →
    activeRuns orgId t.runs ≤ limit orgId

theorem neverExceeds_of_room (limit : UUID → Int) (orgId : UUID) :
    NeverExceeds limit orgId (Room limit orgId) := by
  intro s t hs h
  apply h.invariant (P := fun s : State => (activeRuns orgId s.runs : Int) ≤ limit orgId) hs
  intro s a t hle hroom hstep
  obtain ⟨hopens, hcount⟩ | ⟨_, hcount⟩ := step_activeRuns orgId hstep
  · have hlt := hroom hopens
    omega
  · omega

/-- Every step that the guard leaves out takes the organization past its limit. -/
theorem exceeds_of_no_room {s t : State} {a : RunTransactions.Action}
    (hok : ¬ Room limit orgId s a) (h : RunTransactions.step limit s a = some t) :
    limit orgId < activeRuns orgId t.runs := by
  simp only [Room, not_forall] at hok
  obtain ⟨hopens, hfull⟩ := hok
  obtain ⟨_, hcount⟩ | ⟨hnot, _⟩ := step_activeRuns orgId h
  · omega
  · exact absurd hopens hnot

/-- Three requests, the third after a cancellation, in an organization that may have two runs. -/
theorem third_after_cancellation : ∃ t : State, t.runs.rows.length = 3 ∧
    (activeRuns raceRequest.organizationId t.runs : Int) ≤ 2 := by
  let ok := Room (fun _ => 2) raceRequest.organizationId
  have hfirst := ((@Exec.refl _ _ (RunTransactions.step fun _ => 2) ok { runs := .empty }).tail
    (a := RunTransactions.Action.count 0 raceRequest) False.elim rfl).tail
    (a := RunTransactions.Action.insert 0 1 10) (fun _ => by decide) rfl
  have hsecond := (hfirst.tail (a := RunTransactions.Action.count 1 raceRequest) False.elim rfl).tail
    (a := RunTransactions.Action.insert 1 2 11) (fun _ => by decide) rfl
  have hcancelled := (hsecond.tail (a := RunTransactions.Action.select 2 1 (.cancelEvaluationRun 3 12))
    False.elim rfl).tail (a := RunTransactions.Action.write 2)
    (by rintro ⟨_, f, _, hf, _, _, _, hprepare, _⟩; cases hf; cases hprepare) rfl
  have hthird := (hcancelled.tail (a := RunTransactions.Action.count 3 raceRequest) False.elim rfl).tail
    (a := RunTransactions.Action.insert 3 3 13) (fun _ => by decide) rfl
  exact ⟨_, rfl, neverExceeds_of_room (fun _ => 2) raceRequest.organizationId _ _ (by decide) hthird⟩

/-- Two requests of one organization count before either of them inserts. -/
def overlapping : List RunTransactions.Action :=
  [.count 0 raceRequest, .count 1 raceRequest, .insert 0 1 10, .insert 1 2 10]

theorem overlap_exceeds :
    ¬ NeverExceeds (fun _ => 1) raceRequest.organizationId free := by
  intro h
  have hexec := exec_get (RunTransactions.step fun _ => 1) { runs := .empty } overlapping rfl
  exact absurd (h _ _ (by decide) hexec) (by decide)

end EvalEngine.ConcurrencyLimit
