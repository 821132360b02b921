import EvalEngine.PipelineDispatch
import EvalEngine.RunLifecycle

namespace EvalEngine.SingleDispatch

open EvalEngine.Exceptions EvalEngine.RunModel EvalEngine.RunLifecycle EvalEngine.Transitions
open EvalEngine.PipelineDispatch
open EvalEngine.RunWriters hiding Action start step

/-- Nobody has published the pipeline or is about to. -/
def Free (s : State) : Prop := s.chords = 0 ∧ ∀ j, s.delivery j ≠ .prepared

structure Inv (s : State) : Prop where
  single : s.chords ≤ 1
  alone : ∀ i j, s.delivery i = .prepared → s.delivery j = .prepared → j = i
  ahead : ∀ i, s.delivery i = .prepared → s.chords = 0
  waiting : s.row.status = .pending → Free s
  opened : ∀ i v status, s.delivery i = .opened v status →
    v ≤ s.row.version ∧ status.isTerminal = false
  current : ∀ i v, s.delivery i = .opened v .pending → s.row.version = v → Free s

/-- A write never lowers the version and never takes the run back to PENDING. -/
structure RowLe (row row' : EvaluationRun) : Prop where
  version : row.version ≤ row'.version
  pending : row'.status = .pending → row.status = .pending

theorem rowLe_refl (row : EvaluationRun) : RowLe row row := ⟨Nat.le_refl _, id⟩

theorem rewrites_not_pending {w : Writer} {run run' : EvaluationRun} (h : Rewrites w run run') :
    run'.status ≠ .pending := by
  intro hp
  cases h with
  | start hs _ => rw [hp] at hs; cases hs
  | close ht _ _ => simp [EvaluationRun.isTerminal, RunStatus.isTerminal, hp] at ht

theorem matchesVersion_eq {v : Nat} {run : EvaluationRun} (h : matchesVersion v run = true) :
    run.version = v := by
  simp only [matchesVersion, Bool.and_eq_true, decide_eq_true_eq] at h
  exact h.1

theorem write_version {runId v : Nat} {w : Writer} {run run' : EvaluationRun}
    (hr : reaches v w run = true) (hw : w.write runId v (some run) = some run') :
    run.version ≤ run'.version := by
  cases w with
  | triggerEvaluation _ _ => cases hr
  | cancelEvaluationRun _ _ => cases hw; exact Nat.le_refl _
  | prepareRun _ | failRun _ _ | finalize _ _ _ _ =>
    simp only [Writer.write] at hw
    rw [transition_reached runId _ _ _ hr] at hw
    cases hw
    exact Nat.le_succ_of_le (Nat.le_of_eq (matchesVersion_eq hr))

theorem written_rowLe (runId v : Nat) (w : Writer) (row : EvaluationRun) :
    RowLe row (written runId v w row) := by
  cases hr : reaches v w row with
  | false =>
    rw [written, write_missed runId hr]
    exact rowLe_refl row
  | true =>
    obtain ⟨row', hw, hre⟩ := write_reached runId hr
    rw [written, hw]
    exact ⟨write_version hr hw, fun hp => absurd hp (rewrites_not_pending hre)⟩

theorem written_prepare (runId : UUID) {v : Nat} {row : EvaluationRun} (now : Time)
    (hm : matchesVersion v row = true) : (written runId v (.prepareRun now) row).status = .running ∧
      (written runId v (.prepareRun now) row).version = v + 1 := by
  simp only [written, Writer.write]
  rw [transition_reached runId _ _ _ hm]
  exact ⟨rfl, rfl⟩

theorem cleanup_rowLe (now : Time) (row : EvaluationRun) : RowLe row (cleanupStaleRuns now row) := by
  simp only [cleanupStaleRuns]
  split
  · exact ⟨Nat.le_refl _, by rintro ⟨⟩⟩
  · exact rowLe_refl row

theorem move_delivery (s : State) (i j : Nat) (d : Delivery) :
    (s.move i d).delivery j = if j = i then d else s.delivery j := by
  simp [State.move, Function.update_apply]

theorem move_eq {s : State} {i j : Nat} {d d' : Delivery} (h : (s.move i d).delivery j = d') :
    (j = i ∧ d = d') ∨ s.delivery j = d' := by
  rw [move_delivery] at h
  split at h
  · exact .inl ⟨by assumption, h⟩
  · exact .inr h

theorem free_move {s : State} {i : Nat} {d : Delivery} (hd : d ≠ .prepared) (h : Free s) :
    Free (s.move i d) := by
  refine ⟨h.1, fun j hj => ?_⟩
  obtain ⟨_, hp⟩ | hp := move_eq hj
  · exact hd hp
  · exact h.2 j hp

theorem Inv.free_of_opened {s : State} {a : Action} (hinv : Inv s) (hok : Unclaimed s a) {i v : Nat}
    {status : RunStatus} {now : Time} (ha : a = .commit i now)
    (hd : s.delivery i = .opened v status) (hm : matchesVersion v s.row = true) : Free s := by
  subst ha
  cases status with
  | pending => exact hinv.current i v hd (matchesVersion_eq hm)
  | running => exact hok v hd hm
  | completed | failed | cancelled => cases (hinv.opened i v _ hd).2

theorem inv_row {s : State} {row : EvaluationRun} {writers : Nat → Option InFlight} (hinv : Inv s)
    (hrow : RowLe s.row row) : Inv { s with row := row, writers := writers } := by
  refine ⟨hinv.single, hinv.alone, hinv.ahead, fun hp => hinv.waiting (hrow.pending hp), ?_, ?_⟩
  · intro i v status hd
    exact ⟨(hinv.opened i v status hd).1.trans hrow.version, (hinv.opened i v status hd).2⟩
  · intro i v hd hv
    have hle := (hinv.opened i v _ hd).1
    exact hinv.current i v hd (Nat.le_antisymm (hv ▸ hrow.version) hle)

theorem inv_ended {s : State} {i : Nat} (hinv : Inv s) : Inv (s.move i .ended) := by
  have hback : ∀ j d, (s.move i .ended).delivery j = d → d ≠ .ended → s.delivery j = d := by
    intro j d hj hne
    obtain ⟨_, hp⟩ | hp := move_eq hj
    · exact absurd hp.symm hne
    · exact hp
  refine ⟨hinv.single, ?_, ?_, fun hp => free_move (by simp) (hinv.waiting hp), ?_, ?_⟩
  · intro j k hj hk
    exact hinv.alone j k (hback j _ hj (by simp)) (hback k _ hk (by simp))
  · intro j hj
    exact hinv.ahead j (hback j _ hj (by simp))
  · intro j v status hj
    exact hinv.opened j v status (hback j _ hj (by simp))
  · intro j v hj hv
    exact free_move (by simp) (hinv.current j v (hback j _ hj (by simp)) hv)

theorem inv_opened {s : State} {i : Nat} (hinv : Inv s) (ho : s.row.isTerminal = false) :
    Inv (s.move i (.opened s.row.version s.row.status)) := by
  refine ⟨hinv.single, ?_, ?_, fun hp => free_move (by simp) (hinv.waiting hp), ?_, ?_⟩
  · intro j k hj hk
    obtain ⟨_, hp⟩ | hj := move_eq hj
    · cases hp
    · obtain ⟨_, hp⟩ | hk := move_eq hk
      · cases hp
      · exact hinv.alone j k hj hk
  · intro j hj
    obtain ⟨_, hp⟩ | hj := move_eq hj
    · cases hp
    · exact hinv.ahead j hj
  · intro j v status hj
    obtain ⟨_, hp⟩ | hj := move_eq hj
    · cases hp
      exact ⟨Nat.le_refl _, ho⟩
    · exact hinv.opened j v status hj
  · intro j v hj hv
    refine free_move (by simp) ?_
    obtain ⟨_, hp⟩ | hj := move_eq hj
    · injection hp with _ hs
      exact hinv.waiting hs
    · exact hinv.current j v hj hv

/-- The transition outdates every snapshot taken so far. -/
theorem inv_prepared {runId : UUID} {s : State} {i v : Nat} {now : Time} (hinv : Inv s)
    (hfree : Free s) (hm : matchesVersion v s.row = true) :
    Inv ({ s with row := written runId v (.prepareRun now) s.row }.move i .prepared) := by
  obtain ⟨hs, hv⟩ := written_prepare runId now hm
  have hv' : s.row.version = v := matchesVersion_eq hm
  have honly : ∀ j, (s.move i .prepared).delivery j = .prepared → j = i := by
    intro j hj
    obtain ⟨hji, _⟩ | hj := move_eq hj
    · exact hji
    · exact absurd hj (hfree.2 j)
  refine ⟨hinv.single, fun j k hj hk => (honly k hk).trans (honly j hj).symm,
    fun _ _ => hfree.1, fun hp => ?_, ?_, ?_⟩
  · exact absurd (hs.symm.trans hp) (by simp)
  · intro j w status hj
    obtain ⟨_, hp⟩ | hj := move_eq hj
    · cases hp
    · have hle := hinv.opened j w status hj
      exact ⟨hle.1.trans (written_rowLe runId v _ s.row).version, hle.2⟩
  · intro j w hj hw
    obtain ⟨_, hp⟩ | hj := move_eq hj
    · cases hp
    · have hle : w ≤ v := hv' ▸ (hinv.opened j w _ hj).1
      have hnew : v + 1 = w := hv.symm.trans hw
      omega

theorem inv_published {s : State} {i : Nat} (hinv : Inv s) (hd : s.delivery i = .prepared) :
    Inv ({ s with chords := s.chords + 1 }.move i .published) := by
  have hnone : ∀ j, (s.move i .published).delivery j ≠ .prepared := by
    intro j hj
    rw [move_delivery] at hj
    split at hj
    · cases hj
    · exact absurd (hinv.alone i j hd hj) (by assumption)
  have hnot : ¬ Free s := fun hf => hf.2 i hd
  refine ⟨?_, fun j k hj _ => absurd hj (hnone j), fun j hj => absurd hj (hnone j),
    fun hp => absurd (hinv.waiting hp) hnot, ?_, ?_⟩
  · have hzero := hinv.ahead i hd
    simp [State.move, hzero]
  · intro j v status hj
    obtain ⟨_, hp⟩ | hj := move_eq hj
    · cases hp
    · exact hinv.opened j v status hj
  · intro j v hj hv
    obtain ⟨_, hp⟩ | hj := move_eq hj
    · cases hp
    · exact absurd (hinv.current j v hj hv) hnot

theorem inv_start (req : TriggerRequest) (runId : UUID) (now : Time) : Inv (start req runId now) := by
  refine ⟨by simp [start], ?_, ?_, fun _ => ⟨rfl, by rintro j ⟨⟩⟩, ?_, ?_⟩
  · rintro i j ⟨⟩
  · rintro i ⟨⟩
  · rintro i v status ⟨⟩
  · rintro i v ⟨⟩

theorem inv_step {runId : UUID} (s : State) (a : Action) (t : State) (hinv : Inv s)
    (hok : Unclaimed s a) (h : step runId s a = some t) : Inv t := by
  cases a with
  | read i =>
    simp only [step] at h
    split at h <;> cases h
    split
    · exact inv_ended hinv
    · rename_i ho
      exact inv_opened hinv (by simpa using ho)
  | commit i now =>
    simp only [step] at h
    split at h
    · rename_i v status hd
      split at h <;> cases h
      · rename_i hm
        exact inv_prepared hinv (hinv.free_of_opened hok rfl hd hm) hm
      · exact inv_ended hinv
    · cases h
  | publish i =>
    simp only [step] at h
    split at h <;> cases h
    exact inv_published hinv (by assumption)
  | stop i =>
    cases h
    exact inv_ended hinv
  | begin tx w =>
    simp only [step] at h
    split at h <;> cases h
    exact inv_row hinv (rowLe_refl _)
  | write tx =>
    simp only [step, Option.map_eq_some_iff] at h
    obtain ⟨f, hf, rfl⟩ := h
    exact inv_row hinv (written_rowLe runId f.version f.writer s.row)
  | rollback tx =>
    simp only [step, Option.map_eq_some_iff] at h
    obtain ⟨f, hf, rfl⟩ := h
    exact inv_row hinv (rowLe_refl _)
  | cleanup now =>
    cases h
    exact inv_row hinv (cleanup_rowLe now s.row)

def AtMostOneChord (req : TriggerRequest) (runId : UUID) (now : Time)
    (ok : State → Action → Prop) : Prop :=
  ∀ s, Exec (step runId) ok (start req runId now) s → s.chords ≤ 1

theorem atMostOneChord_of_unclaimed (req : TriggerRequest) (runId : UUID) (now : Time) :
    AtMostOneChord req runId now Unclaimed := by
  intro s h
  exact (h.invariant (inv_start req runId now) inv_step).single

theorem step_publish (runId : UUID) {s : State} {i : Nat} (h : s.delivery i = .prepared) :
    step runId s (.publish i) = some ({ s with chords := s.chords + 1 }.move i .published) := by
  simp [step, h]

/-- The guard leaves out only transitions after which the pipeline can be
published a second time. -/
theorem twice_of_claimed {runId : UUID} {s t : State} {a : Action} (hok : ¬ Unclaimed s a)
    (h : step runId s a = some t) : ∃ u, Exec (step runId) free t u ∧ 1 < u.chords := by
  cases a with
  | commit i now =>
    simp only [Unclaimed, not_forall] at hok
    obtain ⟨v, hd, hm, hclaimed⟩ := hok
    simp only [step, hd, hm, if_true, Option.some.injEq] at h
    subst h
    have hi := step_publish runId (i := i)
      (s := { s with row := written runId v (.prepareRun now) s.row }.move i .prepared)
      (by simp [move_delivery])
    by_cases hz : s.chords = 0
    · obtain ⟨j, hj⟩ : ∃ j, s.delivery j = .prepared := by
        by_contra hnone
        exact hclaimed ⟨hz, fun j hj => hnone ⟨j, hj⟩⟩
      have hji : j ≠ i := by
        rintro rfl
        rw [hd] at hj
        cases hj
      refine ⟨_, ((Exec.refl _).tail trivial hi).tail trivial (step_publish runId (i := j) ?_), ?_⟩
      · simp [State.move, Function.update_of_ne hji, hj]
      · simp [State.move]
    · refine ⟨_, (Exec.refl _).tail trivial hi, ?_⟩
      have hpos : 0 < s.chords := Nat.pos_of_ne_zero hz
      simpa [State.move] using hpos
  | read _ | publish _ | stop _ | begin _ _ | write _ | rollback _ | cleanup _ =>
    exact absurd trivial hok

/-- The worker is lost right after the publication, and the message is delivered again. -/
def redelivered : List Action :=
  [.read 0, .commit 0 11, .publish 0, .stop 0, .read 1, .commit 1 12, .publish 1]

theorem redelivery_publishes_twice : ¬ AtMostOneChord raceRequest 1 10 free := by
  intro h
  exact absurd (h _ (exec_get (step 1) _ redelivered rfl)) (by decide)

end EvalEngine.SingleDispatch
