import EvalEngine.Finalize

namespace EvalEngine.FinalizeCrash

open EvalEngine.JsonValues EvalEngine.Exceptions EvalEngine.RunModel EvalEngine.SubmissionModel
open EvalEngine.Finalize

/-- The first delivery finds the run without a trace of an earlier finalization. -/
def fresh (run : EvaluationRun) (submissionStatus : SubmissionStatus) : World :=
  { run, submissionStatus }

structure Finished (w : World) : Prop where
  completed : w.run.status = .completed
  audited : ∃ entry ∈ w.audit, entry.resourceId = uuidText w.run.id
  notified : (webhookUrl w.run).isSome = true → w.webhooks ≠ []
  evaluated : w.submissionStatus = .evaluated

/-- The worker dies after `crash` steps; the redelivery gets to its end. -/
def Recovers (P : World → Prop) (crash : Nat) (stats : Stats) (llmResult : Dict) (now later : Time)
    (w : World) : Prop :=
  ∀ w₁ w₂, finalizeUntil crash stats llmResult now w = .ok w₁ →
    finalize stats llmResult later w₁ = .ok w₂ → P w₂

theorem completeRun_live (stats : Stats) (now : Time) (w : World) (hdel : w.run.deletedAt = none) :
    ∃ run, completeRun stats now w = .ok { w with run := run } ∧ run.status = .completed ∧
      run.configSnapshot = w.run.configSnapshot := by
  obtain ⟨run, ht, _, hs, _, hconfig⟩ := transitionStatus_live w.run w.run.id .completed now
    { overallScore := some stats.finalScore
      completedWorkers := some (count "completed" stats.workerStats)
      failedWorkers := some (count "failed" stats.workerStats) } hdel
  exact ⟨run, by rw [completeRun, ht]; rfl, hs, hconfig⟩

theorem sendWebhook_run (stats : Stats) (llmResult : Dict) (w : World) :
    (sendWebhook stats llmResult w).run = w.run := by
  simp only [sendWebhook]
  split <;> rfl

theorem runSteps_run (stats : Stats) (llmResult : Dict) {steps : List (World → World)}
    (hsub : ∀ f ∈ steps, f ∈ laterSteps stats llmResult) (w : World) :
    (runSteps steps w).run = w.run := by
  induction steps generalizing w with
  | nil => rfl
  | cons f steps ih =>
    have hrest : ∀ g ∈ steps, g ∈ laterSteps stats llmResult :=
      fun g hg => hsub g (List.mem_cons_of_mem _ hg)
    have hf : (f w).run = w.run := by
      have hmem := hsub f (by simp)
      simp only [laterSteps, List.mem_cons, List.not_mem_nil, or_false] at hmem
      obtain rfl | rfl | rfl | rfl := hmem
      · rfl
      · exact sendWebhook_run stats llmResult w
      · rfl
      · rfl
    exact (ih hrest (f w)).trans hf

theorem finalizeUntil_closed (crash : Nat) (stats : Stats) (llmResult : Dict) (now : Time) {w : World}
    (hc : w.run.isTerminal = true) : finalizeUntil crash stats llmResult now w = .ok w := by
  simp [finalizeUntil, hc]

/-- Once step 4 has committed, the redelivery adds nothing. -/
theorem recovers_succ {P : World → Prop} {crash : Nat} {stats : Stats} {llmResult : Dict}
    {now later : Time} {w : World} (ho : w.run.isTerminal = false) {run : EvaluationRun}
    (hrun : completeRun stats now w = .ok { w with run := run }) (hs : run.status = .completed) :
    Recovers P (crash + 1) stats llmResult now later w ↔
      P (runSteps ((laterSteps stats llmResult).take crash) { w with run := run }) := by
  have h₁ : finalizeUntil (crash + 1) stats llmResult now w =
      .ok (runSteps ((laterSteps stats llmResult).take crash) { w with run := run }) := by
    simp [finalizeUntil, ho, hrun, Except.map]
  have hclosed : (runSteps ((laterSteps stats llmResult).take crash)
      { w with run := run }).run.isTerminal = true := by
    rw [runSteps_run stats llmResult (fun f hf => List.mem_of_mem_take hf)]
    simp [EvaluationRun.isTerminal, RunStatus.isTerminal, hs]
  have h₂ := finalizeUntil_closed 5 stats llmResult later hclosed
  constructor
  · intro h
    exact h _ _ h₁ h₂
  · intro h w₁ w₂ hw₁ hw₂
    rw [h₁] at hw₁
    cases hw₁
    rw [finalize, h₂] at hw₂
    cases hw₂
    exact h

/-- Before that, the redelivery starts over. -/
theorem recovers_zero {P : World → Prop} {stats : Stats} {llmResult : Dict} {now later : Time}
    {w : World} (ho : w.run.isTerminal = false) {run : EvaluationRun}
    (hrun : completeRun stats later w = .ok { w with run := run }) :
    Recovers P 0 stats llmResult now later w ↔
      P (runSteps (laterSteps stats llmResult) { w with run := run }) := by
  have h₁ : finalizeUntil 0 stats llmResult now w = .ok w := by simp [finalizeUntil, ho]
  have h₂ : finalize stats llmResult later w =
      .ok (runSteps (laterSteps stats llmResult) { w with run := run }) := by
    simp [finalize, finalizeUntil, ho, hrun, Except.map, laterSteps]
  constructor
  · intro h
    exact h _ _ h₁ h₂
  · intro h w₁ w₂ hw₁ hw₂
    rw [h₁] at hw₁
    cases hw₁
    rw [h₂] at hw₂
    cases hw₂
    exact h

variable (stats : Stats) (llmResult : Dict)

theorem finished_all {run : EvaluationRun} (status : SubmissionStatus) (hs : run.status = .completed) :
    Finished (runSteps (laterSteps stats llmResult) (fresh run status)) := by
  refine ⟨?_, ?_, ?_, rfl⟩
  · rw [runSteps_run stats llmResult (fun f hf => hf)]
    exact hs
  · cases hu : webhookUrl run <;>
      simp [runSteps, laterSteps, logAudit, sendWebhook, updateSubmission, triggerRefresh, fresh, hu]
  · cases hu : webhookUrl run <;>
      simp [runSteps, laterSteps, logAudit, sendWebhook, updateSubmission, triggerRefresh, fresh, hu]

theorem finished_take {run : EvaluationRun} (status : SubmissionStatus)
    (hs : run.status = .completed) (done : Nat) :
    Finished (runSteps ((laterSteps stats llmResult).take done) (fresh run status)) ↔
      3 ≤ done ∨ (status = .evaluated ∧ (done = 2 ∨ (done = 1 ∧ webhookUrl run = none))) := by
  match done with
  | 0 =>
    refine iff_of_false (fun h => ?_) (by simp)
    obtain ⟨entry, hmem, _⟩ := h.audited
    exact List.not_mem_nil hmem
  | 1 =>
    constructor
    · intro h
      have hn := h.notified
      simp only [runSteps, laterSteps, List.take_succ_cons, List.take_zero, List.foldl_cons,
        List.foldl_nil, logAudit, fresh, ne_eq, not_true_eq_false, imp_false, Bool.not_eq_true,
        Option.isSome_eq_false_iff, Option.isNone_iff_eq_none] at hn
      exact .inr ⟨h.evaluated, .inr ⟨rfl, hn⟩⟩
    · rintro (h | ⟨rfl, h | ⟨_, hu⟩⟩)
      · omega
      · omega
      · refine ⟨hs, ⟨_, List.mem_singleton_self _, rfl⟩, fun hurl => ?_, rfl⟩
        change (webhookUrl run).isSome = true at hurl
        rw [hu] at hurl
        cases hurl
  | 2 =>
    constructor
    · intro h
      refine .inr ⟨?_, .inl rfl⟩
      have he := h.evaluated
      cases hu : webhookUrl run <;>
        simpa [runSteps, laterSteps, logAudit, sendWebhook, fresh, hu] using he
    · rintro (h | ⟨rfl, _⟩)
      · omega
      · cases hu : webhookUrl run with
        | none =>
          refine ⟨?_, ?_, ?_, ?_⟩ <;>
            simp [runSteps, laterSteps, logAudit, sendWebhook, fresh, hu, hs]
        | some url =>
          refine ⟨?_, ?_, ?_, ?_⟩ <;>
            simp [runSteps, laterSteps, logAudit, sendWebhook, fresh, hu, hs]
  | 3 =>
    refine iff_of_true ?_ (.inl (Nat.le_refl 3))
    have hall := finished_all stats llmResult status hs
    exact ⟨hall.completed, hall.audited, hall.notified, rfl⟩
  | done + 4 =>
    refine iff_of_true ?_ (.inl (by omega))
    rw [List.take_of_length_le (by simp [laterSteps])]
    exact finished_all stats llmResult status hs

theorem webhookUrl_congr {run run' : EvaluationRun} (h : run'.configSnapshot = run.configSnapshot) :
    webhookUrl run' = webhookUrl run := by
  simp [webhookUrl, h]

theorem refreshed_take (run : EvaluationRun) (status : SubmissionStatus) (done : Nat) :
    0 < (runSteps ((laterSteps stats llmResult).take done) (fresh run status)).refreshes ↔
      4 ≤ done := by
  match done with
  | 0 | 1 | 2 | 3 =>
    cases hu : webhookUrl run <;>
      simp [runSteps, laterSteps, logAudit, sendWebhook, updateSubmission, fresh, hu]
  | done + 4 =>
    rw [List.take_of_length_le (by simp [laterSteps])]
    cases hu : webhookUrl run <;>
      simp [runSteps, laterSteps, logAudit, sendWebhook, updateSubmission, triggerRefresh, fresh, hu]

/-- The crash points from which a redelivery restores the four effects of a
finalization: before the run is closed, behind the last of the effects, or
where those that are still to come have nothing to do. -/
def Recoverable (crash : Nat) (run : EvaluationRun) (status : SubmissionStatus) : Prop :=
  crash = 0 ∨ 4 ≤ crash ∨
    (status = .evaluated ∧ (crash = 3 ∨ (crash = 2 ∧ webhookUrl run = none)))

theorem recovers_finished_iff (crash : Nat) (stats : Stats) (llmResult : Dict) (now later : Time)
    (run : EvaluationRun) (status : SubmissionStatus) (ho : run.isTerminal = false)
    (hdel : run.deletedAt = none) :
    Recovers Finished crash stats llmResult now later (fresh run status) ↔
      Recoverable crash run status := by
  cases crash with
  | zero =>
    obtain ⟨run', hrun, hs, _⟩ := completeRun_live stats later (fresh run status) hdel
    rw [recovers_zero ho hrun]
    exact iff_of_true (finished_all stats llmResult status hs) (.inl rfl)
  | succ done =>
    obtain ⟨run', hrun, hs, hconfig⟩ := completeRun_live stats now (fresh run status) hdel
    rw [recovers_succ ho hrun hs]
    refine (finished_take stats llmResult status hs done).trans ?_
    rw [webhookUrl_congr hconfig]
    simp [Recoverable, fresh]

/-- The crash points from which the redelivery also leaves nothing else out. -/
theorem recovers_all_iff (crash : Nat) (stats : Stats) (llmResult : Dict) (now later : Time)
    (run : EvaluationRun) (status : SubmissionStatus) (ho : run.isTerminal = false)
    (hdel : run.deletedAt = none) :
    Recovers (fun w => Finished w ∧ 0 < w.refreshes) crash stats llmResult now later
      (fresh run status) ↔ crash = 0 ∨ 5 ≤ crash := by
  cases crash with
  | zero =>
    obtain ⟨run', hrun, hs, _⟩ := completeRun_live stats later (fresh run status) hdel
    rw [recovers_zero ho hrun]
    have hrefreshed := (refreshed_take stats llmResult run' status 4).2 (Nat.le_refl 4)
    exact iff_of_true ⟨finished_all stats llmResult status hs, hrefreshed⟩ (.inl rfl)
  | succ done =>
    obtain ⟨run', hrun, hs, _⟩ := completeRun_live stats now (fresh run status) hdel
    rw [recovers_succ ho hrun hs]
    have hf := finished_take stats llmResult status hs done
    have hr := refreshed_take stats llmResult run' status done
    constructor
    · rintro ⟨_, hrefreshed⟩
      exact .inr (Nat.succ_le_succ (hr.1 hrefreshed))
    · rintro (h | h)
      · cases h
      · have hdone : 4 ≤ done := Nat.le_of_succ_le_succ h
        exact ⟨hf.2 (.inl (by omega)), hr.2 hdone⟩

theorem survives_crash_iff (crash : Nat) (stats : Stats) (llmResult : Dict) (now later : Time)
    (run : EvaluationRun) (status : SubmissionStatus) (ho : run.isTerminal = false)
    (hdel : run.deletedAt = none) :
    (Recovers Finished crash stats llmResult now later (fresh run status) ↔
        Recoverable crash run status) ∧
      (Recovers (fun w => Finished w ∧ 0 < w.refreshes) crash stats llmResult now later
        (fresh run status) ↔ crash = 0 ∨ 5 ≤ crash) :=
  ⟨recovers_finished_iff crash stats llmResult now later run status ho hdel,
    recovers_all_iff crash stats llmResult now later run status ho hdel⟩

def judgedRun : EvaluationRun :=
  { id := 1, submissionId := 2, configId := none, organizationId := 3, triggeredById := none
    status := .running, version := 2, createdAt := 10, updatedAt := 11 }

def noStats : Stats := { weightedAvg := none, contradictionBuckets := [], workerStats := [] }

theorem survives_crash_iff_judgedRun :
    (Recovers Finished 4 noStats [] 12 13 (fresh judgedRun .underReview) ↔
        Recoverable 4 judgedRun .underReview) ∧
      (Recovers (fun w => Finished w ∧ 0 < w.refreshes) 4 noStats [] 12 13
        (fresh judgedRun .underReview) ↔ 4 = 0 ∨ 5 ≤ 4) :=
  survives_crash_iff 4 noStats [] 12 13 judgedRun .underReview rfl rfl

/-- The law as specified: every crash point is recovered from. -/
def SurvivesEveryCrash : Prop :=
  ∀ crash stats llmResult now later run status, run.isTerminal = false → run.deletedAt = none →
    Recovers Finished crash stats llmResult now later (fresh run status)

theorem crash_loses_audit : ¬ SurvivesEveryCrash := by
  intro h
  have hrec := h 1 noStats [] 12 13 judgedRun .underReview rfl rfl
  rw [recovers_finished_iff 1 noStats [] 12 13 judgedRun .underReview rfl rfl] at hrec
  simp [Recoverable] at hrec

end EvalEngine.FinalizeCrash
