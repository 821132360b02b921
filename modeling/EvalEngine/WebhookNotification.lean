import EvalEngine.FinalizeCrash
import EvalEngine.KeptRuns

namespace EvalEngine.WebhookNotification

open EvalEngine.JsonValues EvalEngine.Exceptions EvalEngine.RunModel EvalEngine.ConstrainedTables
open EvalEngine.ServiceTables EvalEngine.ServiceContracts EvalEngine.SubmissionService
open EvalEngine.TriggerEvaluation EvalEngine.ServiceRequests EvalEngine.KeptRuns
open EvalEngine.Transitions EvalEngine.PipelineDatabase
open EvalEngine.StageContracts (map_eq_ok)
open EvalEngine.PipelineDispatch (written_related)
open EvalEngine.RunWriters (cleanupStaleRuns)
open EvalEngine.Finalize EvalEngine.FinalizeCrash
open EvalEngine.CrossCheck (Finding)
open EvalEngine.Fabrication (Risk)

/-- Two versions of a run with one snapshot of its configuration. -/
structure SameSnapshot (run run' : EvaluationRun) : Prop where
  id : run'.id = run.id
  configSnapshot : run'.configSnapshot = run.configSnapshot

theorem SameSnapshot.refl (run : EvaluationRun) : SameSnapshot run run := ⟨rfl, rfl⟩

theorem cleanup_sameSnapshot (now : Time) (run : EvaluationRun) :
    SameSnapshot run (cleanupStaleRuns now run) := by
  unfold cleanupStaleRuns
  split <;> exact ⟨rfl, rfl⟩

theorem sameSnapshot_lasting : Lasting SameSnapshot where
  refl := SameSnapshot.refl
  trans h h' := ⟨h'.id.trans h.id, h'.configSnapshot.trans h.configSnapshot⟩
  id := SameSnapshot.id
  dispatched _ _ _ := ⟨rfl, rfl⟩
  cancelled _ _ := ⟨rfl, rfl⟩
  written := written_related SameSnapshot.refl (fun _ _ _ _ => ⟨rfl, rfl⟩) fun _ _ => ⟨rfl, rfl⟩
  cleanup := cleanup_sameSnapshot
  countCompleted _ _ := ⟨rfl, rfl⟩
  countFailed _ _ := ⟨rfl, rfl⟩

variable (detect : String → String → Option Finding) (assess : String → String → ℚ → Risk)

/-- One trigger request with the configuration `config` takes `s` to `t` and
adds the run. -/
def Triggered (s t : State) (config : EvaluationConfig) (run : EvaluationRun) : Prop :=
  ∃ ctx request uuid4 submissionId orgId userId configId runMetadata,
    scopedRow EvaluationConfig configId orgId s.db.tables = some config ∧
    step detect assess s (.request ctx request uuid4
      (.triggerEvaluation submissionId orgId userId (some configId) runMetadata)) = some t ∧
    run ∈ t.runs.rows ∧ ∀ old ∈ s.runs.rows, old.id ≠ run.id

variable {detect assess} {s t u : State} {config : EvaluationConfig} {started run : EvaluationRun}

/-- What a trigger copies is the pipeline configuration alone. -/
theorem triggered_snapshot (h : Triggered detect assess s t config started) :
    started.configSnapshot = config.pipelineConfig := by
  obtain ⟨ctx, request, uuid4, submissionId, orgId, userId, configId, runMetadata, hconfig, hstep,
    hmem, hnew⟩ := h
  cases (grown_step sameSnapshot_lasting hstep).origin started hmem with
  | inl hold =>
    obtain ⟨old, hold, hsame⟩ := hold
    exact absurd hsame.id.symm (hnew old hold)
  | inr hstarted =>
    obtain ⟨_, _, _, _, haction, _, _, _, _, _, _, hop, _, hsame⟩ := hstarted
    cases haction
    cases hop
    rw [hsame.configSnapshot]
    simp [newRun, snapshotOf, hconfig]

/-- The row of the run, however much later, has the snapshot of the trigger. -/
theorem snapshot_kept (h : Triggered detect assess s t config started)
    (hexec : Exec (step detect assess) free t u) (hrow : run ∈ u.runs.rows)
    (hid : run.id = started.id) : run.configSnapshot = config.pipelineConfig := by
  have hstarted : started ∈ t.runs.rows := by
    obtain ⟨_, _, _, _, _, _, _, _, _, _, hmem, _⟩ := h
    exact hmem
  obtain ⟨run', hrow', hsame⟩ := kept_exec sameSnapshot_lasting hexec started hstarted
  have heq : run = run' := u.runs.eq_of_key hrow hrow' (hid.trans hsame.id.symm)
  rw [heq, hsame.configSnapshot]
  exact triggered_snapshot h

variable {stats : Stats} {llmResult : Dict} {now : Time} {w w' : World}

theorem completeRun_ok {w₁ : World} (h : completeRun stats now w = .ok w₁) :
    ∃ run, w₁ = { w with run := run } ∧ run.status = .completed ∧
      run.configSnapshot = w.run.configSnapshot := by
  cases hdel : w.run.deletedAt with
  | none =>
    obtain ⟨run, hrun, hstatus, hsnapshot⟩ := completeRun_live stats now w hdel
    rw [hrun] at h
    exact ⟨run, (Except.ok.inj h).symm, hstatus, hsnapshot⟩
  | some time =>
    obtain ⟨e, he⟩ := transitionStatus_deleted w.run w.run.id .completed now
      { overallScore := some stats.finalScore
        completedWorkers := some (count "completed" stats.workerStats)
        failedWorkers := some (count "failed" stats.workerStats) } (by simp [hdel])
    rw [completeRun, he] at h
    cases h

/-- A finalizer that closes the run calls what the snapshot of the run names. -/
theorem finalize_webhooks (hopen : w.run.isTerminal = false)
    (hfin : finalize stats llmResult now w = .ok w') :
    w'.run.status = .completed ∧
      w'.webhooks.map WebhookCall.url =
        w.webhooks.map WebhookCall.url ++ (webhookUrl w.run).toList := by
  have hsteps : ∃ w₁, completeRun stats now w = .ok w₁ ∧
      runSteps (laterSteps stats llmResult) w₁ = w' := by
    simpa [finalize, finalizeUntil, hopen, laterSteps, map_eq_ok] using hfin
  obtain ⟨w₁, hw₁, rfl⟩ := hsteps
  obtain ⟨run, rfl, hstatus, hsnapshot⟩ := completeRun_ok hw₁
  constructor
  · rw [runSteps_run stats llmResult fun f hf => hf]
    exact hstatus
  · rw [← webhookUrl_congr hsnapshot]
    cases hurl : webhookUrl run with
    | none =>
      simp [runSteps, laterSteps, logAudit, sendWebhook, Finalize.updateSubmission,
        triggerRefresh, hurl]
    | some url =>
      simp [runSteps, laterSteps, logAudit, sendWebhook, Finalize.updateSubmission,
        triggerRefresh, hurl]

/-- The finalizer has added exactly one call, and it is for this URL. -/
def NotifiedOnce (url : String) (w w' : World) : Prop :=
  w'.webhooks.map WebhookCall.url = w.webhooks.map WebhookCall.url ++ [.str url]

/-- Whoever finalizes the run, and whatever has happened since it was triggered:
the registered URL is called exactly if the pipeline configuration repeats it. -/
theorem webhook_notification (htriggered : Triggered detect assess s t config started)
    (hexec : Exec (step detect assess) free t u) (hrow : w.run ∈ u.runs.rows)
    (hid : w.run.id = started.id) (hopen : w.run.isTerminal = false)
    (hfin : finalize stats llmResult now w = .ok w') :
    ∀ url, config.webhookUrl = some url → url ≠ "" →
      (NotifiedOnce url w w' ↔ find "webhook_url" config.pipelineConfig = some (.str url)) := by
  intro url _ hne
  have hcalls := (finalize_webhooks hopen hfin).2
  have hsnapshot := snapshot_kept htriggered hexec hrow hid
  have htruthy : (Json.str url).truthy = true := by simp [Json.truthy, hne]
  rw [NotifiedOnce, hcalls, List.append_cancel_left_eq, webhookUrl, hsnapshot]
  cases hfind : find "webhook_url" config.pipelineConfig with
  | none => simp
  | some found =>
    by_cases hfound : found = .str url
    · simp [Option.filter, hfound, htruthy]
    · cases hf : found.truthy <;> simp [Option.filter, hf, hfound]

section Sample

def screening (pipelineConfig : Dict) : EvaluationService.EvaluationConfigCreate where
  name := "Screening"
  pipelineConfig := some pipelineConfig
  webhookUrl := some "https://startup.io/hook"

/-- A registered user has handed in a submission and stored a configuration. -/
def configured (pipelineConfig : Dict) : State :=
  start (serve sampleContext {} 3 (.createEvaluationConfig 1 1 (screening pipelineConfig))
    (serve sampleContext {} 2
      (.createSubmission 1 1 { startupName := "Startup One" }) registered).2).2

def found : String → String → Option Finding := fun _ _ => none

def harmless : String → String → ℚ → Risk := fun _ _ _ => ⟨0, []⟩

def triggered (pipelineConfig : Dict) : State :=
  (step found harmless (configured pipelineConfig)
    (.request sampleContext {} 4 (.triggerEvaluation 1 1 1 (some 1) none))).get rfl

def startedRun (pipelineConfig : Dict) : EvaluationRun :=
  dispatched 0 (uuidText 1) (newRun 0 1 1 1 1 (some 1) pipelineConfig none)

def finalized (pipelineConfig : Dict) : World :=
  match finalize noStats [] 5 (FinalizeCrash.fresh (startedRun pipelineConfig) .underReview) with
  | .ok w => w
  | .error _ => FinalizeCrash.fresh (startedRun pipelineConfig) .underReview

def repeated : Dict := [("webhook_url", .str "https://startup.io/hook")]

theorem webhook_notification_repeated :
    ∃ w', finalize noStats [] 5 (FinalizeCrash.fresh (startedRun repeated) .underReview) = .ok w' ∧
      ∀ url, (EvaluationService.newConfig 1 1 1 (screening repeated)).webhookUrl = some url →
        url ≠ "" →
        (NotifiedOnce url (FinalizeCrash.fresh (startedRun repeated) .underReview) w' ↔
          find "webhook_url" (EvaluationService.newConfig 1 1 1 (screening repeated)).pipelineConfig =
            some (.str url)) := by
  have htriggered : Triggered found harmless (configured repeated) (triggered repeated)
      (EvaluationService.newConfig 1 1 1 (screening repeated)) (startedRun repeated) :=
    ⟨sampleContext, {}, 4, 1, 1, 1, 1, none, rfl, (Option.some_get _).symm, List.mem_singleton_self _,
      fun _ hold => absurd hold List.not_mem_nil⟩
  exact ⟨finalized repeated, rfl, webhook_notification htriggered (.refl _)
    (List.mem_singleton_self _) rfl rfl rfl⟩

/-- A registered URL that the pipeline configuration does not repeat is not called. -/
theorem webhook_notification_lost :
    ¬ ∀ (detect : String → String → Option Finding) (assess : String → String → ℚ → Risk)
      (s t u : State) (config : EvaluationConfig) (started : EvaluationRun) (stats : Stats)
      (llmResult : Dict) (now : Time) (w w' : World),
      Triggered detect assess s t config started → Exec (step detect assess) free t u →
      w.run ∈ u.runs.rows → w.run.id = started.id → w.run.isTerminal = false →
      finalize stats llmResult now w = .ok w' →
      ∀ url, config.webhookUrl = some url → url ≠ "" → NotifiedOnce url w w' := by
  intro h
  have htriggered : Triggered found harmless (configured []) (triggered [])
      (EvaluationService.newConfig 1 1 1 (screening [])) (startedRun []) :=
    ⟨sampleContext, {}, 4, 1, 1, 1, 1, none, rfl, (Option.some_get _).symm, List.mem_singleton_self _,
      fun _ hold => absurd hold List.not_mem_nil⟩
  have honce := h found harmless (configured []) (triggered []) (triggered [])
    (EvaluationService.newConfig 1 1 1 (screening [])) (startedRun []) noStats [] 5
    (FinalizeCrash.fresh (startedRun []) .underReview) (finalized []) htriggered (.refl _)
    (List.mem_singleton_self _) rfl rfl rfl "https://startup.io/hook" rfl (by decide)
  cases honce

end Sample

end EvalEngine.WebhookNotification
