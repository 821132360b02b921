import EvalEngine.KeptRuns

namespace EvalEngine.InheritedOwners

open EvalEngine.JsonValues EvalEngine.Exceptions EvalEngine.QueryResults EvalEngine.RunModel
open EvalEngine.ConstrainedTables EvalEngine.ServiceTables EvalEngine.AuditService
open EvalEngine.Transitions EvalEngine.StageTables EvalEngine.StageContracts
open EvalEngine.PipelineDatabase EvalEngine.TenantRows EvalEngine.KeptRuns
open EvalEngine.PipelineDispatch (SameRow written_sameRow cleanup_sameRow)
open EvalEngine.CrossCheck (Finding)
open EvalEngine.Fabrication (Risk)

/-- No run goes away or changes hands. -/
def RunsKept (runs runs' : List EvaluationRun) : Prop := ∀ run ∈ runs, ∃ run' ∈ runs', SameRow run run'

theorem sameRow_trans {a b c : EvaluationRun} (h : SameRow a b) (h' : SameRow b c) : SameRow a c where
  id := h'.id.trans h.id
  organizationId := h'.organizationId.trans h.organizationId
  submissionId := h'.submissionId.trans h.submissionId
  deletedAt := h'.deletedAt.trans h.deletedAt

theorem sameRow_lasting : Lasting SameRow where
  refl := SameRow.refl
  trans := sameRow_trans
  id := SameRow.id
  dispatched _ _ _ := ⟨rfl, rfl, rfl, rfl⟩
  cancelled _ _ := ⟨rfl, rfl, rfl, rfl⟩
  written := written_sameRow
  cleanup := cleanup_sameRow
  countCompleted _ _ := ⟨rfl, rfl, rfl, rfl⟩
  countFailed _ _ := ⟨rfl, rfl, rfl, rfl⟩

theorem RunsKept.refl (runs : List EvaluationRun) : RunsKept runs runs :=
  fun run hrun => ⟨run, hrun, SameRow.refl run⟩

theorem reassessed_refl (claim : Claim) : Reassessed claim claim := ⟨rfl, rfl, rfl, rfl, rfl, rfl, rfl⟩

/-- What a contradiction has to carry. -/
def Linked (s : State) (c : Contradiction) : Prop :=
  RunOf s c.evaluationRunId c.organizationId ∧ ClaimOf s c.claimAId c.evaluationRunId ∧
    ClaimOf s c.claimBId c.evaluationRunId

/-- What a step makes of the rows: none that is referred to goes away, and each
is an old one, up to what no step changes, or carries what it has to. -/
structure Extends (s t : State) : Prop where
  runs : RunsKept s.runs.rows t.runs.rows
  claimsKept : ∀ claim ∈ s.store.claims, ∃ claim' ∈ t.store.claims, Reassessed claim claim'
  workerResults : ∀ row ∈ t.workerResults.rows, (∃ old ∈ s.workerResults.rows,
      old.evaluationRunId = row.evaluationRunId ∧ old.organizationId = row.organizationId) ∨
    RunOf t row.evaluationRunId row.organizationId
  claims : ∀ claim ∈ t.store.claims, (∃ old ∈ s.store.claims, Reassessed old claim) ∨
    SubmittedAs t claim.evaluationRunId claim.organizationId claim.submissionId
  contradictions : ∀ c ∈ t.store.contradictions, c ∈ s.store.contradictions ∨ Linked t c
  scores : ∀ score ∈ t.store.scores, score ∈ s.store.scores ∨
    RunOf t score.evaluationRunId score.organizationId

section Extend

variable {s t : State}

theorem runOf_kept (h : RunsKept s.runs.rows t.runs.rows) {runId orgId : UUID}
    (hrun : RunOf s runId orgId) : RunOf t runId orgId := by
  obtain ⟨run, hmem, hid, horg⟩ := hrun
  obtain ⟨run', hmem', hsame⟩ := h run hmem
  exact ⟨run', hmem', hsame.id.trans hid, hsame.organizationId.trans horg⟩

theorem submittedAs_kept (h : RunsKept s.runs.rows t.runs.rows) {runId orgId submissionId : UUID}
    (hrun : SubmittedAs s runId orgId submissionId) : SubmittedAs t runId orgId submissionId := by
  obtain ⟨run, hmem, hid, horg, hsubmission⟩ := hrun
  obtain ⟨run', hmem', hsame⟩ := h run hmem
  exact ⟨run', hmem', hsame.id.trans hid, hsame.organizationId.trans horg,
    hsame.submissionId.trans hsubmission⟩

theorem claimOf_kept (h : Extends s t) {claimId runId : UUID} (hclaim : ClaimOf s claimId runId) :
    ClaimOf t claimId runId := by
  obtain ⟨claim, hmem, hid, hrun⟩ := hclaim
  obtain ⟨claim', hmem', hsame⟩ := h.claimsKept claim hmem
  exact ⟨claim', hmem', hsame.id.trans hid, hsame.evaluationRunId.trans hrun⟩

/-- The step lemma of the invariant. -/
theorem inherits_extends (h : Inherits s) (hext : Extends s t) : Inherits t := by
  refine ⟨?_, ?_, ?_, ?_⟩
  · intro row hrow
    obtain ⟨old, hold, hrun, horg⟩ | hnew := hext.workerResults row hrow
    · rw [← hrun, ← horg]
      exact runOf_kept hext.runs (h.workerResults old hold)
    · exact hnew
  · intro claim hclaim
    obtain ⟨old, hold, hsame⟩ | hnew := hext.claims claim hclaim
    · rw [hsame.evaluationRunId, hsame.organizationId, hsame.submissionId]
      exact submittedAs_kept hext.runs (h.claims old hold)
    · exact hnew
  · intro c hc
    obtain hold | hnew := hext.contradictions c hc
    · obtain ⟨hrun, ha, hb⟩ := h.contradictions c hold
      exact ⟨runOf_kept hext.runs hrun, claimOf_kept hext ha, claimOf_kept hext hb⟩
    · exact hnew
  · intro score hscore
    obtain hold | hnew := hext.scores score hscore
    · exact runOf_kept hext.runs (h.scores score hold)
    · exact hnew

theorem extends_wait {i : Nat} {p : Option Pending} (h : Extends s t) : Extends s (t.wait i p) :=
  ⟨h.runs, h.claimsKept, h.workerResults, h.claims, h.contradictions, h.scores⟩

/-- A step that writes runs alone, or tables of the services. -/
theorem extends_runs (hruns : RunsKept s.runs.rows t.runs.rows)
    (hworkers : t.workerResults = s.workerResults) (hstore : t.store = s.store) : Extends s t := by
  refine ⟨hruns, ?_, ?_, ?_, ?_, ?_⟩
  · intro claim hclaim
    exact ⟨claim, by rwa [hstore], reassessed_refl claim⟩
  · intro row hrow
    exact .inl ⟨row, by rwa [← hworkers], rfl, rfl⟩
  · intro claim hclaim
    exact .inl ⟨claim, by rwa [← hstore], reassessed_refl claim⟩
  · intro c hc
    exact .inl (by rwa [← hstore])
  · intro score hscore
    exact .inl (by rwa [← hstore])

theorem extends_write {ρ : Type} [Stored ρ] {rows : List ρ}
    (hruns : ∀ t : Table ρ, t.rows = rows → RunsKept s.runs.rows (s.put t).runs.rows) :
    Extends s (s.write rows) := by
  unfold State.write
  cases hwrite : Table.write rows with
  | none => exact extends_runs (RunsKept.refl _) rfl rfl
  | some t => exact extends_runs (hruns t (Table.write_some hwrite)) rfl rfl

/-- A step that writes worker results. -/
theorem extends_workers {workerResults : Table WorkerResultRow}
    (h : ∀ row ∈ workerResults.rows, (∃ old ∈ s.workerResults.rows,
        old.evaluationRunId = row.evaluationRunId ∧ old.organizationId = row.organizationId) ∨
      RunOf s row.evaluationRunId row.organizationId) : Extends s { s with workerResults } where
  runs := RunsKept.refl _
  claimsKept claim hclaim := ⟨claim, hclaim, reassessed_refl claim⟩
  workerResults := h
  claims claim hclaim := .inl ⟨claim, hclaim, reassessed_refl claim⟩
  contradictions _ hc := .inl hc
  scores _ hscore := .inl hscore

theorem extends_commit {α : Type} {now : Time} {r : Except PyException (Store × α)}
    (h : ∀ store a, r = .ok (store, a) → Extends s { s with store }) : Extends s (s.commit now r) := by
  cases hr : r with
  | error e => exact extends_runs (RunsKept.refl _) rfl rfl
  | ok result =>
    have hext := h result.1 result.2 hr
    exact ⟨hext.runs, hext.claimsKept, hext.workerResults, hext.claims, hext.contradictions,
      hext.scores⟩

/-- The run that a stage has read is still there. -/
def RunIn (s : State) (run : EvaluationRun) : Prop := ∃ run' ∈ s.runs.rows, SameRow run run'

theorem runOf_of_runIn {run : EvaluationRun} (h : RunIn s run) : RunOf s run.id run.organizationId := by
  obtain ⟨run', hmem, hsame⟩ := h
  exact ⟨run', hmem, hsame.id, hsame.organizationId⟩

theorem submittedAs_of_runIn {run : EvaluationRun} (h : RunIn s run) :
    SubmittedAs s run.id run.organizationId run.submissionId := by
  obtain ⟨run', hmem, hsame⟩ := h
  exact ⟨run', hmem, hsame.id, hsame.organizationId, hsame.submissionId⟩

/-- A stage that has read one run finds that one. -/
theorem eq_of_scalarOne {run run' : EvaluationRun} {runId : UUID}
    (h : scalarOne ((s.after run).runs.filter fun run => decide (run.id = runId)) = .ok run') :
    run' = run := List.mem_singleton.1 (scalarOne_filter h).1

variable {detect : String → String → Option Finding} {assess : String → String → ℚ → Risk}

theorem extends_crossCheck {run : EvaluationRun} (hrun : RunIn s run) {results : List Json}
    {store : Store} {out : Dict}
    (h : CrossCheck.crossCheck detect (s.after run) run.id results = .ok (store, out)) :
    Extends s { s with store } := by
  obtain rfl | ⟨run', hrun', _, hchecked⟩ := crossCheck_cases h
  · exact ⟨RunsKept.refl _, fun claim hclaim => ⟨claim, hclaim, reassessed_refl claim⟩,
      fun row hrow => .inl ⟨row, hrow, rfl, rfl⟩,
      fun claim hclaim => .inl ⟨claim, hclaim, reassessed_refl claim⟩, fun _ hc => .inl hc,
      fun _ hscore => .inl hscore⟩
  · obtain rfl := eq_of_scalarOne hrun'
    obtain ⟨stored, _, hclaims, hstored, added, hcontradictions, hadded⟩ := hchecked.claims
    have hclaimOf : ∀ id, (∃ claim ∈ stored, claim.id = id) → ClaimOf { s with store } id run'.id := by
      rintro id ⟨claim, hclaim, hid⟩
      refine ⟨claim, ?_, hid, (hstored claim hclaim).1⟩
      rw [hclaims]
      exact List.mem_append_right _ hclaim
    refine ⟨RunsKept.refl _, ?_, fun row hrow => .inl ⟨row, hrow, rfl, rfl⟩, ?_, ?_, ?_⟩
    · intro claim hclaim
      refine ⟨claim, ?_, reassessed_refl claim⟩
      rw [hclaims]
      exact List.mem_append_left _ hclaim
    · intro claim hclaim
      rw [hclaims] at hclaim
      obtain hold | hnew := List.mem_append.1 hclaim
      · exact .inl ⟨claim, hold, reassessed_refl claim⟩
      · obtain ⟨hid, hsubmission, horg, _⟩ := hstored claim hnew
        rw [hid, hsubmission, horg]
        exact .inr (submittedAs_of_runIn hrun)
    · intro c hc
      rw [hcontradictions] at hc
      obtain hold | hnew := List.mem_append.1 hc
      · exact .inl hold
      · obtain ⟨hid, horg, ha, hb⟩ := hadded c hnew
        refine .inr ⟨?_, ?_, ?_⟩
        · rw [hid, horg]
          exact runOf_of_runIn hrun
        · rw [hid]
          exact hclaimOf _ ha
        · rw [hid]
          exact hclaimOf _ hb
    · intro score hscore
      rw [hchecked.scores] at hscore
      exact .inl hscore

theorem extends_judge {run : EvaluationRun} (hrun : RunIn s run) {answers : LlmJudge.Answers}
    {store : Store} {out : Dict}
    (h : LlmJudge.runLlmJudge (s.after run) run.id answers = .ok (store, out)) :
    Extends s { s with store } := by
  obtain ⟨run', hrun', hjudged⟩ := runLlmJudge_ok h
  obtain rfl := eq_of_scalarOne hrun'
  obtain ⟨added, hscores, hadded⟩ := hjudged.scores
  refine ⟨RunsKept.refl _, ?_, fun row hrow => .inl ⟨row, hrow, rfl, rfl⟩, ?_, ?_, ?_⟩
  · intro claim hclaim
    refine ⟨claim, ?_, reassessed_refl claim⟩
    rw [hjudged.claims]
    exact hclaim
  · intro claim hclaim
    rw [hjudged.claims] at hclaim
    exact .inl ⟨claim, hclaim, reassessed_refl claim⟩
  · intro c hc
    rw [hjudged.contradictions] at hc
    exact .inl hc
  · intro score hscore
    rw [hscores] at hscore
    obtain hold | hnew := List.mem_append.1 hscore
    · exact .inl hold
    · obtain ⟨hid, horg⟩ := hadded score hnew
      rw [hid, horg]
      exact .inr (runOf_of_runIn hrun)

theorem extends_flag {clock : UUID → Time} {claim : Claim} {store : Store}
    (h : Fabrication.flagClaim assess clock s.store claim = .ok store) : Extends s { s with store } := by
  obtain ⟨rfl, _⟩ | ⟨_, _, hclaims, _, hcontradictions, hscores, _⟩ := flagClaim_cases h
  · exact extends_runs (RunsKept.refl _) rfl rfl
  · have hassessed : ∀ old : Claim, Reassessed old (if old.id = claim.id then
        old.assessed (Fabrication.verdict assess claim) (Fabrication.riskEvidence assess claim)
          (clock claim.id)
      else old) := by
      intro old
      split
      · exact ⟨rfl, rfl, rfl, rfl, rfl, rfl, rfl⟩
      · exact reassessed_refl old
    refine ⟨RunsKept.refl _, ?_, fun row hrow => .inl ⟨row, hrow, rfl, rfl⟩, ?_, ?_, ?_⟩
    · intro old hold
      refine ⟨_, ?_, hassessed old⟩
      rw [hclaims]
      exact List.mem_map_of_mem hold
    · intro new hnew
      rw [hclaims] at hnew
      obtain ⟨old, hold, rfl⟩ := List.mem_map.1 hnew
      exact .inl ⟨old, hold, hassessed old⟩
    · intro c hc
      rw [hcontradictions] at hc
      exact .inl hc
    · intro score hscore
      rw [hscores] at hscore
      exact .inl hscore

theorem extends_createWrite {run : EvaluationRun} (hrun : RunIn s run) {workerType : String}
    {req : BaseEvalTask.Request} {now : Time} {existing : Option WorkerResultRow}
    {workerResults : Table WorkerResultRow}
    (h : createWrite s run workerType req now existing = some workerResults) :
    Extends s { s with workerResults } := by
  apply extends_workers
  intro row hrow
  cases existing with
  | some loaded =>
    rw [Table.write_some h] at hrow
    obtain ⟨old, hold, rfl⟩ := List.mem_map.1 hrow
    refine .inl ⟨old, hold, rfl, ?_⟩
    unfold restarted BaseEvalTask.flushRow
    split <;> rfl
  | none =>
    rw [Table.write_some h] at hrow
    obtain hold | hnew := List.mem_append.1 hrow
    · exact .inl ⟨row, hold, rfl, rfl⟩
    · obtain rfl := List.mem_singleton.1 hnew
      exact .inr (runOf_of_runIn hrun)

/-- A mark changes the rows of one worker type and counts in the run. -/
theorem extends_mark {runId : UUID} {workerType : String} {f : WorkerResultRow → WorkerResultRow}
    {g : EvaluationRun → EvaluationRun}
    (hf : ∀ row, (f row).evaluationRunId = row.evaluationRunId ∧
      (f row).organizationId = row.organizationId)
    (hg : ∀ run, SameRow run (g run)) : Extends s (s.mark runId workerType f g) := by
  unfold State.mark
  split
  next workers runs hworkers hruns =>
    have hkept : RunsKept s.runs.rows runs.rows := by
      rw [Table.write_some hruns]
      exact (grown_ite (P := fun _ => False) sameRow_lasting runId hg).kept
    refine ⟨hkept, fun claim hclaim => ⟨claim, hclaim, reassessed_refl claim⟩, ?_,
      fun claim hclaim => .inl ⟨claim, hclaim, reassessed_refl claim⟩, fun _ hc => .inl hc,
      fun _ hscore => .inl hscore⟩
    intro row hrow
    have hmem : row ∈ workers.rows := hrow
    rw [Table.write_some hworkers] at hmem
    obtain ⟨old, hold, rfl⟩ := List.mem_map.1 hmem
    refine .inl ⟨old, hold, ?_⟩
    split
    · exact ⟨(hf old).1.symm, (hf old).2.symm⟩
    · exact ⟨rfl, rfl⟩
  next => exact extends_runs (RunsKept.refl _) rfl rfl

end Extend

/-- What an execution that is under way may rely on. -/
def Known (s : State) : Pending → Prop
  | .started run | .creating run _ _ => RunIn s run
  | .flagging _ => True

theorem known_kept {s t : State} (h : RunsKept s.runs.rows t.runs.rows) {p : Pending}
    (hknown : Known s p) : Known t p := by
  have hrun : ∀ run, RunIn s run → RunIn t run := by
    rintro run ⟨run', hmem, hsame⟩
    obtain ⟨run'', hmem', hsame'⟩ := h run' hmem
    exact ⟨run'', hmem', sameRow_trans hsame hsame'⟩
  cases p with
  | started run => exact hrun run hknown
  | creating run workerType existing => exact hrun run hknown
  | flagging claims => trivial

/-- The invariant of the database and of the executions. -/
structure Inv (s : State) : Prop where
  inherits : Inherits s
  known : ∀ i p, s.pending i = some p → Known s p

section Steps

variable {detect : String → String → Option Finding} {assess : String → String → ℚ → Risk}
  {s t : State}

theorem runIn_of_scalarOne {runId : UUID} {run : EvaluationRun}
    (h : scalarOne (s.runs.rows.filter fun run => decide (run.id = runId)) = .ok run) : RunIn s run :=
  ⟨run, (scalarOne_filter h).1, SameRow.refl run⟩

theorem step_extends (hinv : Inv s) {a : Action} (h : step detect assess s a = some t) :
    Extends s t := by
  cases a with
  | request ctx request uuid4 op =>
    cases h
    exact extends_runs (grown_serve sameRow_lasting ctx request uuid4 op s.db).kept rfl rfl
  | writeRun runId version w =>
    cases h
    apply extends_write
    intro t ht
    have hput : (s.put t).runs.rows = t.rows := rfl
    rw [hput, ht]
    exact (grown_ite (P := fun _ => False) sameRow_lasting runId (written_sameRow runId version w)).kept
  | cleanup now =>
    cases h
    apply extends_write
    intro t ht
    have hput : (s.put t).runs.rows = t.rows := rfl
    rw [hput, ht]
    exact fun run hrun => ⟨_, List.mem_map_of_mem hrun, cleanup_sameRow now run⟩
  | updateSubmission submissionId now =>
    cases h
    apply extends_write
    intro t _
    exact RunsKept.refl _
  | createRead i runId workerType =>
    simp only [step] at h
    split at h <;> cases h
    exact extends_wait (extends_runs (RunsKept.refl _) rfl rfl)
  | createWrite i req now =>
    simp only [step] at h
    split at h
    next run workerType existing hi =>
      split at h <;> cases h
      next hwrite => exact extends_wait (extends_createWrite (hinv.known i _ hi) hwrite)
      next => exact extends_wait (extends_runs (RunsKept.refl _) rfl rfl)
    next => cases h
  | markCompleted runId workerType output elapsed now =>
    cases h
    exact extends_mark (fun _ => ⟨rfl, rfl⟩) fun _ => ⟨rfl, rfl, rfl, rfl⟩
  | markFailed runId workerType error now =>
    cases h
    exact extends_mark (fun _ => ⟨rfl, rfl⟩) fun _ => ⟨rfl, rfl, rfl, rfl⟩
  | readRun i runId =>
    simp only [step] at h
    split at h <;> cases h
    exact extends_wait (extends_runs (RunsKept.refl _) rfl rfl)
  | crossCheck i parallelResults now =>
    simp only [step] at h
    split at h <;> cases h
    next hi => exact extends_wait (extends_commit fun _ _ hr => extends_crossCheck (hinv.known i _ hi) hr)
  | judge i answers now =>
    simp only [step] at h
    split at h <;> cases h
    next hi => exact extends_wait (extends_commit fun _ _ hr => extends_judge (hinv.known i _ hi) hr)
  | readClaims i runId =>
    cases h
    exact extends_wait (extends_runs (RunsKept.refl _) rfl rfl)
  | flag i now =>
    simp only [step] at h
    split at h <;> cases h
    apply extends_wait
    apply extends_commit
    intro store a hr
    obtain ⟨store', hflag, hpair⟩ := map_eq_ok.1 hr
    cases hpair
    exact extends_flag hflag
  | stop i =>
    cases h
    exact extends_wait (extends_runs (RunsKept.refl _) rfl rfl)

theorem write_pending {ρ : Type} [Stored ρ] (rows : List ρ) : (s.write rows).pending = s.pending := by
  unfold State.write
  split <;> rfl

theorem mark_pending {runId : UUID} {workerType : String} {f : WorkerResultRow → WorkerResultRow}
    {g : EvaluationRun → EvaluationRun} : (s.mark runId workerType f g).pending = s.pending := by
  unfold State.mark
  split <;> rfl

theorem commit_pending {α : Type} {now : Time} (r : Except PyException (Store × α)) :
    (s.commit now r).pending = s.pending := by
  unfold State.commit
  split <;> rfl

/-- An execution keeps what it holds, or holds what it has just read. -/
theorem step_pending {a : Action} (h : step detect assess s a = some t) {j : Nat} {q : Pending}
    (hq : t.pending j = some q) : s.pending j = some q ∨ Known s q := by
  cases a with
  | request ctx request uuid4 op =>
    cases h
    exact .inl hq
  | writeRun runId version w =>
    cases h
    rw [write_pending] at hq
    exact .inl hq
  | cleanup now =>
    cases h
    rw [write_pending] at hq
    exact .inl hq
  | updateSubmission submissionId now =>
    cases h
    rw [write_pending] at hq
    exact .inl hq
  | createRead i runId workerType =>
    simp only [step] at h
    split at h <;> cases h
    next hrun _ =>
      obtain ⟨_, hnew⟩ | hold := entry_update hq
      · cases hnew
        exact .inr (runIn_of_scalarOne hrun)
      · exact .inl hold
  | createWrite i req now =>
    simp only [step] at h
    split at h
    · split at h <;> cases h
      · obtain ⟨_, hnew⟩ | hold := entry_update hq
        · cases hnew
        · exact .inl hold
      · obtain ⟨_, hnew⟩ | hold := entry_update hq
        · cases hnew
        · exact .inl hold
    · cases h
  | markCompleted runId workerType output elapsed now =>
    cases h
    rw [mark_pending] at hq
    exact .inl hq
  | markFailed runId workerType error now =>
    cases h
    rw [mark_pending] at hq
    exact .inl hq
  | readRun i runId =>
    simp only [step] at h
    split at h <;> cases h
    next hrun =>
      obtain ⟨_, hnew⟩ | hold := entry_update hq
      · cases hnew
        exact .inr (runIn_of_scalarOne hrun)
      · exact .inl hold
  | crossCheck i parallelResults now =>
    simp only [step] at h
    split at h <;> cases h
    obtain ⟨_, hnew⟩ | hold := entry_update hq
    · cases hnew
    · rw [commit_pending] at hold
      exact .inl hold
  | judge i answers now =>
    simp only [step] at h
    split at h <;> cases h
    obtain ⟨_, hnew⟩ | hold := entry_update hq
    · cases hnew
    · rw [commit_pending] at hold
      exact .inl hold
  | readClaims i runId =>
    cases h
    obtain ⟨_, hnew⟩ | hold := entry_update hq
    · cases hnew
      exact .inr trivial
    · exact .inl hold
  | flag i now =>
    simp only [step] at h
    split at h <;> cases h
    obtain ⟨_, hnew⟩ | hold := entry_update hq
    · obtain ⟨_, _, rfl⟩ := Option.map_eq_some_iff.1 hnew
      exact .inr trivial
    · rw [commit_pending] at hold
      exact .inl hold
  | stop i =>
    cases h
    obtain ⟨_, hnew⟩ | hold := entry_update hq
    · cases hnew
    · exact .inl hold

theorem inv_step {a : Action} (hinv : Inv s) (h : step detect assess s a = some t) : Inv t := by
  have hext := step_extends hinv h
  refine ⟨inherits_extends hinv.inherits hext, fun j q hq => ?_⟩
  obtain hold | hnew := step_pending h hq
  · exact known_kept hext.runs (hinv.known j q hold)
  · exact known_kept hext.runs hnew

theorem inv_start (db : Database) : Inv (start db) := by
  refine ⟨⟨?_, ?_, ?_, ?_⟩, ?_⟩
  · rintro row ⟨⟩
  · rintro claim ⟨⟩
  · rintro c ⟨⟩
  · rintro score ⟨⟩
  · rintro i p ⟨⟩

theorem inv_run {ok : State → Action → Prop} {db : Database}
    (h : Exec (step detect assess) ok (start db) s) : Inv s :=
  h.invariant (inv_start db) fun _ _ _ hinv _ hstep => inv_step hinv hstep

end Steps

end EvalEngine.InheritedOwners
