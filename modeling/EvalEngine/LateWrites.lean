import EvalEngine.LateStages

namespace EvalEngine.LateWrites

open EvalEngine.JsonValues EvalEngine.Exceptions EvalEngine.RunModel EvalEngine.Transitions
open EvalEngine.KeyedRows EvalEngine.StageTables EvalEngine.StageContracts
open EvalEngine.TaskObjects (Analysis)
open EvalEngine.PipelineDispatch (written SameRow written_sameRow)
open EvalEngine.WorkerCounters (Tally tally total marks)
open EvalEngine.CrossCheck (Finding crossCheck)
open EvalEngine.Fabrication (Risk riskOf flagged verdict riskEvidence flagClaim inRun)
open EvalEngine.LlmJudge (Answers runLlmJudge dimensionWeights)
open EvalEngine.LateStages

variable {detect : String → String → Option Finding} {assess : String → String → ℚ → Risk} {s t : State}

/-- Who takes a step: an invocation of an analysis, or an execution of a stage. -/
inductive Party
  | attempt (a : Analysis) (i : Nat)
  | stage (i : Nat)

def party : Action → Option Party
  | .worker (.attempt a act) => some (.attempt a (invocation act))
  | .worker _ => none
  | .start i _ | .crossCheck i | .flag i _ | .judge i _ | .countWorkers i | .reread i | .finalize i _ _
  | .stop i => some (.stage i)

/-- The party writes late, in steps of its own. -/
def WritesLate (detect : String → String → Option Finding) (assess : String → String → ℚ → Risk)
    (p : Option Party) (s : State) : Prop :=
  ∃ t a u, Exec (step detect assess) (fun _ b => party b = p) s t ∧ party a = p ∧
    step detect assess t a = some u ∧ isLate t a = true ∧ ¬ SameRecords t u

theorem writesLate_step {p : Option Party} {a : Action} (ha : party a = p)
    (h : step detect assess s a = some t) (hlate : WritesLate detect assess p t) :
    WritesLate detect assess p s := by
  obtain ⟨u, b, v, hexec, hb, hstep, hlate, hwrites⟩ := hlate
  have hfirst : Exec (step detect assess) (fun _ b => party b = p) s t := Exec.single ha h
  exact ⟨u, b, v, hfirst.trans hexec, hb, hstep, hlate, hwrites⟩

theorem writesLate_now {p : Option Party} {a : Action} (ha : party a = p)
    (h : step detect assess s a = some t) (hlate : isLate s a = true) (hwrites : ¬ SameRecords s t) :
    WritesLate detect assess p s := ⟨s, a, t, Exec.refl s, ha, h, hlate, hwrites⟩

theorem attempt_step {a : Analysis} {act : BaseEvalTask.Action} {task : BaseEvalTask.State}
    (hpublished : s.workers.published = true)
    (h : BaseEvalTask.step (s.workers.view a) act = some task) :
    step detect assess s (.worker (.attempt a act)) = some (State.note { s with
      workers := s.workers.advance a act task
      late := lateAfter s (.attempt a act) }) := by
  simp only [step, move, ofFinalizer, Bool.false_eq_true, if_false, WorkerCounters.step, hpublished,
    if_true, h, Option.map_some]

/-- A late invocation can always fail, and counts as failed. -/
theorem attempt_writes {a : Analysis} {i : Nat} (hpublished : s.workers.published = true)
    (hphase : (s.workers.task a).phase i = .started) (hlate : s.late a i = true) :
    WritesLate detect assess (some (.attempt a i)) s := by
  have hfault : BaseEvalTask.step (s.workers.view a) (.fault i "fault") =
      some ((s.workers.view a).goto i (.failing "fault")) := by
    simp only [BaseEvalTask.step]
    rw [if_pos]
    change (((s.workers.task a).phase i).inTry) = true
    rw [hphase]
    rfl
  refine writesLate_step rfl (attempt_step hpublished hfault) ?_
  generalize ht : State.note { s with
    workers := s.workers.advance a (.fault i "fault") ((s.workers.view a).goto i (.failing "fault"))
    late := lateAfter s (.attempt a (.fault i "fault")) } = t
  have hphase' : (t.workers.view a).phase i = .failing "fault" := by
    subst ht
    simp [State.note, WorkerCounters.State.advance, WorkerCounters.State.view, BaseEvalTask.State.goto]
  have hmark : BaseEvalTask.step (t.workers.view a) (.markFailed i) =
      some ((BaseEvalTask.markFailed (t.workers.view a) "fault").goto i .raised) := by
    simp only [BaseEvalTask.step, hphase']
  have hpublished' : t.workers.published = true := by
    subst ht
    exact hpublished
  refine writesLate_now rfl (attempt_step hpublished' hmark) ?_ ?_
  · subst ht
    exact hlate
  · intro hsame
    exact absurd hsame.failedWorkers (Nat.succ_ne_self _)

theorem crossCheck_writes {i : Nat} {results : List Json}
    (hi : s.execution i = some ⟨true, .crossChecking results⟩) (h : Storable detect s.run results) :
    WritesLate detect assess (some (.stage i)) s := by
  obtain ⟨t, hstep, hwrites⟩ : ∃ t, step detect assess s (.crossCheck i) = some t ∧
      ¬ SameRecords s t := crossCheck_records hi h
  apply writesLate_now rfl hstep ?_ hwrites
  simp only [isLate, hi, Option.any_some]

theorem scored_filter (db : Store) (runId : UUID) (dimension : String) :
    db.scored runId dimension = (db.scores.filter fun score =>
      decide (score.evaluationRunId = runId)).any fun score =>
        decide (score.dimension = dimension) && score.deletedAt.isNone := by
  simp only [Store.scored, List.any_filter, Bool.and_assoc]

/-- The rows of the claims that an execution has read belong to the run. -/
def Own (s : State) (claims : List Claim) : Prop :=
  ∀ c ∈ claims, ∀ row ∈ s.store.claims, row.id = c.id → row.evaluationRunId = s.run.id

theorem settled_of_covered {rows rows' claims : List Claim}
    (h : ∀ row ∈ rows, ∃ row' ∈ rows', row'.id = row.id ∧
      row'.verificationStatus = row.verificationStatus)
    (hsettled : Settled assess rows' claims) : Settled assess rows claims := by
  induction claims with
  | nil => trivial
  | cons c claims ih =>
    simp only [Settled] at hsettled ⊢
    split at hsettled
    next hflagged =>
      rw [if_pos hflagged]
      intro hstorable
      obtain ⟨hset, hrest⟩ := hsettled hstorable
      refine ⟨fun row hrow hid => ?_, ih hrest⟩
      obtain ⟨row', hrow', hid', hstatus⟩ := h row hrow
      exact hstatus.symm.trans (hset row' hrow' (hid'.trans hid))
    next hnot =>
      rw [if_neg hnot]
      exact ih hsettled

theorem flag_writes {i : Nat} {claims : List Claim}
    (hi : s.execution i = some ⟨true, .flagging claims⟩) (hown : Own s claims)
    (h : ¬ Settled assess s.store.claims claims) :
    WritesLate detect assess (some (.stage i)) s := by
  induction claims generalizing s with
  | nil => exact absurd trivial h
  | cons c claims ih =>
    have hstep : ∀ db, flagClaim assess (fun _ => 0) s.store c = .ok db →
        step detect assess s (.flag i 0) =
        some ((s.store? (.ok db)).goto i (some ⟨true, .flagging claims⟩)).note := by
      intro db hr
      simp only [step, move, hi, hr]
      rfl
    by_cases hflagged : flagged assess c = true
    · simp only [Settled, if_pos hflagged, Classical.not_imp, not_and_or] at h
      obtain ⟨hstorable, h⟩ := h
      have hr : flagClaim assess (fun _ => 0) s.store c = .ok _ := (if_pos hflagged).trans (if_pos hstorable)
      by_cases hset : ∀ row ∈ s.store.claims, row.id = c.id → row.verificationStatus = verdict assess c
      · -- this verdict is set; one of the later ones is not
        have hrest := h.resolve_left (not_not_intro hset)
        apply writesLate_step rfl (hstep _ hr)
        apply ih
        · simp [State.note, State.goto, State.store?]
        · intro c' hc' row' hrow' hid
          obtain ⟨row, hrow, rfl⟩ := List.mem_map.1 hrow'
          have hrun := hown c' (by simp [hc']) row hrow
          split at hid
          next hrowId => rw [if_pos hrowId]; exact hrun hid
          next hrowId => rw [if_neg hrowId]; exact hrun hid
        · intro hsettled
          apply hrest
          refine settled_of_covered (fun row hrow => ⟨_, List.mem_map_of_mem hrow, ?_⟩) hsettled
          split
          next hid => exact ⟨rfl, (hset row hrow hid).symm⟩
          next => exact ⟨rfl, rfl⟩
      · apply writesLate_now rfl (hstep _ hr)
        · simp only [isLate, hi, Option.any_some]
        · intro hsame
          apply hset
          intro row hrow hid
          have hstatuses : statuses s.run.id (update Claim.id c.id _ s.store.claims) =
              statuses s.run.id s.store.claims := hsame.claims
          rw [statuses_update, statuses, List.map_inj_left] at hstatuses
          have hown' := hown c (by simp) row hrow hid
          have hpair := hstatuses row (List.mem_filter.2 ⟨hrow, decide_eq_true hown'⟩)
          rw [if_pos hid, Prod.mk.injEq] at hpair
          exact hpair.2.symm
    · simp only [Settled, if_neg hflagged] at h
      have hr : flagClaim assess (fun _ => 0) s.store c = .ok s.store := if_neg hflagged
      apply writesLate_step rfl (hstep _ hr)
      apply ih
      · simp [State.note, State.goto, State.store?]
      · exact fun c' hc' => hown c' (by simp [hc'])
      · exact h

/-- A score that passes the checks of its columns. -/
def Fits (score : Score) : Bool :=
  decide (0 ≤ score.value ∧ score.value ≤ 1) && decide (0 ≤ score.weight ∧ score.weight ≤ 1) &&
    score.storable

theorem insertScore_exists {db : Store} {score : Score} (hfits : Fits score = true)
    (hfree : db.scored score.evaluationRunId score.dimension = false) :
    ∃ db', db.insertScore score = .ok db' := by
  simp only [Fits, Bool.and_eq_true, decide_eq_true_eq] at hfits
  obtain ⟨⟨⟨hlow, hhigh⟩, hweightLow, hweightHigh⟩, hstorable⟩ := hfits
  have hvalue : ¬ (score.value < 0 ∨ 1 < score.value) := by
    simp only [not_or, not_lt]
    exact ⟨hlow, hhigh⟩
  have hweight : ¬ (score.weight < 0 ∨ 1 < score.weight) := by
    simp only [not_or, not_lt]
    exact ⟨hweightLow, hweightHigh⟩
  simp only [Store.insertScore, if_neg hvalue, if_neg hweight, hfree, hstorable]
  exact ⟨_, rfl⟩

theorem storeScores_exists {runId : UUID} {run : EvaluationRun} {scores : Dict}
    {usage : LlmJudge.TokenUsage} {model : String} {dimensions : List (String × ℚ)} {db : Store}
    (hnodup : (dimensions.map Prod.fst).Nodup)
    (hfree : ∀ dimension ∈ dimensions, db.scored runId dimension.1 = false)
    (hfits : ∀ dimension ∈ dimensions, ∃ score,
      LlmJudge.newScore runId run scores usage model dimension = .ok score ∧ Fits score = true) :
    ∃ db', LlmJudge.storeScores runId run scores usage model db dimensions = .ok db' := by
  induction dimensions generalizing db with
  | nil => exact ⟨db, rfl⟩
  | cons d dimensions ih =>
    obtain ⟨hd, hrest⟩ := List.nodup_cons.1 hnodup
    obtain ⟨score, hscore, hscoreFits⟩ := hfits d (by simp)
    obtain ⟨hrun, hname, _⟩ := StageRedelivery.newScore_fields hscore
    obtain ⟨db₁, hinsert⟩ := insertScore_exists hscoreFits (by rw [hrun, hname]; exact hfree d (by simp))
    obtain ⟨_, hscores₁, _⟩ := insertScore_ok hinsert
    have hfree₁ : ∀ dimension ∈ dimensions, db₁.scored runId dimension.1 = false := by
      intro dimension hdimension
      have hold := hfree dimension (by simp [hdimension])
      have hne : score.dimension ≠ dimension.1 := by
        intro heq
        exact hd (hname ▸ heq ▸ List.mem_map_of_mem hdimension)
      simp only [Store.scored, hscores₁, List.any_append, Bool.or_eq_false_iff] at hold ⊢
      exact ⟨hold, by simp [hne]⟩
    obtain ⟨db', hdb'⟩ := ih hrest hfree₁ fun dimension hdimension => hfits dimension (by simp [hdimension])
    refine ⟨db', ?_⟩
    simp only [LlmJudge.storeScores, bind_eq_ok]
    exact ⟨score, hscore, db₁, hinsert, hdb'⟩

theorem newScore_owned (runId : UUID) (run : EvaluationRun) (scores : Dict)
    (usage : LlmJudge.TokenUsage) (model : String) (dimension : String × ℚ) :
    LlmJudge.newScore runId run scores usage model dimension =
      (LlmJudge.newScore 0 StageRedelivery.scoredRun scores usage model dimension).map fun score =>
        { score with evaluationRunId := runId, organizationId := run.organizationId } := by
  simp only [LlmJudge.newScore, bind, Except.bind]
  split
  · rfl
  · split
    · rfl
    · split <;> rfl

/-- The response that stands in for the models can be stored. -/
theorem simulated_fits :
    let judged := LlmJudge.judge StageRedelivery.simulatedAnswers
    ((LlmJudge.asDict ((find "scores" judged.1).getD .null)).toOption.any fun scores =>
      dimensionWeights.all fun dimension => (LlmJudge.newScore 0 StageRedelivery.scoredRun scores
        judged.2.1 judged.2.2 dimension).toOption.any Fits) = true := by
  decide +kernel

theorem toOption_any {ε α : Type} {x : Except ε α} {p : α → Bool} (h : x.toOption.any p = true) :
    ∃ a, x = .ok a ∧ p a = true := by
  cases x with
  | ok a => exact ⟨a, rfl, h⟩
  | error e => cases h

theorem runLlmJudge_exists (s : State)
    (hfree : ∀ dimension ∈ dimensionWeights, s.db.scored s.run.id dimension.1 = false) :
    ∃ r, LlmJudge.runLlmJudge s.db s.run.id StageRedelivery.simulatedAnswers = .ok r := by
  obtain ⟨scores, hscores, hfits⟩ := toOption_any simulated_fits
  have hstore : ∃ db', LlmJudge.storeScores s.run.id s.run scores
      (LlmJudge.judge StageRedelivery.simulatedAnswers).2.1
      (LlmJudge.judge StageRedelivery.simulatedAnswers).2.2 s.db dimensionWeights = .ok db' := by
    apply storeScores_exists (by decide +kernel) hfree
    intro dimension hdimension
    obtain ⟨score, hscore, hscoreFits⟩ := toOption_any (List.all_eq_true.1 hfits dimension hdimension)
    refine ⟨{ score with evaluationRunId := s.run.id, organizationId := s.run.organizationId }, ?_,
      hscoreFits⟩
    rw [newScore_owned, hscore]
    rfl
  obtain ⟨db', hdb'⟩ := hstore
  simp only [LlmJudge.runLlmJudge, scalarOne_self, hscores, hdb', bind, Except.bind]
  exact ⟨_, rfl⟩

theorem judge_writes {i : Nat} (hi : s.execution i = some ⟨true, .judging⟩)
    (hfree : ∀ dimension ∈ dimensionWeights, s.store.scored s.run.id dimension.1 = false) :
    WritesLate detect assess (some (.stage i)) s := by
  obtain ⟨⟨db, out⟩, hr⟩ := runLlmJudge_exists s hfree
  have hstep : step detect assess s (.judge i StageRedelivery.simulatedAnswers) =
      some ((s.store? (.ok db)).goto i none).note := by
    simp only [step, move, hi, hr]
    rfl
  apply writesLate_now rfl hstep
  · simp only [isLate, hi, Option.any_some]
  · intro hsame
    obtain ⟨hbefore, hafter⟩ := StageRedelivery.runLlmJudge_scored hr
    have hscores : (db.scores.filter fun score => decide (score.evaluationRunId = s.run.id)) =
        s.db.scores.filter fun score => decide (score.evaluationRunId = s.run.id) := hsame.scores
    rw [scored_filter, hscores, ← scored_filter, hbefore] at hafter
    cases hafter

/-- Every step that the guard leaves out writes late, or lets its party do so. -/
theorem writes_of_not_quiet {a : Action} (hok : ¬ Quiet detect assess s a)
    (h : step detect assess s a = some t) : WritesLate detect assess (party a) s := by
  cases a with
  | worker act =>
    cases act with
    | attempt a act =>
      cases act with
      | start i req =>
        apply writesLate_step rfl h
        obtain ⟨u, hu, rfl⟩ := Option.map_eq_some_iff.1 h
        obtain ⟨w, hw, rfl⟩ := Option.map_eq_some_iff.1 hu
        have hclosed : s.closed = true := by simpa [Quiet] using hok
        simp only [WorkerCounters.step] at hw
        split at hw
        next hpublished =>
          obtain ⟨task, htask, rfl⟩ := Option.map_eq_some_iff.1 hw
          simp only [BaseEvalTask.step] at htask
          split at htask <;> cases htask
          apply attempt_writes
          · exact hpublished
          · simp [State.note, WorkerCounters.State.advance, BaseEvalTask.State.goto, invocation]
          · simp [State.note, lateAfter, hclosed, invocation]
        next => cases hw
      | _ => exact absurd trivial hok
    | _ => exact absurd trivial hok
  | start i stage =>
    apply writesLate_step rfl h
    simp only [Quiet, Classical.not_imp, not_forall] at hok
    obtain ⟨hclosed, phase, hphase, hwriteable⟩ := hok
    simp only [step, move] at h
    split at h
    next =>
      cases h
      have hi : (s.goto i ((s.begin stage).map fun phase => ⟨s.closed, phase⟩)).note.execution i =
          some ⟨true, phase⟩ := by
        simp [State.note, State.goto, hphase, hclosed]
      cases stage with
      | crossCheck results =>
        cases hphase
        exact crossCheck_writes hi (not_not.1 hwriteable)
      | detectFabrication =>
        cases hphase
        apply flag_writes hi ?_ hwriteable
        intro c hc row hrow hid
        obtain ⟨hmem, hin⟩ := List.mem_filter.1 hc
        obtain rfl : row = c := List.inj_on_of_nodup_map s.store.keys hrow hmem hid
        simp only [inRun, Bool.and_eq_true, decide_eq_true_eq] at hin
        exact hin.1
      | runLlmJudge =>
        cases hphase
        apply judge_writes hi
        intro dimension hdimension
        by_contra hscored
        rw [Bool.not_eq_false] at hscored
        exact hwriteable ⟨dimension, hdimension, hscored⟩
      | finalize =>
        simp only [State.begin] at hphase
        split at hphase <;> cases hphase
        exact absurd trivial hwriteable
    next => cases h
  | finalize i finalScore now =>
    simp only [Quiet, Classical.not_imp, not_forall] at hok
    obtain ⟨version, tallies, hi, hm, hcounters⟩ := hok
    apply writesLate_now rfl h
    · simp only [isLate, hi, Option.any_some]
    · intro hsame
      simp only [step, move, hi, Option.map_some, Option.some.injEq] at h
      subst h
      obtain ⟨_, hwritten⟩ := WorkerCounters.written_finalize s.run.id version finalScore
        (total fun a => (tallies a).completed) (total fun a => (tallies a).failed) now s.run
      rw [hm, if_pos rfl, Prod.mk.injEq] at hwritten
      exact hcounters ⟨hwritten.1.symm.trans hsame.completedWorkers,
        hwritten.2.symm.trans hsame.failedWorkers⟩
  | _ => exact absurd trivial hok

end EvalEngine.LateWrites
