import EvalEngine.ClaimsKept
import EvalEngine.LateWrites
import EvalEngine.SyntheticScores

namespace EvalEngine.JudgeStage

open EvalEngine.JsonValues EvalEngine.Exceptions EvalEngine.QueryResults EvalEngine.RunModel
open EvalEngine.StageTables EvalEngine.StageContracts EvalEngine.ExceptLists EvalEngine.LlmJudge
open EvalEngine.SyntheticScores EvalEngine.FinalScore
open EvalEngine.ClaimsKept (claimsOf)

/-- What the calls of the two models come to, and what the fallback draws. -/
structure Models where
  primary : Except PyException (Json × TokenUsage)
  backup : Except PyException (Json × TokenUsage)
  variation : String → Variation

/-- The output of the model that has answered. -/
def Models.output (m : Models) : Option Json :=
  match m.primary, m.backup with
  | .ok (output, _), _ => some output
  | .error _, .ok (output, _) => some output
  | .error _, .error _ => none

def contradictionInRun (runId : UUID) (c : Contradiction) : Bool :=
  decide (c.evaluationRunId = runId) && c.deletedAt.isNone

/-- The fallback that `_run_llm_judge` turns to. -/
def fallback (db : Store) (runId : UUID) (fabricationResult : Dict) (m : Models) :
    Except PyException Dict :=
  generateSyntheticScores (claimsOf db runId) (db.contradictions.filter (contradictionInRun runId))
    fabricationResult m.variation

/-- Scores are made up only for want of a model's. -/
def judgeAnswered (db : Store) (runId : UUID) (fabricationResult : Dict) (m : Models) :
    Except PyException (Store × Dict) := do
  let _ ← scalarOne (db.runs.filter (fun run => decide (run.id = runId)))
  match m.output.bind validateLlmOutput with
  | some _ => runLlmJudge db runId ⟨m.primary, m.backup, []⟩
  | none => runLlmJudge db runId ⟨m.primary, m.backup, ← fallback db runId fabricationResult m⟩

/-- The prompt of step 2, about the rows of the run. -/
def promptOf (texts : Texts) (db : Store) (runId : UUID) (fabricationResult : Dict) : String :=
  prompt texts (claimsOf db runId) (db.contradictions.filter (contradictionInRun runId)) fabricationResult

/-- `_run_llm_judge`, for what the models come to when they are asked with a prompt. -/
def judgeStage (texts : Texts) (db : Store) (runId : UUID) (fabricationResult : Dict)
    (ask : String → Models) : Except PyException (Store × Dict) :=
  judgeAnswered db runId fabricationResult (ask (promptOf texts db runId fabricationResult))

/-- What the models come to, with the fallback that stands by for them. -/
def answersOf (db : Store) (runId : UUID) (fabricationResult : Dict) (m : Models) :
    Except PyException Answers :=
  match m.output.bind validateLlmOutput with
  | some _ => .ok ⟨m.primary, m.backup, []⟩
  | none => (fallback db runId fabricationResult m).map fun synthetic => ⟨m.primary, m.backup, synthetic⟩

theorem judgeAnswered_eq (db : Store) (runId : UUID) (fabricationResult : Dict) (m : Models) :
    judgeAnswered db runId fabricationResult m =
      (scalarOne (db.runs.filter (fun run => decide (run.id = runId)))).bind fun _ =>
        (answersOf db runId fabricationResult m).bind (runLlmJudge db runId) := by
  rw [judgeAnswered, answersOf]
  cases m.output.bind validateLlmOutput with
  | some validated => rfl
  | none =>
    cases fallback db runId fabricationResult m with
    | error e => rfl
    | ok synthetic => rfl

/-- The rationales of an accepted output can be stored. -/
def Recordable (output : Dict) : Prop :=
  ∀ scores data, find "scores" output = some (.obj scores) → ∀ dw ∈ dimensionWeights,
    find dw.1 scores = some (.obj data) →
      ∃ rationale, rationaleColumn ((find "rationale" data).getD (.str "")) = .ok rationale ∧
        rationale.all textStorable = true

/-- An output that is accepted can be recorded. -/
def Models.Answers (m : Models) : Prop :=
  ∀ output validated, m.output = some output → validateLlmOutput output = some validated →
    Recordable validated

theorem eq_of_validated {output : Json} {validated : Dict}
    (h : validateLlmOutput output = some validated) : output = .obj validated := by
  cases output with
  | obj fields =>
    simp only [validateLlmOutput] at h
    split at h
    · split at h
      · exact congrArg Json.obj (Option.some.inj h)
      · cases h
    · cases h
  | null | bool | num | str | arr => cases h

theorem validated_self {output : Json} {validated : Dict} (h : validateLlmOutput output = some validated) :
    validateLlmOutput (.obj validated) = some validated := by
  rw [← eq_of_validated h]
  exact h

theorem dimensions_of_validated {output : Dict} (h : validateLlmOutput (.obj output) = some output) :
    ∃ scores, find "scores" output = some (.obj scores) ∧ ∀ dw ∈ dimensionWeights,
      ∃ data, find dw.1 scores = some (.obj data) ∧
        ∃ value, find "value" data = some value ∧ inUnit value = true := by
  simp only [validateLlmOutput] at h
  split at h
  next scores hscores =>
    split at h
    next hall =>
      refine ⟨scores, hscores, fun dw hdw => ?_⟩
      have hvalid := List.all_eq_true.1 hall dw hdw
      simp only [validDimension] at hvalid
      split at hvalid
      next data hdata => exact ⟨data, hdata, (Option.any_eq_true _ _).1 hvalid⟩
      next => cases hvalid
    next => cases h
  next => cases h

theorem valueColumn_of_inUnit {value : Json} (h : inUnit value = true) :
    ∃ q, valueColumn value = .ok q ∧ 0 ≤ q ∧ q ≤ 1 := by
  cases value with
  | num q =>
    simp only [inUnit, Bool.and_eq_true, decide_eq_true_eq] at h
    exact ⟨q, rfl, h⟩
  | bool b =>
    refine ⟨_, rfl, ?_⟩
    cases b <;> decide
  | null | str | arr | obj => cases h

theorem usage_storable (usage : TokenUsage) : usage.json.storable = true := by
  have hkeys : textStorable "prompt_tokens" = true ∧ textStorable "completion_tokens" = true ∧
      textStorable "total_tokens" = true := by decide +kernel
  simp only [TokenUsage.json, Json.storable, dictStorable, hkeys, Bool.and_self]

theorem breakdown_storable {model : String} (hmodel : textStorable model = true) (usage : TokenUsage) :
    dictStorable [("model_used", .str model), ("token_usage", usage.json)] = true := by
  have hkeys : textStorable "model_used" = true ∧ textStorable "token_usage" = true := by decide +kernel
  simp only [dictStorable, Json.storable, hmodel, usage_storable usage, hkeys, Bool.and_self]

theorem weights_fit : ∀ dw ∈ dimensionWeights,
    (0 ≤ dw.2 ∧ dw.2 ≤ 1) ∧ varchar 100 dw.1 = true := by decide +kernel

theorem newScore_fits {runId : UUID} {run : EvaluationRun} {scores : Dict} {usage : TokenUsage}
    {model : String} {dw : String × ℚ} (hmodel : textStorable model = true) (hdw : dw ∈ dimensionWeights)
    {data : Dict} (hdata : find dw.1 scores = some (.obj data)) {value : Json}
    (hvalue : find "value" data = some value) (hunit : inUnit value = true)
    (hrationale : ∃ rationale, rationaleColumn ((find "rationale" data).getD (.str "")) = .ok rationale ∧
      rationale.all textStorable = true) :
    ∃ score, newScore runId run scores usage model dw = .ok score ∧ LateWrites.Fits score = true := by
  obtain ⟨q, hq, hrange⟩ := valueColumn_of_inUnit hunit
  obtain ⟨rationale, hcolumn, hstorable⟩ := hrationale
  obtain ⟨hweight, hname⟩ := weights_fit dw hdw
  refine ⟨⟨runId, run.organizationId, dw.1, q, dw.2, rationale,
    [("model_used", .str model), ("token_usage", usage.json)], none⟩, ?_, ?_⟩
  · simp only [newScore, hdata, Option.getD_some, asDict, hvalue, hq, hcolumn, bind, Except.bind]
    rfl
  · simp only [LateWrites.Fits, Score.storable, breakdown_storable hmodel usage, hname, hstorable,
      decide_eq_true hrange, decide_eq_true hweight, Bool.and_self]

theorem recordable_synthetic (claims : List Claim) (contradictions : List Contradiction)
    (variation : String → Variation) (penalty : ℚ) :
    Recordable (syntheticOutput claims contradictions variation penalty) := by
  intro scores data hscores dw hdw hdata
  cases hscores
  rw [find_syntheticScores claims _ variation (List.mem_map_of_mem hdw), dimensionScore] at hdata
  cases hdata
  have htexts : textStorable "Synthetic score based on " = true ∧ textStorable " claims" = true := by
    decide +kernel
  refine ⟨_, rfl, ?_⟩
  simp only [Option.all_some, textStorable_append, textStorable_toString, htexts, Bool.and_self]

/-- What is recorded in the end: an accepted output under a label of its own. -/
structure Acceptable (answers : Answers) : Prop where
  accepted : validateLlmOutput (.obj (judge answers).1) = some (judge answers).1
  recordable : Recordable (judge answers).1
  label : textStorable (judge answers).2.2 = true

theorem judge_acceptable {m : Models} (hm : m.Answers) {synthetic : Dict}
    (hsynthetic : m.output.bind validateLlmOutput = none →
      validateLlmOutput (.obj synthetic) = some synthetic ∧ Recordable synthetic) :
    Acceptable ⟨m.primary, m.backup, synthetic⟩ := by
  have hlabels : textStorable primaryModel = true ∧ textStorable backupModel = true ∧
      textStorable "synthetic" = true ∧ textStorable "_fallback" = true := by decide +kernel
  obtain ⟨primary, backup, variation⟩ := m
  cases primary with
  | ok call =>
    cases hvalid : validateLlmOutput call.1 with
    | some validated =>
      constructor <;> simp only [judge, hvalid]
      · exact validated_self hvalid
      · exact hm call.1 validated rfl hvalid
      · exact hlabels.1
    | none =>
      obtain ⟨haccepted, hrecord⟩ := hsynthetic hvalid
      constructor <;> simp only [judge, hvalid]
      · exact haccepted
      · exact hrecord
      · simp only [textStorable_append, hlabels, Bool.and_self]
  | error e =>
    cases backup with
    | ok call =>
      cases hvalid : validateLlmOutput call.1 with
      | some validated =>
        constructor <;> simp only [judge, hvalid]
        · exact validated_self hvalid
        · exact hm call.1 validated rfl hvalid
        · exact hlabels.2.1
      | none =>
        obtain ⟨haccepted, hrecord⟩ := hsynthetic hvalid
        constructor <;> simp only [judge, hvalid]
        · exact haccepted
        · exact hrecord
        · simp only [textStorable_append, hlabels, Bool.and_self]
    | error e' =>
      obtain ⟨haccepted, hrecord⟩ := hsynthetic rfl
      have hjudge : judge ⟨.error e, .error e', synthetic⟩ = (synthetic, {}, "synthetic") := by
        simp only [judge, haccepted]
      constructor <;> rw [hjudge]
      · exact haccepted
      · exact hrecord
      · exact hlabels.2.2.1

/-- The models answer, or the fallback does in their place. -/
theorem answersOf_ok {m : Models} {fabricationResult : Dict} (db : Store) (runId : UUID) (hm : m.Answers)
    (hrisk : ∃ risk, averageRisk fabricationResult = some risk) :
    ∃ answers, answersOf db runId fabricationResult m = .ok answers ∧ Acceptable answers := by
  cases houtput : m.output.bind validateLlmOutput with
  | some validated =>
    have hok : answersOf db runId fabricationResult m = .ok ⟨m.primary, m.backup, []⟩ := by
      rw [answersOf, houtput]
    exact ⟨_, hok, judge_acceptable hm fun hnone => by rw [houtput] at hnone; cases hnone⟩
  | none =>
    obtain ⟨risk, hrisk⟩ := hrisk
    have hfallback : ∃ synthetic, fallback db runId fabricationResult m = .ok synthetic ∧
        validateLlmOutput (.obj synthetic) = some synthetic ∧ Recordable synthetic :=
      ⟨_, generate_eq _ _ _ hrisk, validate_syntheticOutput _ _ _ _, recordable_synthetic _ _ _ _⟩
    obtain ⟨synthetic, hfallback, hsynthetic⟩ := hfallback
    refine ⟨⟨m.primary, m.backup, synthetic⟩, ?_, judge_acceptable hm fun _ => hsynthetic⟩
    rw [answersOf, houtput, hfallback]
    rfl

/-- The rows of the scores, in the order of the dimensions. -/
theorem storeScores_rows {runId : UUID} {run : EvaluationRun} {scores : Dict} {usage : TokenUsage}
    {model : String} {dimensions : List (String × ℚ)} {db db' : Store}
    (h : storeScores runId run scores usage model db dimensions = .ok db') :
    ∃ rows, List.Forall₂ (fun dw row => newScore runId run scores usage model dw = .ok row ∧
        0 ≤ row.value ∧ row.value ≤ 1) dimensions rows ∧ db'.scores = db.scores ++ rows := by
  induction dimensions generalizing db with
  | nil =>
    cases h
    exact ⟨[], .nil, (List.append_nil _).symm⟩
  | cons dw dimensions ih =>
    simp only [storeScores, bind_eq_ok] at h
    obtain ⟨row, hrow, db₁, hinsert, hrest⟩ := h
    obtain ⟨rows, hrows, hscores⟩ := ih hrest
    have hrange : 0 ≤ row.value ∧ row.value ≤ 1 := by
      rw [Store.insertScore] at hinsert
      split at hinsert
      · cases hinsert
      next hvalue => exact ⟨not_lt.1 fun hlt => hvalue (.inl hlt), not_lt.1 fun hlt => hvalue (.inr hlt)⟩
    refine ⟨row :: rows, .cons ⟨hrow, hrange⟩ hrows, ?_⟩
    rw [hscores, (insertScore_ok hinsert).2.1, List.append_assoc]
    rfl

/-- What the judge leaves: one row for each dimension, and nothing else. -/
structure Scored (run : EvaluationRun) (db db' : Store) : Prop where
  rows : ∃ rows, db'.scores = db.scores ++ rows ∧
    rows.map (fun row => (row.dimension, row.weight)) = dimensionWeights ∧
    ∀ row ∈ rows, liveScore run.id run.organizationId row = true ∧ 0 ≤ row.value ∧ row.value ≤ 1
  claims : db'.claims = db.claims
  contradictions : db'.contradictions = db.contradictions
  runs : db'.runs = db.runs

theorem newScore_row {runId : UUID} {run : EvaluationRun} {scores : Dict} {usage : TokenUsage}
    {model : String} {dw : String × ℚ} {row : Score}
    (h : newScore runId run scores usage model dw = .ok row) :
    (row.dimension, row.weight) = dw ∧ liveScore runId run.organizationId row = true := by
  simp only [newScore, bind_eq_ok] at h
  obtain ⟨_, _, _, _, _, _, hrow⟩ := h
  cases hrow
  simp [liveScore]

theorem rows_dimensions {runId : UUID} {run : EvaluationRun} {scores : Dict} {usage : TokenUsage}
    {model : String} {dimensions : List (String × ℚ)} {rows : List Score}
    (h : List.Forall₂ (fun dw row => newScore runId run scores usage model dw = .ok row ∧
      0 ≤ row.value ∧ row.value ≤ 1) dimensions rows) :
    rows.map (fun row => (row.dimension, row.weight)) = dimensions := by
  induction h with
  | nil => rfl
  | cons hrow _ ih => rw [List.map_cons, ih, (newScore_row hrow.1).1]

theorem runLlmJudge_scored {db : Store} {run : EvaluationRun} {answers : Answers}
    (hrun : scalarOne (db.runs.filter (fun r => decide (r.id = run.id))) = .ok run)
    (hfree : ∀ dw ∈ dimensionWeights, db.scored run.id dw.1 = false)
    (hanswers : Acceptable answers) :
    ∃ db' out, runLlmJudge db run.id answers = .ok (db', out) ∧ Scored run db db' := by
  obtain ⟨scores, hscores, hdimensions⟩ := dimensions_of_validated hanswers.accepted
  have hstore : ∃ db', storeScores run.id run scores (judge answers).2.1 (judge answers).2.2 db
      dimensionWeights = .ok db' := by
    apply LateWrites.storeScores_exists (by decide +kernel) hfree
    intro dw hdw
    obtain ⟨data, hdata, value, hvalue, hunit⟩ := hdimensions dw hdw
    exact newScore_fits hanswers.label hdw hdata hvalue hunit (hanswers.recordable scores data hscores dw hdw hdata)
  obtain ⟨db', hdb'⟩ := hstore
  obtain ⟨rows, hforall, hadded⟩ := storeScores_rows hdb'
  have hkept := storeScores_ok hdb'
  obtain ⟨out, hout⟩ : ∃ out, runLlmJudge db run.id answers = .ok (db', out) := by
    simp only [runLlmJudge, hrun, hscores, Option.getD_some, asDict, hdb', bind, Except.bind]
    exact ⟨_, rfl⟩
  refine ⟨db', out, hout, ⟨rows, hadded, rows_dimensions hforall, ?_⟩, hkept.claims,
    hkept.contradictions, hkept.runs⟩
  intro row hrow
  obtain ⟨dw, _, hnew, hrange⟩ := exists_of_forall₂ hforall.flip row hrow
  exact ⟨(newScore_row hnew).2, hrange⟩

/-- The judge gets through, with the models or without them, and leaves one score
for each dimension. -/
theorem judge_scores_each_dimension (texts : Texts) (db : Store) (run : EvaluationRun)
    (fabricationResult : Dict) (ask : String → Models)
    (hrun : scalarOne (db.runs.filter (fun r => decide (r.id = run.id))) = .ok run)
    (hfree : ∀ dw ∈ dimensionWeights, db.scored run.id dw.1 = false) (hask : ∀ text, (ask text).Answers)
    (hrisk : ∃ risk, averageRisk fabricationResult = some risk) :
    ∃ db' out, judgeStage texts db run.id fabricationResult ask = .ok (db', out) ∧ Scored run db db' := by
  obtain ⟨answers, hok, hanswers⟩ := answersOf_ok db run.id
    (hask (promptOf texts db run.id fabricationResult)) hrisk
  obtain ⟨db', out, hjudge, hscored⟩ := runLlmJudge_scored hrun hfree hanswers
  refine ⟨db', out, ?_, hscored⟩
  rw [judgeStage, judgeAnswered_eq, hrun, hok]
  exact hjudge

section Sample

def plainTexts : Texts := { number := fun q => toString q, value := fun _ => "unknown" }

/-- The primary model times out, and the backup does not answer with scores. -/
def unhelpful : String → Models := fun text =>
  { primary := .error (.failure "timeout")
    backup := .ok (.obj [("echo", .str text)], { promptTokens := 10, totalTokens := 10 })
    variation := unvaried }

theorem unhelpful_answers (text : String) : (unhelpful text).Answers := by
  rintro output validated ⟨⟩ hvalid
  cases hvalid

/-- The judge of a run with two claims, which it scores by itself. -/
theorem judge_scores_each_dimension_sample : ∃ db' out,
    judgeStage plainTexts StageRedelivery.withClaims 1 [("average_risk_score", .bool true)] unhelpful =
        .ok (db', out) ∧
      Scored StageRedelivery.scoredRun StageRedelivery.withClaims db' := by
  refine judge_scores_each_dimension plainTexts StageRedelivery.withClaims StageRedelivery.scoredRun
    [("average_risk_score", .bool true)] unhelpful rfl (fun dw _ => rfl) unhelpful_answers ⟨1, ?_⟩
  exact Option.filter_eq_some_iff.2 ⟨rfl, decide_eq_true (lt_floatLimit (by norm_num))⟩

end Sample

end EvalEngine.JudgeStage
