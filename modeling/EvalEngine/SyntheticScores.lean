import EvalEngine.Fabrication
import EvalEngine.LlmJudge
import EvalEngine.StageContracts
import Mathlib.Order.Interval.Set.Defs

namespace EvalEngine.SyntheticScores

open EvalEngine.JsonValues EvalEngine.Exceptions EvalEngine.Rounding EvalEngine.StageTables
open EvalEngine.StageContracts EvalEngine.LlmJudge

/-- What `random.uniform(-0.1, 0.1)` draws. -/
abbrev Variation := Set.Icc (-1 / 10 : ℚ) (1 / 10)

def avgConfidence (claims : List Claim) : ℚ :=
  if claims.isEmpty then 1 / 2 else (claims.map Claim.confidenceScore).sum / claims.length

def contradictionPenalty (contradictions : List Contradiction) : ℚ :=
  min (3 / 10) (contradictions.length * (5 / 100))

/-- The magnitude from which on a whole number is not rounded to a float any more. -/
def floatLimit : ℚ := 2 ^ 1024 - 2 ^ 970

/-- `v * factor` for a float. A number beyond the limit is an `int`. -/
def timesFloat (factor : ℚ) : Json → Except PyException ℚ
  | .bool b => .ok ((if b then 1 else 0) * factor)
  | .num q =>
    if |q| < floatLimit then .ok (q * factor)
    else .error (.failure "int too large to convert to float")
  | .str _ | .arr _ => .error (.typeError "can't multiply sequence by non-int of type 'float'")
  | .null => .error (.typeError "unsupported operand type(s) for *: 'NoneType' and 'float'")
  | .obj _ => .error (.typeError "unsupported operand type(s) for *: 'dict' and 'float'")

/-- The penalty for fabrication. -/
def fabPenalty (fabricationResult : Dict) : Except PyException ℚ :=
  timesFloat (2 / 10) ((find "average_risk_score" fabricationResult).getD (.num 0))

def baseScore (claims : List Claim) (contradictions : List Contradiction) (fabPenalty : ℚ) : ℚ :=
  max (1 / 10) (avgConfidence claims - contradictionPenalty contradictions - fabPenalty)

def dimensionValue (baseScore variation : ℚ) : ℚ :=
  roundTo 4 (max 0 (min 1 (baseScore + variation)))

def dimensionScore (claims : List Claim) (baseScore variation : ℚ) : Json :=
  .obj [("value", .num (dimensionValue baseScore variation)),
    ("rationale", .str ("Synthetic score based on " ++ toString claims.length ++ " claims"))]

def syntheticScores (claims : List Claim) (baseScore : ℚ) (variation : String → Variation) : Dict :=
  dimensionWeights.map fun dw => (dw.1, dimensionScore claims baseScore (variation dw.1))

/-- The dict of an execution that gets as far as its scores. -/
def syntheticOutput (claims : List Claim) (contradictions : List Contradiction)
    (variation : String → Variation) (fabPenalty : ℚ) : Dict :=
  [("scores", .obj (syntheticScores claims (baseScore claims contradictions fabPenalty) variation)),
    ("overall_assessment", .str "Score generated from analytical data (LLM unavailable)"),
    ("key_strengths", .arr []),
    ("key_risks", .arr [.str "LLM evaluation unavailable — synthetic scores used"])]

/-- `_generate_synthetic_scores`, with one draw for each dimension. -/
def generateSyntheticScores (claims : List Claim) (contradictions : List Contradiction)
    (fabricationResult : Dict) (variation : String → Variation) : Except PyException Dict :=
  (fabPenalty fabricationResult).map (syntheticOutput claims contradictions variation)

/-- The value of a dimension, in an output of the judge. -/
def valueOf (output : Dict) (dimension : String) : Option Json :=
  (find "scores" output).bind fun scores => match scores with
    | .obj scores => (find dimension scores).bind fun data => match data with
      | .obj data => find "value" data
      | _ => none
    | _ => none

/-- The float that the risk counts as, if it does: an absent one is zero. -/
def averageRisk (fabricationResult : Dict) : Option ℚ :=
  ((find "average_risk_score" fabricationResult).getD (.num 0)).number?.filter (|·| < floatLimit)

/-- Accepted as it is, with a four-digit number of the unit interval in every dimension. -/
structure Valid (output : Dict) : Prop where
  accepted : validateLlmOutput (.obj output) = some output
  values : ∀ dw ∈ dimensionWeights, ∃ value, valueOf output dw.1 = some (.num value) ∧
    HasDigits 4 value ∧ 0 ≤ value ∧ value ≤ 1

/-- No dimension has a greater value. -/
def NoHigher (output' output : Dict) : Prop :=
  ∀ dw ∈ dimensionWeights, ∃ value' value, valueOf output' dw.1 = some (.num value') ∧
    valueOf output dw.1 = some (.num value) ∧ value' ≤ value

theorem one_lt_floatLimit : 1 < floatLimit := by
  have hpow : (2 : ℚ) ^ 1024 = 2 ^ 970 * 2 ^ 54 := by rw [← pow_add]
  have hone : (1 : ℚ) ≤ 2 ^ 970 := one_le_pow₀ one_le_two
  rw [floatLimit, hpow]
  generalize (2 : ℚ) ^ 970 = p at hone
  linarith

theorem lt_floatLimit {q : ℚ} (h : |q| ≤ 1) : |q| < floatLimit := lt_of_le_of_lt h one_lt_floatLimit

theorem timesFloat_number {v : Json} {q : ℚ} (factor : ℚ)
    (h : v.number?.filter (|·| < floatLimit) = some q) : timesFloat factor v = .ok (q * factor) := by
  obtain ⟨hv, hq⟩ := Option.filter_eq_some_iff.1 h
  cases v with
  | bool b =>
    cases hv
    rfl
  | num r =>
    cases hv
    exact if_pos (of_decide_eq_true hq)
  | null | str | arr | obj => cases hv

theorem timesFloat_large {q : ℚ} (factor : ℚ) (h : ¬ |q| < floatLimit) :
    timesFloat factor (.num q) = .error (.failure "int too large to convert to float") := if_neg h

theorem fabPenalty_eq {fabricationResult : Dict} {risk : ℚ} (h : averageRisk fabricationResult = some risk) :
    fabPenalty fabricationResult = .ok (risk * (2 / 10)) :=
  timesFloat_number _ h

theorem find_map {key : String} {dws : List (String × ℚ)} (f : String → Json)
    (h : key ∈ dws.map Prod.fst) : find key (dws.map fun dw => (dw.1, f dw.1)) = some (f key) := by
  induction dws with
  | nil => cases h
  | cons dw dws ih =>
    by_cases hkey : dw.1 = key
    · simp [find, hkey]
    · have hmem : key ∈ dws.map Prod.fst := by
        obtain h | h := List.mem_cons.1 h
        · exact absurd h.symm hkey
        · exact h
      simpa [find, hkey] using ih hmem

theorem find_syntheticScores (claims : List Claim) (baseScore : ℚ) (variation : String → Variation)
    {dimension : String} (h : dimension ∈ dimensionWeights.map Prod.fst) :
    find dimension (syntheticScores claims baseScore variation) =
      some (dimensionScore claims baseScore (variation dimension)) :=
  find_map (fun dim => dimensionScore claims baseScore (variation dim)) h

theorem dimensionValue_mem (baseScore variation : ℚ) :
    0 ≤ dimensionValue baseScore variation ∧ dimensionValue baseScore variation ≤ 1 := by
  have hlow : ((0 : ℤ) : ℚ) ≤ max 0 (min 1 (baseScore + variation)) := by simp
  have hhigh : max 0 (min 1 (baseScore + variation)) ≤ ((1 : ℤ) : ℚ) := by simp
  simpa [dimensionValue] using @roundTo_mem 4 _ 0 1 hlow hhigh

theorem dimensionValue_mono {base base' : ℚ} (h : base' ≤ base) (variation : ℚ) :
    dimensionValue base' variation ≤ dimensionValue base variation :=
  roundTo_mono (max_le_max le_rfl (min_le_min le_rfl (add_le_add h le_rfl)))

theorem contradictionPenalty_mono {contradictions contradictions' : List Contradiction}
    (h : contradictions.length ≤ contradictions'.length) :
    contradictionPenalty contradictions ≤ contradictionPenalty contradictions' := by
  apply min_le_min le_rfl
  apply mul_le_mul_of_nonneg_right (Nat.cast_le.2 h)
  norm_num

theorem baseScore_anti (claims : List Claim) {contradictions contradictions' : List Contradiction}
    {penalty penalty' : ℚ} (h : contradictions.length ≤ contradictions'.length) (hp : penalty ≤ penalty') :
    baseScore claims contradictions' penalty' ≤ baseScore claims contradictions penalty := by
  apply max_le_max le_rfl
  exact sub_le_sub (sub_le_sub le_rfl (contradictionPenalty_mono h)) hp

section Output

variable (claims : List Claim) (contradictions : List Contradiction) (variation : String → Variation)

theorem generate_eq {fabricationResult : Dict} {risk : ℚ} (h : averageRisk fabricationResult = some risk) :
    generateSyntheticScores claims contradictions fabricationResult variation =
      .ok (syntheticOutput claims contradictions variation (risk * (2 / 10))) := by
  rw [generateSyntheticScores, fabPenalty_eq h]
  rfl

theorem valueOf_syntheticOutput (fabPenalty : ℚ) {dimension : String}
    (h : dimension ∈ dimensionWeights.map Prod.fst) :
    valueOf (syntheticOutput claims contradictions variation fabPenalty) dimension =
      some (.num (dimensionValue (baseScore claims contradictions fabPenalty) (variation dimension))) := by
  have hdata := find_syntheticScores claims (baseScore claims contradictions fabPenalty) variation h
  simp only [valueOf, syntheticOutput, find_cons_self, Option.bind_some, hdata, dimensionScore]

theorem validDimension_syntheticScores (baseScore : ℚ) {dimension : String}
    (h : dimension ∈ dimensionWeights.map Prod.fst) :
    validDimension (syntheticScores claims baseScore variation) dimension = true := by
  obtain ⟨hlow, hhigh⟩ := dimensionValue_mem baseScore (variation dimension)
  simp only [validDimension, find_syntheticScores claims baseScore variation h, dimensionScore,
    find_cons_self, Option.any_some, inUnit, decide_eq_true hlow, decide_eq_true hhigh, Bool.and_self]

theorem validate_syntheticOutput (fabPenalty : ℚ) :
    validateLlmOutput (.obj (syntheticOutput claims contradictions variation fabPenalty)) =
      some (syntheticOutput claims contradictions variation fabPenalty) := by
  have hall : dimensionWeights.all (fun dw => validDimension (syntheticScores claims
      (baseScore claims contradictions fabPenalty) variation) dw.1) = true := by
    rw [List.all_eq_true]
    intro dw hdw
    exact validDimension_syntheticScores claims variation _ (List.mem_map_of_mem hdw)
  simp only [validateLlmOutput, syntheticOutput, find_cons_self, hall, if_true]

theorem valid_syntheticOutput (fabPenalty : ℚ) :
    Valid (syntheticOutput claims contradictions variation fabPenalty) := by
  constructor
  · exact validate_syntheticOutput claims contradictions variation fabPenalty
  · intro dw hdw
    exact ⟨_, valueOf_syntheticOutput claims contradictions variation _ (List.mem_map_of_mem hdw),
      hasDigits_roundTo 4 _, dimensionValue_mem _ _⟩

end Output

/-- A risk that is there and cannot be taken for a float cannot be weighed. -/
theorem generate_ok_iff (claims : List Claim) (contradictions : List Contradiction)
    (fabricationResult : Dict) (variation : String → Variation) :
    (∃ output, generateSyntheticScores claims contradictions fabricationResult variation = .ok output) ↔
      ∃ risk, averageRisk fabricationResult = some risk := by
  constructor
  · rintro ⟨output, h⟩
    rw [generateSyntheticScores, fabPenalty] at h
    rw [averageRisk]
    cases hv : (find "average_risk_score" fabricationResult).getD (.num 0) with
    | bool b =>
      have hunit : |if b then (1 : ℚ) else 0| ≤ 1 := by cases b <;> norm_num
      exact ⟨_, Option.filter_eq_some_iff.2 ⟨rfl, decide_eq_true (lt_floatLimit hunit)⟩⟩
    | num q =>
      by_cases hq : |q| < floatLimit
      · exact ⟨q, Option.filter_eq_some_iff.2 ⟨rfl, decide_eq_true hq⟩⟩
      · rw [hv, timesFloat_large _ hq] at h
        cases h
    | null | str | arr | obj =>
      rw [hv] at h
      cases h
  · rintro ⟨risk, h⟩
    exact ⟨_, generate_eq claims contradictions variation h⟩

/-- With both models down the scores are the synthetic ones, under their own label. -/
theorem judge_synthetic {answers : Answers} {claims : List Claim} {contradictions : List Contradiction}
    {fabricationResult : Dict} {variation : String → Variation} {e e' : PyException}
    (hprimary : answers.primary = .error e) (hbackup : answers.backup = .error e')
    (h : generateSyntheticScores claims contradictions fabricationResult variation = .ok answers.synthetic) :
    judge answers = (answers.synthetic, {}, "synthetic") := by
  obtain ⟨risk, hrisk⟩ := (generate_ok_iff claims contradictions fabricationResult variation).1 ⟨_, h⟩
  have hvalid := validate_syntheticOutput claims contradictions variation (risk * (2 / 10))
  rw [generate_eq claims contradictions variation hrisk] at h
  rw [Except.ok.inj h] at hvalid
  simp only [judge, hprimary, hbackup, hvalid]

/-- The fallback answers whatever the claims and the contradictions are, once the
risk is absent or can be taken for a float, and more of either doubt raises no score. -/
theorem synthetic_valid_antitone (claims : List Claim) (contradictions : List Contradiction)
    (fabricationResult : Dict) (variation : String → Variation) (risk : ℚ)
    (h : averageRisk fabricationResult = some risk) :
    ∃ output, generateSyntheticScores claims contradictions fabricationResult variation = .ok output ∧
      Valid output ∧
      ∀ (contradictions' : List Contradiction) (fabricationResult' : Dict) (risk' : ℚ),
        contradictions.length ≤ contradictions'.length →
        averageRisk fabricationResult' = some risk' → risk ≤ risk' →
        ∃ output', generateSyntheticScores claims contradictions' fabricationResult' variation = .ok output' ∧
          NoHigher output' output := by
  refine ⟨_, generate_eq claims contradictions variation h, valid_syntheticOutput _ _ _ _, ?_⟩
  intro contradictions' fabricationResult' risk' hlen h' hrisk
  refine ⟨_, generate_eq claims contradictions' variation h', ?_⟩
  have hpenalty : risk * (2 / 10) ≤ risk' * (2 / 10) := mul_le_mul_of_nonneg_right hrisk (by norm_num)
  intro dw hdw
  have hdim : dw.1 ∈ dimensionWeights.map Prod.fst := List.mem_map_of_mem hdw
  exact ⟨_, _, valueOf_syntheticOutput claims contradictions' variation _ hdim,
    valueOf_syntheticOutput claims contradictions variation _ hdim,
    dimensionValue_mono (baseScore_anti claims hlen hpenalty) _⟩

def sampleClaim : Claim :=
  { id := 1, evaluationRunId := 1, submissionId := 1, organizationId := 1, claimText := "10 users",
    category := "traction", sourceReference := none, confidenceScore := 8 / 10 }

/-- A draw of no variation. -/
def unvaried : String → Variation := fun _ => ⟨0, by norm_num⟩

/-- A risk in words stops the fallback, and so does one that no float can hold. -/
theorem worded_risk_raises :
    generateSyntheticScores [sampleClaim] [] [("average_risk_score", .str "unknown")] unvaried =
        .error (.typeError "can't multiply sequence by non-int of type 'float'") ∧
      generateSyntheticScores [sampleClaim] [] [("average_risk_score", .num (10 ^ 400))] unvaried =
        .error (.failure "int too large to convert to float") := by
  refine ⟨rfl, ?_⟩
  have hlarge : ¬ |(10 ^ 400 : ℚ)| < floatLimit := by
    have hpow : 2 ^ 1024 ≤ 10 ^ 400 := by decide +kernel
    have hcast : (2 : ℚ) ^ 1024 ≤ 10 ^ 400 := by exact_mod_cast hpow
    have hpos : (0 : ℚ) ≤ 2 ^ 970 := by positivity
    rw [abs_of_nonneg (by positivity), floatLimit]
    exact not_lt.2 ((sub_le_self _ hpos).trans hcast)
  rw [generateSyntheticScores, fabPenalty, find_cons_self, Option.getD_some, timesFloat_large _ hlarge]
  rfl

theorem synthetic_valid_antitone_sample :
    ∃ output, generateSyntheticScores [sampleClaim] [] [("average_risk_score", .num (1 / 2))] unvaried =
        .ok output ∧
      Valid output ∧
      ∀ (contradictions' : List Contradiction) (fabricationResult' : Dict) (risk' : ℚ),
        ([] : List Contradiction).length ≤ contradictions'.length →
        averageRisk fabricationResult' = some risk' → 1 / 2 ≤ risk' →
        ∃ output', generateSyntheticScores [sampleClaim] contradictions' fabricationResult' unvaried =
            .ok output' ∧
          NoHigher output' output :=
  synthetic_valid_antitone [sampleClaim] [] [("average_risk_score", .num (1 / 2))] unvaried (1 / 2)
    (Option.filter_eq_some_iff.2 ⟨rfl, decide_eq_true (lt_floatLimit (by norm_num))⟩)

end EvalEngine.SyntheticScores
