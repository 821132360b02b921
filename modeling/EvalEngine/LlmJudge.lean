import EvalEngine.Rounding
import EvalEngine.StageTables

namespace EvalEngine.LlmJudge

open EvalEngine.JsonValues EvalEngine.Exceptions EvalEngine.QueryResults EvalEngine.Rounding
open EvalEngine.RunModel EvalEngine.StageTables

def primaryModel : String := "gpt-4-turbo"

def backupModel : String := "gpt-3.5-turbo"

def dimensionWeights : List (String × ℚ) :=
  [("market_opportunity", 2 / 10), ("team_strength", 2 / 10), ("product_viability", 2 / 10),
    ("financial_health", 15 / 100), ("traction", 15 / 100), ("overall", 1 / 10)]

structure TokenUsage where
  promptTokens : Nat := 0
  completionTokens : Nat := 0
  totalTokens : Nat := 0

def TokenUsage.json (usage : TokenUsage) : Json :=
  .obj [("prompt_tokens", .num usage.promptTokens),
    ("completion_tokens", .num usage.completionTokens), ("total_tokens", .num usage.totalTokens)]

/-- How Python writes a float, and how it writes a decoded value. -/
structure Texts where
  number : ℚ → String
  value : Json → String

/-- The claims that the prompt lists. The query has no ORDER BY, so they are the
first fifty in the order in which the rows are read. -/
def promptClaims (claims : List Claim) : List Claim := claims.take 50

def claimLine (texts : Texts) (c : Claim) : String :=
  "- [" ++ c.category ++ "] " ++ c.claimText ++ " (confidence: " ++ texts.number c.confidenceScore ++ ")"

def contradictionLine (texts : Texts) (c : Contradiction) : String :=
  "- " ++ c.explanation ++ " (severity: " ++ texts.number c.severity ++ ")"

def orElse (default_ text : String) : String := if text = "" then default_ else text

/-- Step 2. -/
def prompt (texts : Texts) (claims : List Claim) (contradictions : List Contradiction)
    (fabricationResult : Dict) : String :=
  let claimsText := "\n".intercalate ((promptClaims claims).map (claimLine texts))
  let contradictionsText := "\n".intercalate ((contradictions.take 20).map (contradictionLine texts))
  let field (key : String) (default_ : Json) :=
    texts.value ((find key fabricationResult).getD default_)
  "You are an expert startup evaluator. Analyze the following data and provide scores.\n\n" ++
    "EXTRACTED CLAIMS:\n" ++ orElse "No claims extracted." claimsText ++ "\n\n" ++
    "DETECTED CONTRADICTIONS:\n" ++ orElse "No contradictions detected." contradictionsText ++ "\n\n" ++
    "FABRICATION ANALYSIS:\n" ++
    "Fabrication risk: " ++ field "fabrication_risk" (.str "unknown") ++ "\n" ++
    "Flagged claims: " ++ field "flagged_claims" (.num 0) ++ "\n\n" ++
    "Score each dimension from 0.0 to 1.0 with a rationale.\n" ++
    "Respond with valid JSON matching the required schema."

/-- What the models answer to the prompt in one execution, and what the
synthetic fallback makes of the claims. -/
structure Answers where
  primary : Except PyException (Json × TokenUsage)
  backup : Except PyException (Json × TokenUsage)
  synthetic : Dict

def simulatedDimension (value : ℚ) (rationale : String) : Json :=
  .obj [("value", .num value), ("rationale", .str rationale)]

/-- The response that `_call_llm` stands in for the models with. -/
def simulatedResponse : Json :=
  .obj [
    ("scores", .obj [
      ("market_opportunity",
        simulatedDimension (72 / 100) "Large addressable market with growing demand"),
      ("team_strength",
        simulatedDimension (65 / 100) "Experienced founders with relevant domain expertise"),
      ("product_viability",
        simulatedDimension (78 / 100) "Strong technical foundation with clear differentiation"),
      ("financial_health", simulatedDimension (55 / 100) "Early stage with limited revenue data"),
      ("traction",
        simulatedDimension (60 / 100) "Moderate user growth with positive engagement metrics"),
      ("overall", simulatedDimension (68 / 100) "Promising startup with room for growth")]),
    ("overall_assessment",
      .str "A promising early-stage startup with strong technical foundations."),
    ("key_strengths",
      .arr [.str "Strong product differentiation", .str "Experienced technical team"]),
    ("key_risks",
      .arr [.str "Limited revenue traction", .str "Competitive market landscape"])]

def inUnit : Json → Bool
  | .num q => decide (0 ≤ q) && decide (q ≤ 1)
  | .bool _ => true
  | _ => false

def validDimension (scores : Dict) (dimension : String) : Bool :=
  match find dimension scores with
  | some (.obj data) => (find "value" data).any inUnit
  | _ => false

/-- `_validate_llm_output`: the output itself, or `None`. -/
def validateLlmOutput : Json → Option Dict
  | .obj output =>
    match find "scores" output with
    | some (.obj scores) =>
      if dimensionWeights.all (fun dw => validDimension scores dw.1) then some output else none
    | _ => none
  | _ => none

/-- Steps 3 and 4: the output to be stored, the usage and the model that is billed. -/
def judge (answers : Answers) : Dict × TokenUsage × String :=
  let (output, usage, model) := match answers.primary, answers.backup with
    | .ok (output, usage), _ => (output, usage, primaryModel)
    | .error _, .ok (output, usage) => (output, usage, backupModel)
    | .error _, .error _ => (.obj answers.synthetic, {}, "synthetic")
  match validateLlmOutput output with
  | some validated => (validated, usage, model)
  | none => (answers.synthetic, usage, model ++ "_fallback")

def valueColumn : Json → Except PyException ℚ
  | .num q => .ok q
  | .bool b => .ok (if b then 1 else 0)
  | _ => .error (.databaseError "scores: expected a number")

def rationaleColumn : Json → Except PyException (Option String)
  | .str s => .ok (some s)
  | .null => .ok none
  | _ => .error (.databaseError "scores: expected a string")

def asDict : Json → Except PyException Dict
  | .obj d => .ok d
  | _ => .error (.typeError "object has no attribute 'get'")

def newScore (runId : UUID) (run : EvaluationRun) (scores : Dict) (usage : TokenUsage)
    (model : String) (dimension : String × ℚ) : Except PyException Score := do
  let data ← asDict ((find dimension.1 scores).getD (.obj []))
  let value ← valueColumn ((find "value" data).getD (.num (1 / 2)))
  let rationale ← rationaleColumn ((find "rationale" data).getD (.str ""))
  return {
    evaluationRunId := runId
    organizationId := run.organizationId
    dimension := dimension.1
    value
    weight := dimension.2
    rationale
    breakdown := [("model_used", .str model), ("token_usage", usage.json)] }

/-- Step 5, one transaction. -/
def storeScores (runId : UUID) (run : EvaluationRun) (scores : Dict) (usage : TokenUsage)
    (model : String) : Store → List (String × ℚ) → Except PyException Store
  | db, [] => .ok db
  | db, dimension :: rest => do
    let db' ← db.insertScore (← newScore runId run scores usage model dimension)
    storeScores runId run scores usage model db' rest

def rates (model : String) : ℚ × ℚ :=
  if model = "gpt-4-turbo" then (1 / 100000, 3 / 100000)
  else if model = "synthetic" then (0, 0)
  else (1 / 2000000, 3 / 2000000)

def estimateCost (usage : TokenUsage) (model : String) : ℚ :=
  roundTo 6 (usage.promptTokens * (rates model).1 + usage.completionTokens * (rates model).2)

/-- `_run_llm_judge` behind the calls of the models, which get the `prompt`. Its
last transaction, the billing row of the audit log, swallows its own failures
and is left out. -/
def runLlmJudge (db : Store) (runId : UUID) (answers : Answers) :
    Except PyException (Store × Dict) := do
  let run ← scalarOne (db.runs.filter (fun run => decide (run.id = runId)))
  let (validated, usage, model) := judge answers
  let scores ← asDict ((find "scores" validated).getD .null)
  let db' ← storeScores runId run scores usage model db dimensionWeights
  return (db', [("status", .str "completed"),
    ("model_used", .str model),
    ("token_usage", usage.json),
    ("estimated_cost_usd", .num (estimateCost usage model)),
    ("scores", .obj scores),
    ("overall_assessment", (find "overall_assessment" validated).getD (.str "")),
    ("key_strengths", (find "key_strengths" validated).getD (.arr [])),
    ("key_risks", (find "key_risks" validated).getD (.arr []))])

end EvalEngine.LlmJudge
