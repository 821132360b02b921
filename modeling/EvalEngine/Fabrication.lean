import EvalEngine.Rounding
import EvalEngine.StageTables

namespace EvalEngine.Fabrication

open EvalEngine.JsonValues EvalEngine.Exceptions EvalEngine.Rounding EvalEngine.RunModel
open EvalEngine.StageTables

/-- The dict that `_assess_claim_risk` returns. -/
structure Risk where
  score : ℚ
  factors : List String

def Risk.json (risk : Risk) : Json :=
  .obj [("score", .num risk.score), ("factors", .arr (risk.factors.map Json.str))]

def inRun (runId : UUID) (claim : Claim) : Bool :=
  decide (claim.evaluationRunId = runId) && claim.deletedAt.isNone

variable (assess : String → String → ℚ → Risk)

def riskOf (claim : Claim) : Risk := assess claim.claimText claim.category claim.confidenceScore

def flagged (claim : Claim) : Bool := decide (1 / 2 < (riskOf assess claim).score)

def verdict (claim : Claim) : String :=
  if 7 / 10 < (riskOf assess claim).score then "disputed" else "unverified"

def riskEvidence (claim : Claim) : Dict :=
  set "fabrication_risk" (riskOf assess claim).json claim.evidence

/-- One turn of the loop; the UPDATE has a transaction of its own, at the time
that the clock shows for the claim. -/
def flagClaim (clock : UUID → Time) (db : Store) (claim : Claim) : Except PyException Store :=
  if flagged assess claim then
    db.assessClaim claim.id (verdict assess claim) (riskEvidence assess claim) (clock claim.id)
  else .ok db

def flaggedJson (claim : Claim) : Json :=
  .obj [("claim_id", .str (uuidText claim.id)),
    ("claim_text", .str claim.claimText),
    ("risk_score", .num (riskOf assess claim).score),
    ("risk_factors", .arr ((riskOf assess claim).factors.map Json.str)),
    ("category", .str claim.category)]

def riskLevel (avgRisk : ℚ) : String :=
  if 3 / 5 < avgRisk then "high" else if 3 / 10 < avgRisk then "medium" else "low"

def summary (claims : List Claim) (crossCheckResult : Dict) : Dict :=
  let avgRisk := (claims.map (fun c => (riskOf assess c).score)).sum / claims.length
  let flaggedClaims := claims.filter (flagged assess)
  [("status", .str "completed"),
    ("fabrication_risk", .str (riskLevel avgRisk)),
    ("average_risk_score", .num (roundTo 4 avgRisk)),
    ("total_claims_analyzed", .num claims.length),
    ("flagged_claims", .num flaggedClaims.length),
    ("flagged", .arr ((flaggedClaims.take 10).map (flaggedJson assess))),
    ("cross_check_contradictions",
      (find "contradictions_found" crossCheckResult).getD (.num 0))]

/-- `_detect_fabrication`, for any pure assessment of a claim's risk. -/
def detectFabrication (clock : UUID → Time) (db : Store) (runId : UUID) (crossCheckResult : Dict) :
    Except PyException (Store × Dict) :=
  match db.claims.filter (inRun runId) with
  | [] => .ok (db, [("status", .str "completed"), ("fabrication_risk", .str "low"),
      ("flagged_claims", .num 0)])
  | claims => (claims.foldlM (flagClaim assess clock) db).map fun db' =>
      (db', summary assess claims crossCheckResult)

end EvalEngine.Fabrication
