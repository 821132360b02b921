import EvalEngine.StageTables

namespace EvalEngine.CrossCheck

open EvalEngine.JsonValues EvalEngine.Exceptions EvalEngine.QueryResults EvalEngine.RunModel
open EvalEngine.StageTables

/-- The dict that `_detect_contradiction` returns for a contradicting pair. -/
structure Finding where
  type : String
  severity : ℚ
  explanation : String

def get (key : String) (default_ : Json) (d : Dict) : Json := (find key d).getD default_

/-- What a `for` loop over a decoded value yields. -/
def iterate : Json → Except PyException (List Json)
  | .arr items => .ok items
  | .obj fields => .ok (fields.map (fun kv => .str kv.1))
  | .str s => .ok (s.toList.map (fun c => .str (String.ofList [c])))
  | _ => .error (.typeError "object is not iterable")

/-- `claim["source_task"] = source`. -/
def tagClaim (source : Json) : Json → Except PyException Dict
  | .obj claim => .ok (set "source_task" source claim)
  | _ => .error (.typeError "object does not support item assignment")

def claimsOf : Json → Except PyException (List Dict)
  | .obj taskResult =>
    (iterate (get "claims" (.arr []) taskResult)).bind fun claims =>
      claims.mapM (tagClaim (get "status" (.str "unknown") taskResult))
  | _ => .ok []

/-- Step 1. -/
def aggregate (parallelResults : List Json) : Except PyException (List Dict) :=
  (parallelResults.mapM claimsOf).map List.flatten

def textColumn : Json → Except PyException String
  | .str s => .ok s
  | _ => .error (.databaseError "claims: expected a string")

def nullableTextColumn : Json → Except PyException (Option String)
  | .null => .ok none
  | value => (textColumn value).map some

def floatColumn : Json → Except PyException ℚ
  | .num q => .ok q
  | .bool b => .ok (if b then 1 else 0)
  | _ => .error (.databaseError "claims: expected a number")

/-- The row for one claim; its id is still to be assigned. -/
def newClaim (run : EvaluationRun) (data : Dict) : Except PyException Claim := do
  let claimText ← textColumn (get "text" (.str "") data)
  let category ← textColumn (get "category" (.str "general") data)
  let confidenceScore ← floatColumn (get "confidence" (.num (1 / 2)) data)
  let sourceReference ← nullableTextColumn (get "source_reference" (.str "") data)
  return {
    id := 0
    evaluationRunId := run.id
    submissionId := run.submissionId
    organizationId := run.organizationId
    claimText, category, confidenceScore, sourceReference
    evidence := [("source_task", get "source_task" (.str "") data)] }

/-- Step 2. -/
def storeClaims (run : EvaluationRun) : Store → List Dict → Except PyException (Store × List Claim)
  | db, [] => .ok (db, [])
  | db, data :: rest => do
    let (db', claim) ← db.insertClaim (← newClaim run data)
    let (db'', claims) ← storeClaims run db' rest
    return (db'', claim :: claims)

def findPair (detect : String → String → Option Finding) (a b : Claim) :
    Option (Claim × Claim × Finding) :=
  if a.category ≠ b.category then none
  else (detect a.claimText b.claimText).map (fun finding => (a, b, finding))

/-- Step 3: every pair of claims once, in the order of the nested loops. -/
def findContradictions (detect : String → String → Option Finding) :
    List Claim → List (Claim × Claim × Finding)
  | [] => []
  | a :: rest => rest.filterMap (findPair detect a) ++ findContradictions detect rest

def newContradiction (run : EvaluationRun) (found : Claim × Claim × Finding) : Contradiction :=
  { id := 0
    evaluationRunId := run.id
    organizationId := run.organizationId
    claimAId := found.1.id
    claimBId := found.2.1.id
    contradictionType := found.2.2.type
    severity := found.2.2.severity
    explanation := found.2.2.explanation }

def storeContradictions (run : EvaluationRun) (db : Store) (found : List (Claim × Claim × Finding)) :
    Except PyException Store :=
  found.foldlM (fun db f => db.insertContradiction (newContradiction run f)) db

def foundJson (found : Claim × Claim × Finding) : Json :=
  .obj [("claim_a", .str found.1.claimText),
    ("claim_b", .str found.2.1.claimText),
    ("type", .str found.2.2.type),
    ("severity", .num found.2.2.severity)]

/-- `_cross_check`, for any pure detector of contradictions between two texts. -/
def crossCheck (detect : String → String → Option Finding) (db : Store) (runId : UUID)
    (parallelResults : List Json) : Except PyException (Store × Dict) := do
  let allClaims ← aggregate parallelResults
  if allClaims.length < 2 then
    return (db, [("status", .str "completed"), ("contradictions_found", .num 0),
      ("claims_analyzed", .num allClaims.length)])
  else
    let run ← scalarOne (db.runs.filter (fun run => decide (run.id = runId)))
    let (db', storedClaims) ← storeClaims run db allClaims
    let contradictions := findContradictions detect storedClaims
    let db'' ← storeContradictions run db' contradictions
    return (db'', [("status", .str "completed"),
      ("claims_stored", .num storedClaims.length),
      ("contradictions_found", .num contradictions.length),
      ("contradictions", .arr ((contradictions.take 20).map foundJson))])

end EvalEngine.CrossCheck
