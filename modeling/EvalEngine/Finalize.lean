import EvalEngine.Rounding
import EvalEngine.SubmissionModel

namespace EvalEngine.Finalize

open EvalEngine.JsonValues EvalEngine.Exceptions EvalEngine.Rounding EvalEngine.RunModel
open EvalEngine.SubmissionModel

/-- An EVALUATION_COMPLETED row of the audit log. -/
structure CompletionAudit where
  resourceType : String
  resourceId : String
  organizationId : UUID
  changes : Dict

structure WebhookCall where
  url : Json
  eventType : String
  payload : Dict
  orgId : UUID

/-- What `_finalize` reads and changes on behalf of one run. -/
structure World where
  run : EvaluationRun
  submissionStatus : SubmissionStatus
  audit : List CompletionAudit := []
  webhooks : List WebhookCall := []
  refreshes : Nat := 0

/-- The aggregates that steps 1 and 3 query. -/
structure Stats where
  weightedAvg : Option ℚ
  contradictionBuckets : List (String × Nat)
  workerStats : List (String × Nat)

def count (key : String) (counts : List (String × Nat)) : Nat :=
  ((counts.find? (fun kv => kv.1 = key)).map Prod.snd).getD 0

def countsJson (counts : List (String × Nat)) : Json :=
  .obj (counts.map (fun kv => (kv.1, .num kv.2)))

def Stats.penalty (stats : Stats) : ℚ :=
  count "critical" stats.contradictionBuckets * (5 / 100) +
    count "high" stats.contradictionBuckets * (3 / 100) +
    count "medium" stats.contradictionBuckets * (1 / 100)

def Stats.baseScore (stats : Stats) : ℚ := stats.weightedAvg.getD (1 / 2)

def Stats.finalScore (stats : Stats) : ℚ := max 0 (min 1 (roundTo 4 (stats.baseScore - stats.penalty)))

def get (key : String) (default_ : Json) (d : Dict) : Json := (find key d).getD default_

/-- Step 4. -/
def completeRun (stats : Stats) (now : Time) (w : World) : Except PyException World :=
  (transitionStatus (some w.run) w.run.id w.run.version .completed now
    { overallScore := some stats.finalScore
      completedWorkers := some (count "completed" stats.workerStats)
      failedWorkers := some (count "failed" stats.workerStats) }).map
    fun run => { w with run := run }

/-- Step 5. -/
def logAudit (stats : Stats) (llmResult : Dict) (w : World) : World :=
  { w with
    audit := w.audit ++ [
      { resourceType := "evaluation_run"
        resourceId := uuidText w.run.id
        organizationId := w.run.organizationId
        changes :=
          [("final_score", .num stats.finalScore),
            ("base_score", .num stats.baseScore),
            ("penalty", .num stats.penalty),
            ("contradiction_buckets", countsJson stats.contradictionBuckets),
            ("worker_stats", countsJson stats.workerStats),
            ("llm_model_used", get "model_used" (.str "unknown") llmResult),
            ("llm_cost_usd", get "estimated_cost_usd" (.num 0) llmResult)] }] }

def webhookUrl (run : EvaluationRun) : Option Json :=
  (find "webhook_url" run.configSnapshot).filter Json.truthy

/-- Step 6. -/
def sendWebhook (stats : Stats) (llmResult : Dict) (w : World) : World :=
  match webhookUrl w.run with
  | none => w
  | some url =>
    { w with
      webhooks := w.webhooks ++ [
        { url
          eventType := "evaluation.completed"
          payload :=
            [("run_id", .str (uuidText w.run.id)),
              ("submission_id", .str (uuidText w.run.submissionId)),
              ("status", .str "completed"),
              ("final_score", .num stats.finalScore),
              ("scores", get "scores" (.obj []) llmResult),
              ("key_strengths", get "key_strengths" (.arr []) llmResult),
              ("key_risks", get "key_risks" (.arr []) llmResult),
              ("contradictions", countsJson stats.contradictionBuckets)]
          orgId := w.run.organizationId }] }

/-- Step 7. -/
def updateSubmission (w : World) : World := { w with submissionStatus := .evaluated }

/-- Step 8. -/
def triggerRefresh (w : World) : World := { w with refreshes := w.refreshes + 1 }

/-- The transactions and effects behind the one that closes the run. -/
def laterSteps (stats : Stats) (llmResult : Dict) : List (World → World) :=
  [logAudit stats llmResult, sendWebhook stats llmResult, updateSubmission, triggerRefresh]

def runSteps (steps : List (World → World)) (w : World) : World :=
  steps.foldl (fun w step => step w) w

/-- `_finalize` on a worker that dies after the first `crash` of its five
transactions and effects. -/
def finalizeUntil (crash : Nat) (stats : Stats) (llmResult : Dict) (now : Time) (w : World) :
    Except PyException World :=
  if w.run.isTerminal then .ok w
  else match crash with
    | 0 => .ok w
    | crash + 1 =>
      (completeRun stats now w).map (runSteps ((laterSteps stats llmResult).take crash))

/-- `_finalize` from its start to its end. -/
def finalize (stats : Stats) (llmResult : Dict) (now : Time) (w : World) : Except PyException World :=
  finalizeUntil 5 stats llmResult now w

end EvalEngine.Finalize
