import EvalEngine.DetectContradiction
import EvalEngine.StoredFindings

namespace EvalEngine.ClaimsKept

open EvalEngine.JsonValues EvalEngine.Exceptions EvalEngine.QueryResults EvalEngine.RunModel
open EvalEngine.StageTables EvalEngine.CrossCheck EvalEngine.Fabrication EvalEngine.StageContracts
open EvalEngine.DetectContradiction EvalEngine.StoredFindings EvalEngine.ExceptLists
open EvalEngine.LlmJudge (promptClaims)

/-- The claims that the fabrication analysis and the judge start from. -/
def claimsOf (db : Store) (runId : UUID) : List Claim := db.claims.filter (inRun runId)

def totalAnalyzed (report : Dict) : Json := CrossCheck.get "total_claims_analyzed" (.num 0) report

/-- The stored claims of the run are the extracted ones, a row each, and the
fabrication analysis works on all of them. -/
structure Stored (run : EvaluationRun) (claims : List Dict) (db' : Store) : Prop where
  rows : ∃ rows, claims.mapM (newClaim run) = .ok rows ∧
    ((claimsOf db' run.id).map unsaved).Perm rows
  analyzed : ∀ assess clock crossCheckResult db'' report,
    detectFabrication assess clock db' run.id crossCheckResult = .ok (db'', report) →
      totalAnalyzed report = .num claims.length

/-- The judge reads all claims, and its prompt lists the first fifty. -/
structure Kept (run : EvaluationRun) (claims : List Dict) (db' : Store) : Prop where
  stored : Stored run claims db'
  judged : ∀ order, order.Perm (claimsOf db' run.id) → order.length = claims.length ∧
    ∃ rest, order = promptClaims order ++ rest ∧ (promptClaims order).length = min 50 claims.length

theorem totalAnalyzed_detectFabrication {assess : String → String → ℚ → Risk} {clock : UUID → Time}
    {db db' : Store} {runId : UUID} {crossCheckResult report : Dict}
    (h : detectFabrication assess clock db runId crossCheckResult = .ok (db', report)) :
    totalAnalyzed report = .num (claimsOf db runId).length := by
  rw [claimsOf]
  simp only [detectFabrication] at h
  split at h
  next hnone =>
    cases h
    rw [hnone]
    rfl
  next =>
    obtain ⟨db'', _, hresult⟩ := map_eq_ok.1 h
    cases hresult
    rfl

theorem stored_iff {run : EvaluationRun} {claims : List Dict} {db' : Store} :
    Stored run claims db' ↔ ∃ rows, claims.mapM (newClaim run) = .ok rows ∧
      ((claimsOf db' run.id).map unsaved).Perm rows := by
  constructor
  · exact Stored.rows
  · rintro ⟨rows, hrows, hperm⟩
    refine ⟨⟨rows, hrows, hperm⟩, ?_⟩
    intro assess clock crossCheckResult db'' report h
    have hlength := hperm.length_eq
    rw [List.length_map, mapM_length hrows] at hlength
    rw [totalAnalyzed_detectFabrication h, hlength]

theorem Stored.length {run : EvaluationRun} {claims : List Dict} {db' : Store}
    (h : Stored run claims db') : (claimsOf db' run.id).length = claims.length := by
  obtain ⟨rows, hrows, hperm⟩ := h.rows
  have hlength := hperm.length_eq
  rwa [List.length_map, mapM_length hrows] at hlength

variable {detect : String → String → Option Finding}

/-- The only claim of a run is neither stored nor analyzed. -/
theorem single_claim_dropped :
    crossCheck detectContradiction comparedStore 1 (resultsWith ["10 people"]) =
        .ok (comparedStore, [("status", .str "completed"), ("contradictions_found", .num 0),
          ("claims_analyzed", .num 1)]) ∧
      ¬ Stored comparedRun [taggedClaim "10 people"] comparedStore := by
  constructor
  · rfl
  · intro h
    exact absurd h.length (by decide)

end EvalEngine.ClaimsKept
