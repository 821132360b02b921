import EvalEngine.ClaimRisk
import EvalEngine.StageRedelivery
import EvalEngine.TopSelection

namespace EvalEngine.FabricationReport

open EvalEngine.RunModel (Time)
open EvalEngine.JsonValues EvalEngine.Exceptions EvalEngine.Rounding EvalEngine.StageTables
open EvalEngine.StageContracts EvalEngine.StageRedelivery EvalEngine.Fabrication EvalEngine.ClaimRisk EvalEngine.TopSelection

variable (assess : String → String → ℚ → Risk)

def riskScore (claim : Claim) : ℚ := (riskOf assess claim).score

def flaggedClaims (claims : List Claim) : List Claim := claims.filter (flagged assess)

def meanRisk (claims : List Claim) : ℚ := (claims.map (riskScore assess)).sum / claims.length

/-- The report counts the flagged claims, averages the risk of all and shows
ten of the riskiest. -/
structure ShowsWorst (claims : List Claim) (report : Dict) : Prop where
  counted : find "flagged_claims" report =
    some (.num (claims.filter (fun c => decide (1 / 2 < riskScore assess c))).length)
  averaged : find "average_risk_score" report = some (.num (roundTo 4 (meanRisk assess claims)))
  average_mem : 0 ≤ roundTo 4 (meanRisk assess claims) ∧ roundTo 4 (meanRisk assess claims) ≤ 1
  worst : ∃ chosen left, Top (riskScore assess) 10 (flaggedClaims assess claims) chosen left ∧
    find "flagged" report = some (.arr (chosen.map (flaggedJson assess)))

/-- No claim that is flagged after the tenth is riskier than one of the first ten. -/
def WorstFirst (claims : List Claim) : Prop :=
  Greatest (riskScore assess) ((flaggedClaims assess claims).take 10) ((flaggedClaims assess claims).drop 10)

instance (claims : List Claim) : Decidable (WorstFirst assess claims) :=
  inferInstanceAs (Decidable (Greatest _ _ _))

/-- The risk that an entry of the report shows. -/
def listedRisk : Json → Option Json
  | .obj entry => find "risk_score" entry
  | _ => none

variable {assess} {claims : List Claim}

theorem worstFirst_of_few (h : (flaggedClaims assess claims).length ≤ 10) : WorstFirst assess claims := by
  rw [WorstFirst, List.drop_eq_nil_of_le h]
  exact Greatest.nil_right

theorem riskScores_of_listed {xs ys : List Claim}
    (h : xs.map (flaggedJson assess) = ys.map (flaggedJson assess)) :
    xs.map (riskScore assess) = ys.map (riskScore assess) := by
  have hlisted := congrArg (List.map listedRisk) h
  simp only [List.map_map] at hlisted
  have hinj : Function.Injective (fun q : ℚ => some (Json.num q)) := by
    intro q r hqr
    cases hqr
    rfl
  apply List.map_injective_iff.2 hinj
  simp only [List.map_map]
  exact hlisted

theorem meanRisk_mem (hassess : ∀ text category c, 0 ≤ (assess text category c).score ∧
    (assess text category c).score ≤ 1) (claims : List Claim) :
    0 ≤ meanRisk assess claims ∧ meanRisk assess claims ≤ 1 := by
  have hmem : ∀ q ∈ claims.map (riskScore assess), 0 ≤ q ∧ q ≤ 1 := by
    intro q hq
    obtain ⟨claim, _, rfl⟩ := List.mem_map.1 hq
    exact hassess _ _ _
  have hlow : 0 ≤ (claims.map (riskScore assess)).sum := List.sum_nonneg fun q hq => (hmem q hq).1
  have hhigh : (claims.map (riskScore assess)).sum ≤ claims.length := by
    have hsum := List.sum_le_card_nsmul _ 1 fun q hq => (hmem q hq).2
    simpa using hsum
  have hlength : (0 : ℚ) ≤ claims.length := Nat.cast_nonneg _
  exact ⟨div_nonneg hlow hlength, div_le_one_of_le₀ hhigh hlength⟩

theorem flagged_summary (claims : List Claim) (crossCheckResult : Dict) :
    find "flagged" (summary assess claims crossCheckResult) =
      some (.arr (((flaggedClaims assess claims).take 10).map (flaggedJson assess))) := rfl

theorem showsWorst_summary_iff (hassess : ∀ text category c, 0 ≤ (assess text category c).score ∧
    (assess text category c).score ≤ 1) (claims : List Claim) (crossCheckResult : Dict) :
    ShowsWorst assess claims (summary assess claims crossCheckResult) ↔ WorstFirst assess claims := by
  constructor
  · intro h
    obtain ⟨chosen, left, htop, hlisted⟩ := h.worst
    rw [flagged_summary, Option.some.injEq, Json.arr.injEq] at hlisted
    exact htop.greatest_take (riskScores_of_listed hlisted.symm)
  · intro h
    have hmean := meanRisk_mem hassess claims
    have hround := @roundTo_mem 4 (meanRisk assess claims) 0 1 (by simpa using hmean.1)
      (by simpa using hmean.2)
    exact ⟨rfl, rfl, by simpa using hround, _, _, top_take h, flagged_summary claims crossCheckResult⟩

theorem detectFabrication_claims (clock : UUID → Time) {db : Store} {runId : UUID}
    (crossCheckResult : Dict)
    (hclaims : db.claims.filter (inRun runId) ≠ []) :
    detectFabrication assess clock db runId crossCheckResult =
      ((db.claims.filter (inRun runId)).foldlM (flagClaim assess clock) db).map fun db' =>
        (db', summary assess (db.claims.filter (inRun runId)) crossCheckResult) := by
  rw [detectFabrication]
  split
  next hnone => exact absurd hnone hclaims
  next => rfl

/-- What the assessment of a claim adds to its evidence can be stored. -/
theorem markable_of_storable {py : Interpreter} (hfloat : ∀ q, textStorable (py.floatText q) = true)
    {claim : Claim} (h : dictStorable claim.evidence = true) : Markable (assessClaimRisk py) claim := by
  intro _
  have hkeys : textStorable "fabrication_risk" = true ∧ textStorable "score" = true ∧
      textStorable "factors" = true := by decide +kernel
  have hfactors := factors_storable py hfloat claim.claimText claim.category claim.confidenceScore
  apply dictStorable_set hkeys.1 _ h
  simp only [Risk.json, Json.storable, dictStorable, itemsStorable_texts, riskOf, hfactors, hkeys,
    Bool.and_self]

/-- The analysis of claims with storable evidence gets as far as its report. -/
theorem detectFabrication_reports {py : Interpreter} (hfloat : ∀ q, textStorable (py.floatText q) = true)
    (clock : UUID → Time) {db : Store} {runId : UUID} (crossCheckResult : Dict) (hclaims : db.claims.filter (inRun runId) ≠ [])
    (h : ∀ claim ∈ db.claims.filter (inRun runId), dictStorable claim.evidence = true) :
    ∃ db', detectFabrication (assessClaimRisk py) clock db runId crossCheckResult =
      .ok (db', summary (assessClaimRisk py) (db.claims.filter (inRun runId)) crossCheckResult) := by
  obtain ⟨db', hfold, _⟩ := flagRun_ok (assessClaimRisk py) clock db runId
    fun claim hclaim => markable_of_storable hfloat (h claim hclaim)
  exact ⟨db', by rw [detectFabrication_claims clock crossCheckResult hclaims, hfold]; rfl⟩

/-- The report counts and averages all claims, but it shows the ten that are
flagged first. -/
theorem report_shows_worst_iff (py : Interpreter) (clock : UUID → Time) (db db' : Store) (runId : UUID)
    (crossCheckResult report : Dict) (hclaims : db.claims.filter (inRun runId) ≠ [])
    (h : detectFabrication (assessClaimRisk py) clock db runId crossCheckResult = .ok (db', report)) :
    ShowsWorst (assessClaimRisk py) (db.claims.filter (inRun runId)) report ↔
      WorstFirst (assessClaimRisk py) (db.claims.filter (inRun runId)) := by
  rw [detectFabrication_claims clock crossCheckResult hclaims] at h
  obtain ⟨db'', _, hreport⟩ := map_eq_ok.1 h
  cases hreport
  exact showsWorst_summary_iff (score_mem py) _ crossCheckResult

section Sample

/-- A claim of run 1. -/
def claimOf (id : UUID) (text : String) : Claim :=
  { id, evaluationRunId := 1, submissionId := 2, organizationId := 3, claimText := text,
    category := "traction", sourceReference := none, confidenceScore := 3 / 10 }

def early : List Claim := (List.range 10).map fun i => claimOf (i + 1) "only 5x growth"

def boldest : Claim := claimOf 11 "only 5x growth in 1000"

def earlyStore : Store where
  runs := []
  claims := early
  contradictions := []
  scores := []
  nextId := 12
  keys := by decide +kernel
  fresh := by decide +kernel

def boldStore : Store where
  runs := []
  claims := early ++ [boldest]
  contradictions := []
  scores := []
  nextId := 12
  keys := by decide +kernel
  fresh := by decide +kernel

theorem score_early (id : UUID) :
    riskScore (assessClaimRisk asciiInterpreter) (claimOf id "only 5x growth") = 55 / 100 := by
  have hscore : (assessClaimRisk asciiInterpreter "only 5x growth" "traction" (3 / 10)).score =
      55 / 100 := by decide +kernel
  exact hscore

theorem score_boldest : riskScore (assessClaimRisk asciiInterpreter) boldest = 70 / 100 := by
  have hscore : (assessClaimRisk asciiInterpreter "only 5x growth in 1000" "traction" (3 / 10)).score =
      70 / 100 := by decide +kernel
  exact hscore

theorem sample_claims : ∀ claim ∈ early ++ [boldest], inRun 1 claim = true ∧ claim.evidence = [] ∧
    1 / 2 < riskScore (assessClaimRisk asciiInterpreter) claim := by
  intro claim hclaim
  obtain hearly | hlast := List.mem_append.1 hclaim
  · obtain ⟨i, _, rfl⟩ := List.mem_map.1 hearly
    refine ⟨rfl, rfl, ?_⟩
    rw [score_early]
    norm_num
  · obtain rfl := List.mem_singleton.1 hlast
    refine ⟨rfl, rfl, ?_⟩
    rw [score_boldest]
    norm_num

theorem early_subset : early ⊆ early ++ [boldest] := List.subset_append_left _ _

theorem filter_sample {claims : List Claim} (h : claims ⊆ early ++ [boldest]) :
    claims.filter (inRun 1) = claims :=
  List.filter_eq_self.2 fun claim hclaim => (sample_claims claim (h hclaim)).1

theorem flaggedClaims_sample {claims : List Claim} (h : claims ⊆ early ++ [boldest]) :
    flaggedClaims (assessClaimRisk asciiInterpreter) claims = claims :=
  List.filter_eq_self.2 fun claim hclaim => decide_eq_true (sample_claims claim (h hclaim)).2.2

theorem sample_reported {db : Store} (h : db.claims ⊆ early ++ [boldest]) (hne : db.claims ≠ []) :
    ∃ db', detectFabrication (assessClaimRisk asciiInterpreter) (fun _ => 20) db 1 [] =
      .ok (db', summary (assessClaimRisk asciiInterpreter) (db.claims.filter (inRun 1)) []) := by
  apply detectFabrication_reports floatText_storable (fun _ => 20)
  · rwa [filter_sample h]
  · intro claim hclaim
    rw [(sample_claims claim (h (List.mem_of_mem_filter hclaim))).2.1]
    rfl

theorem length_early : early.length = 10 := by rw [early, List.length_map, List.length_range]

theorem not_worstFirst_bold : ¬ WorstFirst (assessClaimRisk asciiInterpreter) (early ++ [boldest]) := by
  rw [WorstFirst, flaggedClaims_sample (List.Subset.refl _), List.take_left' length_early,
    List.drop_left' length_early]
  intro h
  have hfirst : claimOf 1 "only 5x growth" ∈ early :=
    List.mem_map.2 ⟨0, List.mem_range.2 (by decide), rfl⟩
  have hle := h _ hfirst boldest (List.mem_singleton_self _)
  rw [score_early, score_boldest] at hle
  norm_num at hle

/-- The boldest of eleven flagged claims is not in the report. -/
theorem boldest_left_out : ∃ db' report,
    detectFabrication (assessClaimRisk asciiInterpreter) (fun _ => 20) boldStore 1 [] = .ok (db', report) ∧
      ¬ ShowsWorst (assessClaimRisk asciiInterpreter) (boldStore.claims.filter (inRun 1)) report := by
  obtain ⟨db', h⟩ := @sample_reported boldStore (List.Subset.refl _)
    (List.append_ne_nil_of_right_ne_nil _ (List.cons_ne_nil _ _))
  refine ⟨db', _, h, ?_⟩
  have hfilter : boldStore.claims.filter (inRun 1) = early ++ [boldest] := filter_sample (List.Subset.refl _)
  rw [hfilter, showsWorst_summary_iff (score_mem asciiInterpreter)]
  exact not_worstFirst_bold

/-- Ten flagged claims are all shown. -/
theorem report_shows_worst_iff_ten : ∃ db' report,
    detectFabrication (assessClaimRisk asciiInterpreter) (fun _ => 20) earlyStore 1 [] = .ok (db', report) ∧
      ShowsWorst (assessClaimRisk asciiInterpreter) (earlyStore.claims.filter (inRun 1)) report := by
  have hne : early ≠ [] := List.ne_nil_of_length_eq_add_one length_early
  have hfilter : earlyStore.claims.filter (inRun 1) = early := filter_sample early_subset
  obtain ⟨db', h⟩ := @sample_reported earlyStore early_subset hne
  have hiff := report_shows_worst_iff asciiInterpreter (fun _ => 20) earlyStore db' 1 [] _ (by rwa [hfilter]) h
  refine ⟨db', _, h, hiff.2 ?_⟩
  rw [hfilter]
  apply worstFirst_of_few
  rw [flaggedClaims_sample early_subset, length_early]

end Sample

end EvalEngine.FabricationReport
