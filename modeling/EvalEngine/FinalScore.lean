import Mathlib.Data.Set.Finite.Lemmas
import Mathlib.Data.Set.Finite.List
import EvalEngine.Finalize
import EvalEngine.StageTables
import EvalEngine.WeightedMean

namespace EvalEngine.FinalScore

open EvalEngine.JsonValues EvalEngine.Exceptions EvalEngine.RunModel EvalEngine.Rounding EvalEngine.StageTables
open EvalEngine.Finalize EvalEngine.WeightedMean

/-- The score rows that the queries on a run read. -/
def liveScore (runId orgId : UUID) (score : Score) : Bool :=
  decide (score.evaluationRunId = runId) && decide (score.organizationId = orgId) &&
    score.deletedAt.isNone

def liveContradiction (runId orgId : UUID) (c : Contradiction) : Bool :=
  decide (c.evaluationRunId = runId) && decide (c.organizationId = orgId) && c.deletedAt.isNone

/-- SUM, which is NULL when there is no row. -/
def sqlSum : List ℚ → Option ℚ
  | [] => none
  | q :: qs => some (q :: qs).sum

def computeWeightedAverage (db : Store) (runId orgId : UUID) : Option ℚ :=
  let rows := db.scores.filter (liveScore runId orgId)
  match sqlSum (rows.map (fun s => s.value * s.weight)), sqlSum (rows.map Score.weight) with
  | some weightedSum, some totalWeight =>
    if totalWeight = 0 then none else some (roundTo 4 (weightedSum / totalWeight))
  | _, _ => none

def severityBucket (severity : ℚ) : String :=
  if 8 / 10 < severity then "critical"
  else if 6 / 10 < severity then "high"
  else if 4 / 10 < severity then "medium"
  else "low"

/-- GROUP BY: every key that occurs, with its number of rows. -/
def countGroups (keys : List String) : List (String × Nat) :=
  keys.dedup.map (fun key => (key, keys.count key))

def countBySeverityBucket (db : Store) (runId orgId : UUID) : List (String × Nat) :=
  countGroups ((db.contradictions.filter (liveContradiction runId orgId)).map
    (fun c => severityBucket c.severity))

/-- What step 1 reads. The counts of the workers come with step 3. -/
def statsOf (db : Store) (run : EvaluationRun) (workerStats : List (String × Nat)) : Stats :=
  { weightedAvg := computeWeightedAverage db run.id run.organizationId
    contradictionBuckets := countBySeverityBucket db run.id run.organizationId
    workerStats }

/-- What one contradiction costs. -/
def deduction (severity : ℚ) : ℚ :=
  if 8 / 10 < severity then 5 / 100
  else if 6 / 10 < severity then 3 / 100
  else if 4 / 10 < severity then 1 / 100
  else 0

theorem deduction_mono {s s' : ℚ} (h : s ≤ s') : deduction s ≤ deduction s' := by
  simp only [deduction]
  split_ifs <;> linarith

theorem deduction_nonneg (s : ℚ) : 0 ≤ deduction s := by
  simp only [deduction]
  split_ifs <;> norm_num

theorem count_countGroups (key : String) (keys : List String) :
    count key (countGroups keys) = keys.count key := by
  rw [count, countGroups, List.find?_map]
  cases hfind : keys.dedup.find? ((fun kv : String × Nat => decide (kv.1 = key)) ∘
      fun key => (key, keys.count key)) with
  | none =>
    have hnot : key ∉ keys := by
      intro hmem
      have hne := List.find?_eq_none.1 hfind key (List.mem_dedup.2 hmem)
      simp at hne
    simp [List.count_eq_zero_of_not_mem hnot]
  | some found =>
    have heq : found = key := by simpa using List.find?_some hfind
    simp [heq]

def cost (key : String) : ℚ :=
  if key = "critical" then 5 / 100
  else if key = "high" then 3 / 100
  else if key = "medium" then 1 / 100
  else 0

theorem cost_severityBucket (s : ℚ) : cost (severityBucket s) = deduction s := by
  simp only [severityBucket, deduction]
  split_ifs <;> decide +kernel

theorem sum_cost (keys : List String) :
    (keys.map cost).sum =
      keys.count "critical" * (5 / 100) + keys.count "high" * (3 / 100) +
        keys.count "medium" * (1 / 100) := by
  induction keys with
  | nil => simp
  | cons key keys ih =>
    rw [List.map_cons, List.sum_cons, ih, cost]
    split_ifs with hc hh hm
    · simp [hc]; ring
    · simp [hh]; ring
    · simp [hm]; ring
    · simp [hc, hh, hm]

/-- The penalty adds up what the single contradictions cost. -/
theorem penalty_statsOf (db : Store) (run : EvaluationRun) (workerStats : List (String × Nat)) :
    (statsOf db run workerStats).penalty =
      ((db.contradictions.filter (liveContradiction run.id run.organizationId)).map
        (fun c => deduction c.severity)).sum := by
  have hmap : ∀ cs : List Contradiction, cs.map (fun c => deduction c.severity) =
      (cs.map (fun c => severityBucket c.severity)).map cost := by
    intro cs
    rw [List.map_map]
    apply List.map_congr_left
    intro c _
    exact (cost_severityBucket c.severity).symm
  rw [hmap, sum_cost]
  simp only [Stats.penalty, statsOf, countBySeverityBucket, count_countGroups]

theorem finalScore_mem (stats : Stats) : 0 ≤ stats.finalScore ∧ stats.finalScore ≤ 1 :=
  ⟨le_max_left _ _, max_le zero_le_one (min_le_left _ _)⟩

theorem finalScore_le {stats stats' : Stats} (hbase : stats.baseScore ≤ stats'.baseScore)
    (hpenalty : stats'.penalty ≤ stats.penalty) : stats.finalScore ≤ stats'.finalScore := by
  have hround : roundTo 4 (stats.baseScore - stats.penalty) ≤
      roundTo 4 (stats'.baseScore - stats'.penalty) := roundTo_mono (sub_le_sub hbase hpenalty)
  exact max_le_max le_rfl (min_le_min le_rfl hround)

/-- The base score of a sample. -/
def baseOf (rows : Sample ℚ) : ℚ :=
  if totalWeight rows = 0 then 1 / 2 else roundTo 4 (mean rows)

theorem baseOf_raise {before after : Sample ℚ} {v v' w : ℚ}
    (hw : NonnegWeights (before ++ (v, w) :: after)) (h : v ≤ v') :
    baseOf (before ++ (v, w) :: after) ≤ baseOf (before ++ (v', w) :: after) := by
  have htotal : totalWeight (before ++ (v', w) :: after) =
      totalWeight (before ++ (v, w) :: after) := by simp
  rw [baseOf, baseOf, htotal]
  split
  · exact le_rfl
  · exact roundTo_mono (mean_raise hw h)

section Run

variable (db : Store) (run : EvaluationRun) (workerStats : List (String × Nat))

def scoresOf (scores : List Score) : List Score :=
  scores.filter (liveScore run.id run.organizationId)

def sample (scores : List Score) : Sample ℚ := (scoresOf run scores).map (fun s => (s.value, s.weight))

/-- What the CHECK constraints promise of the live scores. -/
def InRange : Prop :=
  ∀ s ∈ scoresOf run db.scores, (0 ≤ s.value ∧ s.value ≤ 1) ∧ 0 ≤ s.weight ∧ s.weight ≤ 1

theorem nonnegWeights_sample {db : Store} {run : EvaluationRun} (h : InRange db run) :
    NonnegWeights (sample run db.scores) := by
  intro r hr
  obtain ⟨s, hs, rfl⟩ := List.mem_map.1 hr
  exact (h s hs).2.1

theorem sample_append (scores scores' : List Score) :
    sample run (scores ++ scores') = sample run scores ++ sample run scores' := by
  simp [sample, scoresOf]

theorem sample_cons (s : Score) (scores : List Score) :
    sample run (s :: scores) =
      if liveScore run.id run.organizationId s then (s.value, s.weight) :: sample run scores
      else sample run scores := by
  simp only [sample, scoresOf, List.filter_cons]
  split <;> rfl

theorem baseScore_statsOf :
    (statsOf db run workerStats).baseScore = baseOf (sample run db.scores) := by
  have havg : computeWeightedAverage db run.id run.organizationId =
      if totalWeight (sample run db.scores) = 0 then none
      else some (roundTo 4 (mean (sample run db.scores))) := by
    simp only [computeWeightedAverage, sample, scoresOf, mean, totalWeight, weightedSum,
      List.map_map, Function.comp_def]
    cases db.scores.filter (liveScore run.id run.organizationId) with
    | nil => simp [sqlSum]
    | cons s rows => rfl
  rw [Stats.baseScore, statsOf, havg, baseOf]
  split <;> rfl

theorem baseScore_raise (hrange : InRange db run) (before after : List Score) (s : Score) {value : ℚ}
    (h : db.scores = before ++ s :: after) (hle : s.value ≤ value) :
    (statsOf db run workerStats).baseScore ≤
      (statsOf { db with scores := before ++ { s with value := value } :: after } run
        workerStats).baseScore := by
  have hweights := nonnegWeights_sample hrange
  rw [h, sample_append, sample_cons] at hweights
  rw [baseScore_statsOf, baseScore_statsOf, h, sample_append, sample_append, sample_cons, sample_cons]
  by_cases hs : liveScore run.id run.organizationId s
  · have hs' : liveScore run.id run.organizationId { s with value := value } := hs
    rw [if_pos hs] at hweights ⊢
    rw [if_pos hs']
    exact baseOf_raise hweights hle
  · have hs' : ¬ liveScore run.id run.organizationId { s with value := value } := hs
    rw [if_neg hs, if_neg hs']

def contradictionsOf (cs : List Contradiction) : List Contradiction :=
  cs.filter (liveContradiction run.id run.organizationId)

theorem penalty_add (before after : List Contradiction) (c : Contradiction)
    (h : db.contradictions = before ++ after) :
    (statsOf db run workerStats).penalty ≤
      (statsOf { db with contradictions := before ++ c :: after } run workerStats).penalty := by
  rw [penalty_statsOf, penalty_statsOf, h]
  by_cases hc : liveContradiction run.id run.organizationId c
  · simp only [List.filter_append, List.filter_cons_of_pos hc, List.map_append, List.sum_append,
      List.map_cons, List.sum_cons]
    linarith [deduction_nonneg c.severity]
  · simp [List.filter_cons_of_neg hc]

theorem penalty_raise (before after : List Contradiction) (c : Contradiction) {severity : ℚ}
    (h : db.contradictions = before ++ c :: after) (hle : c.severity ≤ severity) :
    (statsOf db run workerStats).penalty ≤
      (statsOf { db with contradictions := before ++ { c with severity := severity } :: after } run
        workerStats).penalty := by
  rw [penalty_statsOf, penalty_statsOf, h]
  by_cases hc : liveContradiction run.id run.organizationId c
  · have hc' : liveContradiction run.id run.organizationId { c with severity := severity } := hc
    simp only [List.filter_append, List.filter_cons_of_pos hc, List.filter_cons_of_pos hc',
      List.map_append, List.sum_append, List.map_cons, List.sum_cons]
    linarith [deduction_mono hle]
  · have hc' : ¬ liveContradiction run.id run.organizationId { c with severity := severity } := hc
    simp [List.filter_cons_of_neg hc, List.filter_cons_of_neg hc']

/-- Mild contradictions cost nothing. -/
theorem penalty_eq_zero (h : ∀ c ∈ contradictionsOf run db.contradictions, c.severity ≤ 4 / 10) :
    (statsOf db run workerStats).penalty = 0 := by
  rw [penalty_statsOf]
  apply List.sum_eq_zero
  intro q hq
  obtain ⟨c, hc, rfl⟩ := List.mem_map.1 hq
  have hle := h c hc
  have hhigh : ¬ 8 / 10 < c.severity := by linarith
  have hmid : ¬ 6 / 10 < c.severity := by linarith
  rw [deduction, if_neg hhigh, if_neg hmid, if_neg (not_lt.2 hle)]

/-- The scores that count in the mean. -/
def weighing (scores : List Score) : List Score :=
  (scoresOf run scores).filter (fun s => decide (0 < s.weight))

variable {db run}

theorem mean_mem (hrange : InRange db run) (low high : ℚ)
    (hpos : 0 < totalWeight (sample run db.scores))
    (hb : ∀ s ∈ weighing run db.scores, low ≤ s.value ∧ s.value ≤ high) :
    low ≤ mean (sample run db.scores) ∧ mean (sample run db.scores) ≤ high := by
  have hrow : ∀ r ∈ sample run db.scores, 0 < r.2 → low ≤ r.1 ∧ r.1 ≤ high := by
    intro r hr hw
    obtain ⟨s, hs, rfl⟩ := List.mem_map.1 hr
    exact hb s (List.mem_filter.2 ⟨hs, decide_eq_true hw⟩)
  have hweights := nonnegWeights_sample hrange
  exact ⟨le_mean hweights hpos (fun r hr hw => (hrow r hr hw).1),
    mean_le hweights hpos (fun r hr hw => (hrow r hr hw).2)⟩

/-- Without a penalty, the final score is the rounded mean. -/
theorem finalScore_eq_mean (hrange : InRange db run)
    (hmild : ∀ c ∈ contradictionsOf run db.contradictions, c.severity ≤ 4 / 10)
    (hpos : 0 < totalWeight (sample run db.scores)) :
    (statsOf db run workerStats).finalScore = roundTo 4 (mean (sample run db.scores)) := by
  have hunit : ∀ s ∈ weighing run db.scores, (0 : ℚ) ≤ s.value ∧ s.value ≤ 1 :=
    fun s hs => (hrange s (List.mem_filter.1 hs).1).1
  obtain ⟨hlow, hhigh⟩ := mean_mem hrange 0 1 hpos hunit
  have hmem : ((0 : ℤ) : ℚ) ≤ roundTo 4 (mean (sample run db.scores)) ∧
      roundTo 4 (mean (sample run db.scores)) ≤ ((1 : ℤ) : ℚ) :=
    roundTo_mem (by simpa using hlow) (by simpa using hhigh)
  rw [Int.cast_zero, Int.cast_one] at hmem
  rw [Stats.finalScore, penalty_eq_zero db run workerStats hmild, baseScore_statsOf, baseOf,
    if_neg hpos.ne', sub_zero, roundTo_roundTo, min_eq_right hmem.2, max_eq_right hmem.1]

/-- The final score is in the unit interval, falls with every contradiction and
every severity, rises with every value, and is the rounded mean, between the
extreme values that count, when there is nothing to deduct. -/
theorem finalScore_arithmetic (db : Store) (run : EvaluationRun) (workerStats : List (String × Nat))
    (hrange : InRange db run) :
    (0 ≤ (statsOf db run workerStats).finalScore ∧ (statsOf db run workerStats).finalScore ≤ 1) ∧
    (∀ before after c, db.contradictions = before ++ after →
      (statsOf { db with contradictions := before ++ c :: after } run workerStats).finalScore ≤
        (statsOf db run workerStats).finalScore) ∧
    (∀ before after c severity, db.contradictions = before ++ c :: after → c.severity ≤ severity →
      (statsOf { db with contradictions := before ++ { c with severity := severity } :: after } run
        workerStats).finalScore ≤ (statsOf db run workerStats).finalScore) ∧
    (∀ before after s value, db.scores = before ++ s :: after → s.value ≤ value →
      (statsOf db run workerStats).finalScore ≤
        (statsOf { db with scores := before ++ { s with value := value } :: after } run
          workerStats).finalScore) ∧
    ((∀ c ∈ contradictionsOf run db.contradictions, c.severity ≤ 4 / 10) →
      (∃ s ∈ scoresOf run db.scores, 0 < s.weight) →
      (statsOf db run workerStats).finalScore = roundTo 4 (mean (sample run db.scores)) ∧
        ∃ low ∈ weighing run db.scores, ∃ high ∈ weighing run db.scores,
          (∀ s ∈ weighing run db.scores, low.value ≤ s.value ∧ s.value ≤ high.value) ∧
          low.value ≤ mean (sample run db.scores) ∧ mean (sample run db.scores) ≤ high.value ∧
          roundTo 4 low.value ≤ (statsOf db run workerStats).finalScore ∧
          (statsOf db run workerStats).finalScore ≤ roundTo 4 high.value) := by
  refine ⟨finalScore_mem _, ?_, ?_, ?_, ?_⟩
  · intro before after c h
    apply finalScore_le
    · rw [baseScore_statsOf, baseScore_statsOf]
    · exact penalty_add db run workerStats before after c h
  · intro before after c severity h hle
    apply finalScore_le
    · rw [baseScore_statsOf, baseScore_statsOf]
    · exact penalty_raise db run workerStats before after c h hle
  · intro before after s value h hle
    apply finalScore_le
    · exact baseScore_raise db run workerStats hrange before after s h hle
    · rw [penalty_statsOf, penalty_statsOf]
  · rintro hmild ⟨s, hs, hweight⟩
    have hpos : 0 < totalWeight (sample run db.scores) :=
      totalWeight_pos (nonnegWeights_sample hrange) ⟨_, List.mem_map_of_mem hs, hweight⟩
    have heq := finalScore_eq_mean workerStats hrange hmild hpos
    have hne : Set.Nonempty {s | s ∈ weighing run db.scores} :=
      ⟨s, List.mem_filter.2 ⟨hs, decide_eq_true hweight⟩⟩
    have hfinite : Set.Finite {s | s ∈ weighing run db.scores} := List.finite_toSet _
    obtain ⟨low, hlow, hleast⟩ := Set.exists_min_image _ Score.value hfinite hne
    obtain ⟨high, hhigh, hgreatest⟩ := Set.exists_max_image _ Score.value hfinite hne
    have hextreme : ∀ s ∈ weighing run db.scores, low.value ≤ s.value ∧ s.value ≤ high.value :=
      fun s hs => ⟨hleast s hs, hgreatest s hs⟩
    obtain ⟨hge, hle⟩ := mean_mem hrange low.value high.value hpos hextreme
    refine ⟨heq, low, hlow, high, hhigh, hextreme, hge, hle, ?_, ?_⟩
    · rw [heq]
      exact roundTo_mono hge
    · rw [heq]
      exact roundTo_mono hle

end Run

def judgedRun : EvaluationRun :=
  { id := 1, submissionId := 2, configId := none, organizationId := 3, triggeredById := none
    createdAt := 10, updatedAt := 10 }

def tractionScore : Score :=
  { evaluationRunId := 1, organizationId := 3, dimension := "traction", value := 6 / 10
    weight := 15 / 100, rationale := none, breakdown := [] }

def doubt : Contradiction :=
  { id := 9, evaluationRunId := 1, organizationId := 3, claimAId := 4, claimBId := 5
    contradictionType := "numerical", severity := 4 / 10, explanation := "" }

def judgedStore : Store :=
  { runs := [judgedRun], claims := [], contradictions := [doubt]
    scores := [tractionScore, { tractionScore with dimension := "overall", value := 8 / 10, weight := 1 / 10 }]
    nextId := 1, keys := List.nodup_nil, fresh := fresh_nil }

theorem finalScore_arithmetic_judged :
    (statsOf judgedStore judgedRun []).finalScore = 68 / 100 ∧
      (statsOf { judgedStore with contradictions := [{ doubt with severity := 1 }] } judgedRun
        []).finalScore ≤ (statsOf judgedStore judgedRun []).finalScore := by
  have hrange : InRange judgedStore judgedRun := by
    intro s hs
    have hmem : s ∈ judgedStore.scores := (List.mem_filter.1 hs).1
    simp only [judgedStore, List.mem_cons, List.not_mem_nil, or_false] at hmem
    obtain rfl | rfl := hmem <;> norm_num [tractionScore]
  obtain ⟨-, -, hraise, -, hmean⟩ := finalScore_arithmetic judgedStore judgedRun [] hrange
  constructor
  · have hmild : ∀ c ∈ contradictionsOf judgedRun judgedStore.contradictions, c.severity ≤ 4 / 10 := by
      intro c hc
      obtain rfl := List.mem_singleton.1 (List.mem_filter.1 hc).1
      exact le_rfl
    have hweighs : ∃ s ∈ scoresOf judgedRun judgedStore.scores, 0 < s.weight :=
      ⟨tractionScore, by simp [scoresOf, judgedStore, liveScore, tractionScore, judgedRun],
        by norm_num [tractionScore]⟩
    rw [(hmean hmild hweighs).1]
    decide +kernel
  · exact hraise [] [] doubt 1 rfl (by norm_num [doubt])

end EvalEngine.FinalScore
