import EvalEngine.Doubles
import EvalEngine.Joins
import EvalEngine.KeyedRows
import EvalEngine.RunModel
import EvalEngine.ServiceTables
import EvalEngine.SubmissionModel
import Mathlib.Algebra.Field.Rat
import Mathlib.Tactic.NormNum

namespace EvalEngine.OrgDashboard

open EvalEngine.Exceptions EvalEngine.Joins EvalEngine.RunModel EvalEngine.ServiceTables
open EvalEngine.SubmissionModel EvalEngine.Doubles EvalEngine.RoundedSums

/-- The tables that the view reads, with their primary keys. -/
structure Database where
  organizations : List Organization
  submissions : List Submission
  evaluationRuns : List EvaluationRun
  organizationIds : (organizations.map Organization.id).Nodup
  submissionIds : (submissions.map Submission.id).Nodup
  evaluationRunIds : (evaluationRuns.map EvaluationRun.id).Nodup

structure Row where
  organizationId : UUID
  organizationName : String
  totalSubmissionsCount : ℕ
  totalEvaluationsCount : ℕ
  averageOverallScore : ℚ
  lastEvaluationDate : Option Time
  deriving DecidableEq, Repr

abbrev JoinedRow := (Organization × Option Submission) × Option EvaluationRun

def onSubmission (o : Organization) (s : Submission) : Bool :=
  decide (s.organizationId = o.id) && s.deletedAt.isNone

def onRun (o : Organization) (er : EvaluationRun) : Bool :=
  decide (er.organizationId = o.id) && er.deletedAt.isNone

/-- FROM and WHERE. -/
def joined (db : Database) : List JoinedRow :=
  (leftJoin (fun row => onRun row.1) (leftJoin onSubmission db.organizations db.submissions)
    db.evaluationRuns).filter fun row => row.1.1.deletedAt.isNone

/-- The score in a column of double precision. -/
def storedScore (er : EvaluationRun) : Option ℚ := er.overallScore.map nearestDouble

/-- SELECT, of a group. The order in which AVG adds up the scores is not specified. -/
def select (plan : Plan ℚ) (group : JoinedRow × List JoinedRow) : Row where
  organizationId := group.1.1.1.id
  organizationName := group.1.1.1.name
  totalSubmissionsCount := countDistinct (group.2.map fun row => row.1.2.map Submission.id)
  totalEvaluationsCount := countDistinct (group.2.map fun row => row.2.map EvaluationRun.id)
  averageOverallScore :=
    (avg nearestDouble plan (group.2.map fun row => row.2.bind storedScore)).getD 0
  lastEvaluationDate := maximum (group.2.map fun row => row.2.map EvaluationRun.updatedAt)

/-- The content of the materialized view after a refresh, which fails if AVG overflows. -/
def orgDashboardStats (plan : Plan ℚ) (db : Database) : List Row :=
  (groupBy (fun row => row.1.1.id) (joined db)).map (select plan)

def liveSubmissions (db : Database) (o : Organization) : List Submission :=
  db.submissions.filter (onSubmission o)

def liveRuns (db : Database) (o : Organization) : List EvaluationRun :=
  db.evaluationRuns.filter (onRun o)

/-- The mean of some scores, 0 if there are none. -/
def mean (scores : List ℚ) : ℚ := if scores = [] then 0 else scores.sum / scores.length

/-- What rounding can have done to the mean of scores that are added up so many times each. -/
def RoundedMean (times : ℕ) (scores : List ℚ) (average : ℚ) : Prop :=
  (scores = [] → average = 0) ∧
    |average - mean scores| ≤
      ((1 + 1 / 2 ^ 53) ^ (times * scores.length) - 1) * mean (scores.map abs) + 2 ^ (-1075 : ℤ)

variable {plan : Plan ℚ} {db : Database} {o : Organization}

/-- The submissions and the runs of an organization multiply. -/
theorem filter_joined (ho : o ∈ db.organizations) (hlive : o.deletedAt = none) :
    (joined db).filter (fun row => decide (row.1.1.id = o.id)) =
      (padded (liveSubmissions db o) ×ˢ padded (liveRuns db o)).map fun p => ((o, p.1), p.2) := by
  have horg : db.organizations.filter (fun o' => decide (o'.id = o.id) && o'.deletedAt.isNone) =
      [o] := by
    have hids : ((db.organizations.filter fun o' => o'.deletedAt.isNone).map Organization.id).Nodup :=
      db.organizationIds.sublist (List.filter_sublist.map _)
    have hids' : ((db.organizations.filter fun o' => o'.deletedAt.isNone).filterMap
        fun o' => some o'.id).Nodup := by
      rwa [List.filterMap_eq_map']
    have hmem : o ∈ db.organizations.filter fun o' => o'.deletedAt.isNone :=
      List.mem_filter.2 ⟨ho, by rw [hlive]; rfl⟩
    rw [← List.filter_filter, ConstrainedTables.Table.filter_eq_find _ _ hids' _ o.id
      fun _ h => congrArg some (of_decide_eq_true h), KeyedRows.find?_key _ hids hmem]
    rfl
  rw [joined, List.filter_filter]
  have houter := filter_leftJoin (fun row => onRun row.1)
    (leftJoin onSubmission db.organizations db.submissions) db.evaluationRuns
    (fun row => decide (row.1.id = o.id) && row.1.deletedAt.isNone)
  have hinner := filter_leftJoin onSubmission db.organizations db.submissions
    (fun o' => decide (o'.id = o.id) && o'.deletedAt.isNone)
  rw [horg] at hinner
  rw [hinner, leftJoin_leftJoin_singleton] at houter
  exact houter

/-- The rows of an organization with these submissions and runs. -/
def product (o : Organization) (submissions : List Submission) (runs : List EvaluationRun) :
    List JoinedRow :=
  (padded submissions ×ˢ padded runs).map fun p => ((o, p.1), p.2)

theorem product_ne_nil (o : Organization) (submissions : List Submission)
    (runs : List EvaluationRun) : product o submissions runs ≠ [] := by
  intro hnil
  have hlength := congrArg List.length hnil
  rw [product, List.length_map, List.length_product, List.length_nil, Nat.mul_eq_zero] at hlength
  obtain hnone | hnone := hlength
  · exact padded_ne_nil _ (List.length_eq_zero_iff.1 hnone)
  · exact padded_ne_nil _ (List.length_eq_zero_iff.1 hnone)

section Aggregates

variable {submissions : List Submission} {runs : List EvaluationRun}

theorem countDistinct_submissions (h : (submissions.map Submission.id).Nodup) :
    countDistinct ((product o submissions runs).map fun row => row.1.2.map Submission.id) =
      submissions.length := by
  rw [product, List.map_map, ← countDistinct_padded h]
  exact countDistinct_congr fun _ => mem_map_fst (padded_ne_nil runs)

theorem countDistinct_runs (h : (runs.map EvaluationRun.id).Nodup) :
    countDistinct ((product o submissions runs).map fun row => row.2.map EvaluationRun.id) =
      runs.length := by
  rw [product, List.map_map, ← countDistinct_padded h]
  exact countDistinct_congr fun _ => mem_map_snd (padded_ne_nil submissions)

theorem maximum_runs :
    maximum ((product o submissions runs).map fun row => row.2.map EvaluationRun.updatedAt) =
      (runs.map EvaluationRun.updatedAt).max? := by
  rw [product, List.map_map, ← maximum_padded]
  exact maximum_congr fun _ => mem_map_snd (padded_ne_nil submissions)

theorem length_padded (submissions : List Submission) :
    (padded submissions).length = max 1 submissions.length := by
  cases submissions with
  | nil => rfl
  | cons s rest =>
    rw [padded, List.length_map, List.length_cons]
    omega

theorem avg_runs :
    RoundedMean (max 1 submissions.length) (runs.filterMap storedScore)
      ((avg nearestDouble plan ((product o submissions runs).map fun row =>
        row.2.bind storedScore)).getD 0) := by
  have hscores : ((padded runs).map fun er => er.bind storedScore).reduceOption =
      runs.filterMap storedScore := by
    rw [reduceOption_padded]
    exact List.filterMap_map
  have hgrid : ∀ q ∈ runs.filterMap storedScore, q ∈ grid := by
    intro q hq
    obtain ⟨er, -, her⟩ := List.mem_filterMap.1 hq
    obtain ⟨score, -, rfl⟩ := Option.map_eq_some_iff.1 her
    exact nearestDouble_mem_grid score
  have hproduct : ((product o submissions runs).map fun row => row.2.bind storedScore) =
      (padded submissions ×ˢ padded runs).map fun p => p.2.bind storedScore := by
    rw [product, List.map_map]
    rfl
  rw [hproduct]
  cases h : runs.filterMap storedScore with
  | nil =>
    have hnone : avg nearestDouble plan
        ((padded submissions ×ˢ padded runs).map fun p => p.2.bind storedScore) = none := by
      rw [avg, reduceOption_map_snd (fun er => Option.bind er storedScore), hscores, h,
        List.flatten_replicate_nil]
    rw [hnone]
    refine ⟨fun _ => rfl, ?_⟩
    rw [Option.getD_none, mean, if_pos rfl, sub_zero, abs_zero, List.map_nil, mean, if_pos rfl,
      mul_zero, zero_add]
    exact (zpow_pos two_pos _).le
  | cons v vs =>
    rw [h] at hscores hgrid
    obtain ⟨m, hm, herror⟩ := avg_map_snd rounds_nearestDouble plan
      (fun er => Option.bind er storedScore) (padded_ne_nil submissions) hscores hgrid
    rw [hm, Option.getD_some]
    refine ⟨fun hnil => absurd hnil (List.cons_ne_nil v vs), ?_⟩
    rwa [mean, if_neg (List.cons_ne_nil v vs), mean, List.map_cons,
      if_neg (List.cons_ne_nil |v| (vs.map abs)), ← List.map_cons, List.length_map,
      ← length_padded]

end Aggregates

/-- The view has one row for a live organization, over the rows of its own. -/
theorem filter_orgDashboardStats (ho : o ∈ db.organizations) (hlive : o.deletedAt = none) :
    ∃ rep : JoinedRow, rep.1.1 = o ∧
      (orgDashboardStats plan db).filter (fun row => decide (row.organizationId = o.id)) =
        [select plan (rep, product o (liveSubmissions db o) (liveRuns db o))] := by
  have hrows : (joined db).filter (fun row => decide (row.1.1.id = o.id)) =
      product o (liveSubmissions db o) (liveRuns db o) := filter_joined ho hlive
  obtain ⟨row, hrow⟩ := List.exists_mem_of_ne_nil _
    (product_ne_nil o (liveSubmissions db o) (liveRuns db o))
  rw [← hrows] at hrow
  obtain ⟨hmem, hid⟩ := List.mem_filter.1 hrow
  have hkey : o.id ∈ (joined db).map fun row => row.1.1.id :=
    of_decide_eq_true hid ▸ List.mem_map_of_mem hmem
  obtain ⟨rep, hrep, hgroup⟩ := filter_groupBy hkey
  rw [hrows] at hrep hgroup
  obtain ⟨p, -, rfl⟩ := List.mem_map.1 hrep
  refine ⟨((o, p.1), p.2), rfl, ?_⟩
  have hselect : ((fun row : Row => decide (row.organizationId = o.id)) ∘ select plan) =
      fun group => decide (group.1.1.1.id = o.id) := rfl
  rw [orgDashboardStats, List.filter_map, hselect, hgroup]
  rfl

/-- Submissions and runs are joined to an organization independently of each other. No count
of its row counts anything twice, and the average is the mean up to the rounding of its sum. -/
theorem stats_of_live (plan : Plan ℚ) (db : Database) (o : Organization)
    (ho : o ∈ db.organizations) (hlive : o.deletedAt = none) :
    ∃ row, (orgDashboardStats plan db).filter (fun row => decide (row.organizationId = o.id)) =
        [row] ∧
      row.organizationName = o.name ∧
      row.totalSubmissionsCount = (liveSubmissions db o).length ∧
      row.totalEvaluationsCount = (liveRuns db o).length ∧
      RoundedMean (max 1 (liveSubmissions db o).length) ((liveRuns db o).filterMap storedScore)
        row.averageOverallScore ∧
      row.lastEvaluationDate = ((liveRuns db o).map EvaluationRun.updatedAt).max? := by
  obtain ⟨rep, rfl, hview⟩ := @filter_orgDashboardStats plan db o ho hlive
  have hsubmissions : ((liveSubmissions db rep.1.1).map Submission.id).Nodup :=
    db.submissionIds.sublist (List.filter_sublist.map _)
  have hruns : ((liveRuns db rep.1.1).map EvaluationRun.id).Nodup :=
    db.evaluationRunIds.sublist (List.filter_sublist.map _)
  exact ⟨_, hview, rfl, countDistinct_submissions hsubmissions, countDistinct_runs hruns, avg_runs,
    maximum_runs⟩

def sampleSubmission (id : UUID) : Submission where
  id := id
  organizationId := 1
  submittedById := none
  startupName := "Acme"
  createdAt := 1
  updatedAt := 1

def sampleRun (id : UUID) (updatedAt : Time) (overallScore : Option ℚ) (deletedAt : Option Time) :
    EvaluationRun where
  id := id
  submissionId := 11
  configId := none
  organizationId := 1
  triggeredById := none
  overallScore := overallScore
  createdAt := 3
  updatedAt := updatedAt
  deletedAt := deletedAt

def acme : Organization := ⟨1, "Acme", "acme", 10, none⟩

/-- Three submissions beside three runs, one of them without a score and one deleted. -/
def sample : Database where
  organizations := [acme, ⟨2, "Gone", "gone", 10, some 5⟩]
  submissions := [sampleSubmission 11, sampleSubmission 12, sampleSubmission 13]
  evaluationRuns := [sampleRun 21 4 (some (1 / 10)) none, sampleRun 22 6 none none,
    sampleRun 23 9 (some 1) (some 10)]
  organizationIds := by decide
  submissionIds := by decide
  evaluationRunIds := by decide

/-- Added up three times and divided by three, 0.1 has become 0.10000000000000002. -/
theorem average_repeated :
    (orgDashboardStats .inOrder sample).map Row.averageOverallScore =
        [7205759403792795 / 2 ^ 56] ∧
      mean ((liveRuns sample acme).filterMap storedScore) = 7205759403792794 / 2 ^ 56 := by
  decide +kernel

theorem stats_of_live_sample :
    ∃ row, (orgDashboardStats .inOrder sample).filter (fun row => decide (row.organizationId = 1)) =
        [row] ∧
      row.totalSubmissionsCount = 3 ∧ row.totalEvaluationsCount = 2 ∧
      RoundedMean 3 [nearestDouble (1 / 10)] row.averageOverallScore ∧
      row.lastEvaluationDate = some 6 := by
  obtain ⟨row, hview, -, hrest⟩ := stats_of_live .inOrder sample acme List.mem_cons_self rfl
  exact ⟨row, hview, hrest⟩

end EvalEngine.OrgDashboard
