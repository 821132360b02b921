import EvalEngine.CsvText
import EvalEngine.ExportCompleteness

namespace EvalEngine.CsvExports

open EvalEngine.JsonValues EvalEngine.Exceptions EvalEngine.RunModel EvalEngine.StageTables
open EvalEngine.ReadServices EvalEngine.ResultService EvalEngine.CsvText
open EvalEngine.Noninterference (Read bind_run)
open EvalEngine.PipelineDatabase (State)

/-- What a writer of the default dialect leaves in its buffer. -/
def csvText (rows : List (List String)) : String :=
  String.ofList (writerows excel (rows.map (List.map String.toList)))

def readCsv (text : String) : List (List String) :=
  (readRows excel text.toList).map (List.map String.ofList)

section Files

-- `str` of a float.
variable (numberText : ℚ → String)

/-- A missing text is written as an empty field. -/
def textField (text : Option String) : String := text.getD ""

def csvFields : String × ℚ × ℚ × Option String → List String
  | (dimension, value, weight, rationale) =>
    [dimension, numberText value, numberText weight, textField rationale]

/-- The file of `export_results`. -/
def csvFile (rows : List (String × ℚ × ℚ × Option String)) : String :=
  csvText (["dimension", "value", "weight", "rationale"] :: rows.map (csvFields numberText))

def summarySection (run : EvaluationRun) : List (List String) :=
  [["Evaluation summary", uuidText run.id, run.status.value],
    ["Overall Score", (run.overallScore.map numberText).getD "None"]]

def scoreFields (s : Score) : List String :=
  [s.dimension, numberText s.value, numberText s.weight, textField s.rationale]

def scoreSection (scores : List Score) : List (List String) :=
  ["SCORE DIMENSION", "VALUE", "WEIGHT", "RATIONALE"] :: scores.map (scoreFields numberText)

def claimFields (c : Claim) : List String :=
  [c.claimText, c.category, numberText c.confidenceScore, textField c.sourceReference, c.verificationStatus]

def claimSection (claims : List Claim) : List (List String) :=
  ["CLAIM TEXT", "CATEGORY", "CONFIDENCE", "SOURCE", "VERIFICATION_STATUS"] ::
    claims.map (claimFields numberText)

/-- The document of `_export_results`, with a blank line after each of the first two sections. -/
def csvContent (run : EvaluationRun) (scores : List Score) (claims : List Claim) : String :=
  csvText (summarySection numberText run ++ [] :: (scoreSection numberText scores ++
    [] :: claimSection numberText claims))

/-- What the task returns. -/
inductive TaskResult
  | error (reason : String)
  | completed (format : String) (sizeBytes : ℕ) (downloadUrl s3Key : String)

def claimsOf (runId : UUID) (s : State) : List Claim :=
  s.store.claims.filter fun c => decide (c.evaluationRunId = runId)

def scoresOf (runId : UUID) (s : State) : List Score :=
  s.store.scores.filter fun score => decide (score.evaluationRunId = runId)

/-- `_export_results`: the rows of a run, deleted ones included. -/
def exportTask (runId : UUID) (format : String) (s : State) : TaskResult :=
  match s.runs.rows.find? (fun run => decide (run.id = runId)) with
  | none => .error "Run not found"
  | some run =>
    let content := csvContent numberText run (scoresOf runId s) (claimsOf runId s)
    let s3Key := "exports/" ++ uuidText run.organizationId ++ "/" ++ uuidText runId ++ ".csv"
    .completed format content.length
      ("https://mock-s3-bucket.s3.amazonaws.com/" ++ s3Key ++ "?signature=mock") s3Key

end Files

variable {numberText : ℚ → String} {ctx : ReadContext} {runId orgId : UUID} {s : State}

theorem map_ofList_toList (rows : List (List String)) :
    (rows.map (List.map String.toList)).map (List.map String.ofList) = rows := by
  simp [List.map_map, Function.comp_def]

theorem readCsv_csvText (rows : List (List String)) : readCsv (csvText rows) = rows := by
  rw [readCsv, csvText, String.toList_ofList, readRows_writerows, map_ofList_toList]

/-- Sections without blank lines are told apart by the blank lines between them. -/
theorem splitOnP_sections {first second third : List (List String)} (hfirst : [] ∉ first)
    (hsecond : [] ∉ second) (hthird : [] ∉ third) :
    (first ++ [] :: (second ++ [] :: third)).splitOnP List.isEmpty = [first, second, third] := by
  have hblank : ∀ {rows : List (List String)}, [] ∉ rows → ∀ row ∈ rows, row.isEmpty = false := by
    intro rows hrows row hrow
    exact List.isEmpty_eq_false_iff.2 fun hempty => hrows (hempty ▸ hrow)
  rw [List.splitOnP_append_cons_of_forall_mem (hblank hfirst) [] rfl,
    List.splitOnP_append_cons_of_forall_mem (hblank hsecond) [] rfl,
    List.splitOnP_eq_singleton (hblank hthird)]

theorem summarySection_blank (run : EvaluationRun) : [] ∉ summarySection numberText run := by
  simp [summarySection]

theorem scoreSection_blank (scores : List Score) : [] ∉ scoreSection numberText scores := by
  simp [scoreSection, scoreFields]

theorem claimSection_blank (claims : List Claim) : [] ∉ claimSection numberText claims := by
  simp [claimSection, claimFields]

theorem csvContent_sections (run : EvaluationRun) (scores : List Score) (claims : List Claim) :
    (readCsv (csvContent numberText run scores claims)).splitOnP List.isEmpty =
      [summarySection numberText run, scoreSection numberText scores, claimSection numberText claims] := by
  rw [csvContent, readCsv_csvText]
  exact splitOnP_sections (summarySection_blank run) (scoreSection_blank scores) (claimSection_blank claims)

/-- The scores that an export has looked up. -/
def exportedScores (ctx : ReadContext) (runId orgId : UUID) (s : State) : List Score :=
  orderBy (fun a b => ctx.collate a.dimension b.dimension) (s.store.scores.filter (isScoreOf runId orgId))

theorem exists_of_bind {α β : Type} {m : Query α} {k : α → Query β} {b : β} (h : (m >>= k) s = .ok b) :
    ∃ a, m s = .ok a ∧ k a s = .ok b := by
  rw [bind_run] at h
  cases hm : m s with
  | error e =>
    rw [hm] at h
    cases h
  | ok a =>
    rw [hm] at h
    exact ⟨a, rfl, h⟩

theorem getScoresForRun_eq {scores : List Score} (h : getScoresForRun ctx runId orgId s = .ok scores) :
    scores = exportedScores ctx runId orgId s := by
  obtain ⟨_, _, hselect⟩ := exists_of_bind h
  cases hselect
  rfl

/-- The object of an export in a format, when it does not raise. -/
theorem exportResults_data {fmt : String} {result : Export}
    (h : exportResults ctx runId orgId fmt s = .ok result) :
    ∃ payload, result.data = exportData fmt payload (exportedScores ctx runId orgId s) := by
  obtain ⟨run, _, h⟩ := exists_of_bind h
  obtain ⟨workers, _, h⟩ := exists_of_bind h
  obtain ⟨⟨claims, total⟩, _, h⟩ := exists_of_bind h
  obtain ⟨contradictions, _, h⟩ := exists_of_bind h
  obtain ⟨scores, hscores, h⟩ := exists_of_bind h
  obtain ⟨_, _, h⟩ := exists_of_bind h
  obtain ⟨_, _, h⟩ := exists_of_bind h
  cases h
  rw [← getScoresForRun_eq hscores]
  exact ⟨_, rfl⟩

theorem exportTask_completed {format format' url key : String} {sizeBytes : ℕ}
    (h : exportTask numberText runId format s = .completed format' sizeBytes url key) :
    ∃ run ∈ s.runs.rows, run.id = runId ∧
      sizeBytes = (csvContent numberText run (scoresOf runId s) (claimsOf runId s)).length := by
  unfold exportTask at h
  split at h
  · cases h
  · rename_i run hfind
    cases h
    exact ⟨run, List.mem_of_find?_eq_some hfind, by simpa using List.find?_some hfind, rfl⟩

/-- Both files are read back as the rows of the database that they were made
from: no text of a score or of a claim adds, hides or moves a row, and the
sections of the document end where they should. -/
theorem exports_read_back (numberText : ℚ → String) (ctx : ReadContext) (runId orgId : UUID) (s : State) :
    (∀ result, exportResults ctx runId orgId "csv" s = .ok result → ∃ rows, result.data = .csv rows ∧
      readCsv (csvFile numberText rows) = ["dimension", "value", "weight", "rationale"] ::
        (exportedScores ctx runId orgId s).map (scoreFields numberText)) ∧
    ∀ format format' sizeBytes url key,
      exportTask numberText runId format s = .completed format' sizeBytes url key →
      ∃ run ∈ s.runs.rows, run.id = runId ∧
        sizeBytes = (csvContent numberText run (scoresOf runId s) (claimsOf runId s)).length ∧
        (readCsv (csvContent numberText run (scoresOf runId s) (claimsOf runId s))).splitOnP List.isEmpty =
          [summarySection numberText run, scoreSection numberText (scoresOf runId s),
            claimSection numberText (claimsOf runId s)] := by
  constructor
  · intro result hresult
    obtain ⟨payload, hdata⟩ := exportResults_data hresult
    refine ⟨_, hdata, ?_⟩
    rw [csvFile, readCsv_csvText, List.map_map]
    rfl
  · intro format format' sizeBytes url key htask
    obtain ⟨run, hrun, hid, hsize⟩ := exportTask_completed htask
    exact ⟨run, hrun, hid, hsize, csvContent_sections run _ _⟩

section Sample

open EvalEngine.ClaimPages (twoClaims)
open EvalEngine.ExportCompleteness (sampleContext sampleContext_answers exportResults_ok)

/-- A rationale with a comma, quotes and a line break. -/
def quotedScore : Score where
  evaluationRunId := 1
  organizationId := 1
  dimension := "traction"
  value := 1 / 2
  weight := 15 / 100
  rationale := some "users, \"10x\"\nthis year"
  breakdown := []

def scored : State := { twoClaims with store := { twoClaims.store with scores := [quotedScore] } }

def sampleText (q : ℚ) : String := if q = 1 / 2 then "0.5" else "0.15"

/-- Both exports of the run complete, and one row is read back from the file and
two claims from the document. -/
theorem exports_read_back_quoted :
    (∃ result rows, exportResults sampleContext 1 1 "csv" scored = .ok result ∧ result.data = .csv rows ∧
      readCsv (csvFile sampleText rows) = [["dimension", "value", "weight", "rationale"],
        ["traction", "0.5", "0.15", "users, \"10x\"\nthis year"]]) ∧
    ∃ sizeBytes url key, exportTask sampleText 1 "csv" scored = .completed "csv" sizeBytes url key ∧
      ∃ run ∈ scored.runs.rows, run.id = 1 ∧
        (readCsv (csvContent sampleText run (scoresOf 1 scored) (claimsOf 1 scored))).splitOnP List.isEmpty =
          [summarySection sampleText run, scoreSection sampleText [quotedScore],
            claimSection sampleText twoClaims.store.claims] := by
  constructor
  · obtain ⟨result, _, hok, _⟩ := @exportResults_ok sampleContext 1 1 scored rfl sampleContext_answers "csv"
    obtain ⟨rows, hdata, hread⟩ := (exports_read_back sampleText sampleContext 1 1 scored).1 result hok
    exact ⟨result, rows, hok, hdata, hread.trans (by decide +kernel)⟩
  · obtain ⟨sizeBytes, url, key, htask⟩ : ∃ sizeBytes url key,
        exportTask sampleText 1 "csv" scored = .completed "csv" sizeBytes url key := ⟨_, _, _, rfl⟩
    obtain ⟨run, hrun, hid, _, hsections⟩ :=
      (exports_read_back sampleText sampleContext 1 1 scored).2 _ _ _ _ _ htask
    exact ⟨sizeBytes, url, key, htask, run, hrun, hid, hsections⟩

end Sample

end EvalEngine.CsvExports
