import EvalEngine.LlmJudge
import EvalEngine.ScaledProgress

namespace EvalEngine.TaskReports

open EvalEngine.JsonValues EvalEngine.StageTables EvalEngine.Rounding EvalEngine.ScaledProgress
open EvalEngine.LlmJudge (Answers)

/-- The reports inside a `try` whose handler returns: an exception leaves out the rest. -/
def tried (raisedAfter : Option ℕ) (reports : List ℤ) : List ℤ :=
  match raisedAfter with
  | some n => reports.take n
  | none => reports

/-- What `_analyze_github` meets on a way to a normal return. -/
structure GithubAnswers where
  githubUrl : String
  rateStatus : ℕ := 200
  remaining : ℤ := 60
  waitSecs : ℤ := 0
  cachedResult : Bool := false
  repoStatus : ℕ := 200

/-- `github_url.rstrip("/").split("/")`. -/
def parts (githubUrl : String) : List (List Char) :=
  (githubUrl.toList.reverse.dropWhile (· == '/')).reverse.splitOn '/'

def GithubAnswers.rateLimited (a : GithubAnswers) : Bool :=
  decide (a.rateStatus = 200) && decide (a.remaining < 10) && decide (a.waitSecs > 60)

def analyzeGithub (a : GithubAnswers) : List ℤ :=
  if a.githubUrl = "" then []
  else if (parts a.githubUrl).length < 2 then [10]
  else if a.rateLimited then [10, 20]
  else if a.cachedResult then [10, 20, 30, 100]
  else if a.repoStatus ≠ 200 then [10, 20, 30, 45]
  else [10, 20, 30, 45, 60, 70, 80, 90]

structure PitchDeckAnswers where
  pitchDeckUrl : String
  downloaded : Bool := true
  fileSize : Option ℕ := none

/-- A file that is empty or that cannot be read is left without any slide. -/
def analyzePitchDeck (a : PitchDeckAnswers) : List ℤ :=
  if a.pitchDeckUrl = "" then []
  else if !a.downloaded then [10]
  else if a.fileSize.getD 0 = 0 then [10, 30]
  else [10, 30, 50, 70, 90]

structure VideoAnswers where
  videoUrl : String
  contentLength : Option ℕ := none
  readable : ℕ → Bool := fun _ => true
  raisedAfter : Option ℕ := none

/-- `min(80, int(10 + (processed_chunks / total_chunks) * 70))`. -/
def chunkProgress (fl : FloatRounding) (total processed : ℕ) : ℤ :=
  min 80 (truncate (fl.round (10 + share fl processed total 70)))

/-- The loop over the chunks, which skips those that cannot be read. -/
def chunkReports (fl : FloatRounding) (total : ℕ) (readable : ℕ → Bool) : List ℕ → ℕ → List ℤ
  | [], _ => []
  | chunk :: chunks, processed =>
    if readable chunk then
      chunkProgress fl total (processed + 1) :: chunkReports fl total readable chunks (processed + 1)
    else chunkReports fl total readable chunks processed

def totalChunks (contentLength : ℕ) : ℕ := max 1 (contentLength / (1024 * 1024))

def analyzeVideo (fl : FloatRounding) (a : VideoAnswers) : List ℤ :=
  if a.videoUrl = "" then []
  else 5 :: tried a.raisedAfter (
    match a.contentLength with
    | none | some 0 => []
    | some contentLength =>
      10 :: (chunkReports fl (totalChunks contentLength) a.readable
        (List.range (min (totalChunks contentLength) 100)) 0 ++ [85, 90]))

structure WebAnswers where
  websiteUrl : String
  status : ℕ := 200
  raisedAfter : Option ℕ := none

def verifyWeb (a : WebAnswers) : List ℤ :=
  if a.websiteUrl = "" then []
  else 10 :: tried a.raisedAfter (if a.status ≠ 200 then [] else [30, 40, 60, 80])

/-- `BaseEvalTask.run` around an analysis that returns, or with a cached result.
That the four analyses get there is an assumption: `BodyReached` shows that the
tasks as they are defined never do. -/
def runReports (cached : Bool) (body : List ℤ) : List ℤ :=
  if cached then [] else 0 :: (body ++ [100])

/-- `_cross_check`, with the claims that its first step collects. -/
def crossCheck (fl : FloatRounding) (allClaims : List Dict) : List ℤ :=
  if allClaims.length < 2 then [10] else 10 :: 30 :: 50 :: scaled fl 50 40 allClaims.length

/-- `_detect_fabrication`, with the claims of the run. -/
def detectFabrication (fl : FloatRounding) (claims : List Claim) : List ℤ :=
  if claims.isEmpty then [10] else 10 :: 30 :: (scaled fl 30 60 claims.length ++ [95])

def runLlmJudge (answers : Answers) : List ℤ :=
  match answers.primary with
  | .ok _ => [10, 20, 40, 70, 80, 90]
  | .error _ => [10, 20, 40, 50, 70, 80, 90]

/-- `_finalize`, with whether the run is closed at its first and at its second read. -/
def finalizeReports (closed reclosed : Bool) : List ℤ :=
  if closed then [10]
  else if reclosed then [10, 30, 50, 60]
  else [10, 30, 50, 60, 75, 85, 95]

/-- An execution of a task of the pipeline that returns normally. -/
inductive Execution
  | githubAnalysis (cached : Bool) (a : GithubAnswers)
  | pitchDeck (cached : Bool) (a : PitchDeckAnswers)
  | videoAnalysis (cached : Bool) (a : VideoAnswers)
  | webVerification (cached : Bool) (a : WebAnswers)
  | crossCheck (allClaims : List Dict)
  | fabrication (claims : List Claim)
  | llmJudge (answers : Answers)
  | finalize (closed reclosed : Bool)

def Execution.workerType : Execution → String
  | .githubAnalysis _ _ => "github_analysis"
  | .pitchDeck _ _ => "pitch_deck"
  | .videoAnalysis _ _ => "video_analysis"
  | .webVerification _ _ => "web_verification"
  | .crossCheck _ => "cross_check"
  | .fabrication _ => "fabrication_detection"
  | .llmJudge _ => "llm_judge"
  | .finalize _ _ => "finalize"

def Execution.reports (fl : FloatRounding) : Execution → List ℤ
  | .githubAnalysis cached a => runReports cached (analyzeGithub a)
  | .pitchDeck cached a => runReports cached (analyzePitchDeck a)
  | .videoAnalysis cached a => runReports cached (analyzeVideo fl a)
  | .webVerification cached a => runReports cached (verifyWeb a)
  | .crossCheck allClaims => TaskReports.crossCheck fl allClaims
  | .fabrication claims => detectFabrication fl claims
  | .llmJudge answers => runLlmJudge answers
  | .finalize closed reclosed => finalizeReports closed reclosed

/-- The highest report of the task: only the base class writes 100, and only the
analyses are run by it. -/
def ceiling (workerType : String) : ℤ :=
  if workerType = "cross_check" ∨ workerType = "llm_judge" then 90
  else if workerType = "fabrication_detection" ∨ workerType = "finalize" then 95
  else 100

variable {fl : FloatRounding}

theorem climbs_tried {lo hi : ℤ} {l : List ℤ} (raisedAfter : Option ℕ) (h : Climbs lo hi l) :
    Climbs lo hi (tried raisedAfter l) := by
  cases raisedAfter with
  | none => exact h
  | some n => exact h.take n

theorem climbs_analyzeGithub (a : GithubAnswers) : Climbs 0 100 (analyzeGithub a) := by
  unfold analyzeGithub
  repeat' split
  all_goals simp

theorem climbs_analyzePitchDeck (a : PitchDeckAnswers) : Climbs 0 100 (analyzePitchDeck a) := by
  unfold analyzePitchDeck
  repeat' split
  all_goals simp

theorem chunkProgress_mono {total p q : ℕ} (h : p ≤ q) :
    chunkProgress fl total p ≤ chunkProgress fl total q := by
  apply min_le_min_left
  apply truncate_mono
  · apply round_nonneg
    linarith [share_nonneg fl p total 70]
  · apply fl.mono
    linarith [share_mono fl total 70 h]

theorem ten_le_chunkProgress (total p : ℕ) : 10 ≤ chunkProgress fl total p := by
  have hten : truncate (fl.round 10) = 10 := by
    have hexact := fl.exact 10 (by norm_num)
    norm_num at hexact
    rw [hexact, truncate_eq_floor (by norm_num)]
    norm_num
  have hle : truncate (fl.round 10) ≤ truncate (fl.round (10 + share fl p total 70)) := by
    apply truncate_mono (round_nonneg fl (by norm_num))
    apply fl.mono
    linarith [share_nonneg fl p total 70]
  rw [hten] at hle
  exact le_min (by norm_num) hle

theorem climbs_chunkReports (total : ℕ) (readable : ℕ → Bool) (chunks : List ℕ) (processed : ℕ) :
    Climbs (chunkProgress fl total processed) 80
      (chunkReports fl total readable chunks processed) := by
  induction chunks generalizing processed with
  | nil => exact climbs_nil
  | cons chunk chunks ih =>
    unfold chunkReports
    split
    · exact climbs_cons.2 ⟨⟨chunkProgress_mono (Nat.le_succ processed), min_le_left _ _⟩,
        ih (processed + 1)⟩
    · exact ih processed

theorem climbs_analyzeVideo (a : VideoAnswers) : Climbs 0 100 (analyzeVideo fl a) := by
  unfold analyzeVideo
  split
  · exact climbs_nil
  · refine climbs_cons.2 ⟨by norm_num, climbs_tried _ ?_⟩
    split
    · exact climbs_nil
    · exact climbs_nil
    · refine climbs_cons.2 ⟨by norm_num, ?_⟩
      have hchunks : ∀ total chunks, Climbs 10 80 (chunkReports fl total a.readable chunks 0) :=
        fun total chunks => (climbs_chunkReports total a.readable chunks 0).mono
          (ten_le_chunkProgress total 0) (le_refl 80)
      exact (hchunks _ _).append (by simp) (by norm_num) (by norm_num)

theorem climbs_verifyWeb (a : WebAnswers) : Climbs 0 100 (verifyWeb a) := by
  unfold verifyWeb
  split
  · exact climbs_nil
  · refine climbs_cons.2 ⟨by norm_num, climbs_tried _ ?_⟩
    split
    · exact climbs_nil
    · simp

theorem climbs_runReports {body : List ℤ} (cached : Bool) (h : Climbs 0 100 body) :
    Climbs 0 100 (runReports cached body) := by
  unfold runReports
  split
  · exact climbs_nil
  · exact climbs_cons.2 ⟨by norm_num, h.append (by simp) (by norm_num) (by norm_num)⟩

theorem climbs_crossCheck (allClaims : List Dict) : Climbs 0 90 (crossCheck fl allClaims) := by
  unfold crossCheck
  split
  · simp
  · have hloop := @climbs_scaled fl 50 40 allClaims.length (by norm_num)
    simp [hloop]

theorem climbs_detectFabrication (claims : List Claim) :
    Climbs 0 95 (detectFabrication fl claims) := by
  unfold detectFabrication
  split
  · simp
  · have hloop := @climbs_scaled fl 30 60 claims.length (by norm_num)
    have hbody : Climbs 30 95 (scaled fl 30 60 claims.length ++ [95]) :=
      hloop.append (by simp) (by norm_num) (by norm_num)
    simp [hbody]

theorem climbs_runLlmJudge (answers : Answers) : Climbs 0 90 (runLlmJudge answers) := by
  unfold runLlmJudge
  split <;> simp

theorem climbs_finalizeReports (closed reclosed : Bool) :
    Climbs 0 95 (finalizeReports closed reclosed) := by
  cases closed <;> cases reclosed <;> simp [finalizeReports]

/-- The reports of every execution climb, up to the ceiling of its task at most. -/
theorem climbs_reports (e : Execution) : Climbs 0 (ceiling e.workerType) (e.reports fl) := by
  cases e with
  | githubAnalysis cached a => exact climbs_runReports cached (climbs_analyzeGithub a)
  | pitchDeck cached a => exact climbs_runReports cached (climbs_analyzePitchDeck a)
  | videoAnalysis cached a => exact climbs_runReports cached (climbs_analyzeVideo a)
  | webVerification cached a => exact climbs_runReports cached (climbs_verifyWeb a)
  | crossCheck allClaims => exact climbs_crossCheck allClaims
  | fabrication claims => exact climbs_detectFabrication claims
  | llmJudge answers => exact climbs_runLlmJudge answers
  | finalize closed reclosed => exact climbs_finalizeReports closed reclosed

end EvalEngine.TaskReports
