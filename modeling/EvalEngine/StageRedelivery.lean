import EvalEngine.StageContracts

namespace EvalEngine.StageRedelivery

open EvalEngine.JsonValues EvalEngine.Exceptions EvalEngine.QueryResults EvalEngine.RunModel
open EvalEngine.KeyedRows EvalEngine.StageTables EvalEngine.CrossCheck EvalEngine.Fabrication
open EvalEngine.LlmJudge EvalEngine.StageContracts

variable (detect : String → String → Option Finding) (assess : String → String → ℚ → Risk)

/-- The number of claims that step 1 collects is below the threshold of the early return. -/
def fewClaims (parallelResults : List Json) : Prop :=
  ∃ claims, aggregate parallelResults = .ok claims ∧ claims.length < 2

theorem crossCheck_few (db : Store) (runId : UUID) {results : List Json} (h : fewClaims results) :
    ∃ out, crossCheck detect db runId results = .ok (db, out) := by
  obtain ⟨claims, hagg, hlen⟩ := h
  exact ⟨_, by
    simp only [crossCheck, hagg, bind, Except.bind, pure, Except.pure, if_pos hlen]
    rfl⟩

theorem crossCheck_grows {db db' : Store} {runId : UUID} {results : List Json} {out : Dict}
    (hmany : ¬ fewClaims results) (h : crossCheck detect db runId results = .ok (db', out)) :
    db.claims.length < db'.claims.length := by
  simp only [crossCheck, bind_eq_ok] at h
  obtain ⟨claims, hagg, h⟩ := h
  have hlen : ¬ claims.length < 2 := fun hlt => hmany ⟨claims, hagg, hlt⟩
  simp only [if_neg hlen, bind_eq_ok] at h
  obtain ⟨run, _, ⟨db₁, stored⟩, hstored, db₂, hcontra, hresult⟩ := h
  cases hresult
  obtain ⟨unsaved, hunsaved, hforall, hclaims, _⟩ := storeClaims_ok hstored
  obtain ⟨_, _, _, hsame, _⟩ :=
    storeContradictions_ok (fun _ hf => mem_findContradictions hf) hcontra
  have hmade : unsaved.length = claims.length := mapM_length hunsaved
  have hkept : unsaved.length = stored.length := hforall.length_eq
  rw [hsame, hclaims, List.length_append]
  omega

/-- What one turn of the loop makes of a row, given the claim it was read as. -/
def assessAs (clock : UUID → Time) (claim row : Claim) : Claim :=
  if flagged assess claim then
    row.assessed (verdict assess claim) (riskEvidence assess claim) (clock claim.id)
  else row

def mark (clock : UUID → Time) (claim : Claim) : Claim := assessAs assess clock claim claim

variable (clock clock' : UUID → Time)

theorem assessAs_id (claim row : Claim) : (assessAs assess clock claim row).id = row.id := by
  simp only [assessAs]
  split <;> rfl

theorem riskOf_mark (claim : Claim) : riskOf assess (mark assess clock claim) = riskOf assess claim := by
  simp only [mark, assessAs]
  split <;> rfl

theorem inRun_mark (runId : UUID) (claim : Claim) :
    inRun runId (mark assess clock claim) = inRun runId claim := by
  simp only [mark, assessAs]
  split <;> rfl

theorem flagged_mark (claim : Claim) :
    flagged assess (mark assess clock claim) = flagged assess claim := by
  simp only [flagged, riskOf_mark]

theorem verdict_mark (claim : Claim) :
    verdict assess (mark assess clock claim) = verdict assess claim := by
  simp only [verdict, riskOf_mark]

/-- The same risk is written over itself. -/
theorem riskEvidence_mark (claim : Claim) (h : flagged assess claim = true) :
    riskEvidence assess (mark assess clock claim) = riskEvidence assess claim := by
  have hevidence : (mark assess clock claim).evidence = riskEvidence assess claim := by
    simp [mark, assessAs, h, Claim.assessed]
  rw [riskEvidence, riskOf_mark, hevidence, riskEvidence, set_set]

/-- All that is left of the first marking is what the second one repeats. -/
theorem mark_mark (claim : Claim) :
    mark assess clock' (mark assess clock claim) = mark assess clock' claim := by
  cases h : flagged assess claim with
  | false =>
    have hm : mark assess clock claim = claim := by simp [mark, assessAs, h]
    rw [hm]
  | true =>
    have hf : flagged assess (mark assess clock claim) = true := (flagged_mark assess clock claim).trans h
    have hm : mark assess clock claim =
        claim.assessed (verdict assess claim) (riskEvidence assess claim) (clock claim.id) := by
      simp [mark, assessAs, h]
    have hmm : mark assess clock' (mark assess clock claim) = (mark assess clock claim).assessed
        (verdict assess claim) (riskEvidence assess claim) (clock' claim.id) := by
      rw [mark, assessAs, if_pos hf, verdict_mark, riskEvidence_mark assess clock claim h, hm]
      rfl
    rw [hmm, hm]
    simp [mark, assessAs, h, Claim.assessed]

/-- A marked row shows when it was marked. -/
theorem mark_eq_iff (claim : Claim) : mark assess clock' claim = mark assess clock claim ↔
    (flagged assess claim = true → clock' claim.id = clock claim.id) := by
  cases h : flagged assess claim with
  | false => simp [mark, assessAs, h]
  | true => simp [mark, assessAs, h, Claim.assessed]

/-- A flagged claim can be updated only if its new evidence can be stored. -/
def Markable (claim : Claim) : Prop :=
  flagged assess claim = true → dictStorable (riskEvidence assess claim) = true

theorem update_id (k : UUID) (claims : List Claim) : update Claim.id k (fun c => c) claims = claims := by
  simp [update]

theorem flagClaim_ok {db : Store} {claim : Claim} (h : Markable assess claim) :
    ∃ db', flagClaim assess clock db claim = .ok db' ∧
      db'.claims = update Claim.id claim.id (assessAs assess clock claim) db.claims ∧
      db'.contradictions = db.contradictions ∧ db'.scores = db.scores := by
  cases hf : flagged assess claim with
  | false =>
    have hid : assessAs assess clock claim = fun c => c := by
      funext row
      simp [assessAs, hf]
    exact ⟨db, by simp [flagClaim, hf], by rw [hid, update_id], rfl, rfl⟩
  | true =>
    have hfun : assessAs assess clock claim =
        Claim.assessed (verdict assess claim) (riskEvidence assess claim) (clock claim.id) := by
      funext row
      simp [assessAs, hf]
    have hdb : db.assessClaim claim.id (verdict assess claim) (riskEvidence assess claim)
        (clock claim.id) = .ok _ := if_pos (h hf)
    have hflag : flagClaim assess clock db claim = _ := (if_pos hf).trans hdb
    exact ⟨_, hflag, by rw [hfun], rfl, rfl⟩

variable {clock} in
theorem flagClaim_markable {db db' : Store} {claim : Claim}
    (h : flagClaim assess clock db claim = .ok db') : Markable assess claim := by
  intro hf
  obtain ⟨_, hnot⟩ | ⟨_, hstorable, _⟩ := flagClaim_cases h
  · rw [hf] at hnot
    cases hnot
  · exact hstorable

theorem flagAll_ok (claims : List Claim) (db : Store) (h : ∀ c ∈ claims, Markable assess c) :
    ∃ db', claims.foldlM (flagClaim assess clock) db = .ok db' ∧
      db'.claims = updateAll Claim.id (assessAs assess clock) claims db.claims ∧
      db'.contradictions = db.contradictions ∧ db'.scores = db.scores := by
  induction claims generalizing db with
  | nil => exact ⟨db, rfl, rfl, rfl, rfl⟩
  | cons c claims ih =>
    obtain ⟨db₁, h₁, hc₁, hk₁, hs₁⟩ := flagClaim_ok assess clock (h c (by simp))
    obtain ⟨db₂, h₂, hc₂, hk₂, hs₂⟩ := ih db₁ (fun c' hc' => h c' (List.mem_cons_of_mem _ hc'))
    refine ⟨db₂, ?_, ?_, hk₂.trans hk₁, hs₂.trans hs₁⟩
    · simp only [List.foldlM_cons, h₁, bind, Except.bind]
      exact h₂
    · rw [hc₂, hc₁]
      rfl

theorem flagAll_markable (claims : List Claim) (db db' : Store)
    (h : claims.foldlM (flagClaim assess clock) db = .ok db') : ∀ c ∈ claims, Markable assess c := by
  induction claims generalizing db with
  | nil => simp
  | cons c claims ih =>
    simp only [List.foldlM_cons, bind_eq_ok] at h
    obtain ⟨db₁, hc, hrest⟩ := h
    intro c' hc'
    obtain rfl | hmem := List.mem_cons.1 hc'
    · exact flagClaim_markable assess hc
    · exact ih db₁ hrest c' hmem

theorem detectFabrication_eq (db : Store) (runId : UUID) (result : Dict) :
    ∃ out, detectFabrication assess clock db runId result =
      ((db.claims.filter (inRun runId)).foldlM (flagClaim assess clock) db).map
        (fun db' => (db', out)) := by
  simp only [detectFabrication]
  split
  · rename_i hnil
    exact ⟨_, by rw [hnil]; rfl⟩
  · exact ⟨_, rfl⟩

def markRun (runId : UUID) (claim : Claim) : Claim :=
  if inRun runId claim then mark assess clock claim else claim

theorem inRun_markRun (runId : UUID) (claim : Claim) :
    inRun runId (markRun assess clock runId claim) = inRun runId claim := by
  simp only [markRun]
  split
  · exact inRun_mark assess clock runId claim
  · rfl

theorem markRun_markRun (runId : UUID) (claim : Claim) :
    markRun assess clock' runId (markRun assess clock runId claim) =
      markRun assess clock' runId claim := by
  cases h : inRun runId claim with
  | false =>
    have hm : markRun assess clock runId claim = claim := by simp [markRun, h]
    rw [hm]
  | true =>
    have hm : markRun assess clock runId claim = mark assess clock claim := by simp [markRun, h]
    have hr : inRun runId (mark assess clock claim) = true := (inRun_mark assess clock runId claim).trans h
    rw [hm, markRun, if_pos hr, mark_mark, markRun, if_pos h]

theorem markable_mark {claim : Claim} (h : Markable assess claim) :
    Markable assess (mark assess clock claim) := by
  intro hf
  have hf' : flagged assess claim = true := (flagged_mark assess clock claim).symm.trans hf
  rw [riskEvidence_mark assess clock claim hf']
  exact h hf'

/-- The loop over the claims of a run marks exactly these. -/
theorem flagRun_ok (db : Store) (runId : UUID)
    (h : ∀ c ∈ db.claims.filter (inRun runId), Markable assess c) :
    ∃ db', (db.claims.filter (inRun runId)).foldlM (flagClaim assess clock) db = .ok db' ∧
      db'.claims = db.claims.map (markRun assess clock runId) ∧
      db'.contradictions = db.contradictions ∧ db'.scores = db.scores := by
  obtain ⟨db', hdb, hclaims, hcontra, hscores⟩ := flagAll_ok assess clock _ db h
  refine ⟨db', hdb, ?_, hcontra, hscores⟩
  rw [hclaims, updateAll_filter Claim.id (assessAs_id assess clock) _ _ db.keys]
  rfl

/-- The second execution gets through, and marks what the first one marked at
the times of its own clock. -/
theorem fabrication_again {db db' : Store} {runId : UUID} {result out : Dict}
    (h : detectFabrication assess clock db runId result = .ok (db', out)) :
    db'.claims = db.claims.map (markRun assess clock runId) ∧
      ∃ db'' out', detectFabrication assess clock' db' runId result = .ok (db'', out') ∧
        db''.claims = db.claims.map (markRun assess clock' runId) ∧
        db''.contradictions = db'.contradictions ∧ db''.scores = db'.scores := by
  obtain ⟨out₁, heq⟩ := detectFabrication_eq assess clock db runId result
  rw [heq] at h
  obtain ⟨db₁, hloop, hpair⟩ := map_eq_ok.1 h
  cases hpair
  have hmarkable := flagAll_markable assess clock _ db db' hloop
  obtain ⟨db₂, hdb₂, hclaims, _, _⟩ := flagRun_ok assess clock db runId hmarkable
  obtain rfl : db' = db₂ := by
    rw [hloop] at hdb₂
    cases hdb₂
    rfl
  have hagain : ∀ c ∈ db'.claims.filter (inRun runId), Markable assess c := by
    intro c hc
    obtain ⟨hmem, hin⟩ := List.mem_filter.1 hc
    rw [hclaims] at hmem
    obtain ⟨c₀, hc₀, rfl⟩ := List.mem_map.1 hmem
    have hin₀ : inRun runId c₀ = true := (inRun_markRun assess clock runId c₀).symm.trans hin
    have hm : markRun assess clock runId c₀ = mark assess clock c₀ := if_pos hin₀
    rw [hm]
    exact markable_mark assess clock (hmarkable c₀ (List.mem_filter.2 ⟨hc₀, hin₀⟩))
  obtain ⟨db₃, hdb₃, hclaims₃, hcontra₃, hscores₃⟩ := flagRun_ok assess clock' db' runId hagain
  obtain ⟨out₂, heq₂⟩ := detectFabrication_eq assess clock' db' runId result
  refine ⟨hclaims, db₃, out₂, ?_, ?_, hcontra₃, hscores₃⟩
  · rw [heq₂, hdb₃]
    rfl
  · rw [hclaims₃, hclaims, List.map_map]
    apply List.map_congr_left
    intro c _
    exact markRun_markRun assess clock clock' runId c

/-- The two executions meet each flagged claim of the run at the same time. -/
def SameTimes (runId : UUID) (db : Store) : Prop :=
  ∀ c ∈ db.claims, inRun runId c = true → flagged assess c = true → clock' c.id = clock c.id

theorem markRun_eq_iff (runId : UUID) (db : Store) :
    db.claims.map (markRun assess clock' runId) = db.claims.map (markRun assess clock runId) ↔
      SameTimes assess clock clock' runId db := by
  rw [List.map_inj_left]
  refine forall₂_congr fun c _ => ?_
  cases h : inRun runId c with
  | false => simp [markRun, h]
  | true => simp [markRun, h, mark_eq_iff]

theorem insertScore_scored {db db' : Store} {score : Score} (h : db.insertScore score = .ok db')
    (runId : UUID) (dimension : String) (hs : db.scored runId dimension = true) :
    db'.scored runId dimension = true := by
  obtain ⟨_, hscores, _⟩ := insertScore_ok h
  rw [Store.scored] at hs
  rw [Store.scored, hscores, List.any_append, hs, Bool.true_or]

theorem insertScore_new {db db' : Store} {score : Score} (h : db.insertScore score = .ok db')
    (hlive : score.deletedAt = none) :
    db.scored score.evaluationRunId score.dimension = false ∧
      db'.scored score.evaluationRunId score.dimension = true := by
  obtain ⟨hfree, hscores, _⟩ := insertScore_ok h
  refine ⟨hfree, ?_⟩
  simp [Store.scored, hscores, hlive]

theorem storeScores_scored (runId : UUID) (run : EvaluationRun) (scores : Dict) (usage : TokenUsage)
    (model : String) (dimensions : List (String × ℚ)) (db db' : Store)
    (h : storeScores runId run scores usage model db dimensions = .ok db') (dimension : String)
    (hs : db.scored runId dimension = true) : db'.scored runId dimension = true := by
  induction dimensions generalizing db with
  | nil =>
    cases h
    exact hs
  | cons d dimensions ih =>
    simp only [storeScores, bind_eq_ok] at h
    obtain ⟨score, _, db₁, hins, hrest⟩ := h
    have h₁ := insertScore_scored hins runId dimension hs
    exact ih db₁ hrest h₁

theorem newScore_fields {runId : UUID} {run : EvaluationRun} {scores : Dict} {usage : TokenUsage}
    {model : String} {dimension : String × ℚ} {score : Score}
    (h : newScore runId run scores usage model dimension = .ok score) :
    score.evaluationRunId = runId ∧ score.dimension = dimension.1 ∧ score.deletedAt = none := by
  simp only [newScore, bind_eq_ok] at h
  obtain ⟨_, _, _, _, _, _, hscore⟩ := h
  cases hscore
  exact ⟨rfl, rfl, rfl⟩

/-- Scores that are stored have reserved their first dimension, which was free before. -/
theorem storeScores_reserves {runId : UUID} {run : EvaluationRun} {scores : Dict} {usage : TokenUsage}
    {model : String} {d : String × ℚ} {dimensions : List (String × ℚ)} {db db' : Store}
    (h : storeScores runId run scores usage model db (d :: dimensions) = .ok db') :
    db.scored runId d.1 = false ∧ db'.scored runId d.1 = true := by
  rw [storeScores, bind_eq_ok] at h
  obtain ⟨score, hscore, h⟩ := h
  rw [bind_eq_ok] at h
  obtain ⟨db₁, hins, hrest⟩ := h
  obtain ⟨hrun, hdim, hlive⟩ := newScore_fields hscore
  have hnew := insertScore_new hins hlive
  rw [hrun, hdim] at hnew
  exact ⟨hnew.1, storeScores_scored _ _ _ _ _ _ _ _ hrest _ hnew.2⟩

theorem runLlmJudge_scored {db db' : Store} {runId : UUID} {answers : Answers} {out : Dict}
    (h : runLlmJudge db runId answers = .ok (db', out)) :
    db.scored runId "market_opportunity" = false ∧ db'.scored runId "market_opportunity" = true := by
  simp only [runLlmJudge, bind_eq_ok] at h
  obtain ⟨run, _, scores, _, db₁, hstore, hresult⟩ := h
  cases hresult
  exact storeScores_reserves hstore

inductive Stage
  | crossCheck (parallelResults : List Json)
  | detectFabrication (crossCheckResult : Dict)
  | runLlmJudge (answers : Answers)

/-- One execution of a stage, with the time at which it updates each claim. -/
def execute (runId : UUID) (db : Store) : Stage → Except PyException (Store × Dict)
  | .crossCheck results => CrossCheck.crossCheck detect db runId results
  | .detectFabrication result => Fabrication.detectFabrication assess clock db runId result
  | .runLlmJudge answers => LlmJudge.runLlmJudge db runId answers

/-- A second execution returns normally and leaves the rows as it found them. -/
def Idempotent (runId : UUID) (db : Store) (stage : Stage) : Prop :=
  ∃ db' out, execute detect assess clock runId db stage = .ok (db', out) ∧ SameRows db db'

/-- Nothing is written, or nothing that shows. -/
def Repeatable (runId : UUID) (db : Store) : Stage → Prop
  | .crossCheck results => fewClaims results
  | .detectFabrication _ => SameTimes assess clock clock' runId db
  | .runLlmJudge _ => False

/-- After an execution that has committed, the stages that can be repeated are
exactly these. -/
theorem idempotent_iff (runId : UUID) (db db' : Store) (stage : Stage) (out : Dict)
    (h : execute detect assess clock runId db stage = .ok (db', out)) :
    Idempotent detect assess clock' runId db' stage ↔ Repeatable assess clock clock' runId db stage := by
  cases stage with
  | crossCheck results =>
    constructor
    · rintro ⟨db₂, out₂, h₂, hsame⟩
      by_contra hmany
      have hlt := crossCheck_grows detect hmany h₂
      rw [hsame.claims] at hlt
      exact Nat.lt_irrefl _ hlt
    · intro hfew
      obtain ⟨out₂, h₂⟩ := crossCheck_few detect db' runId hfew
      exact ⟨db', out₂, h₂, rfl, rfl, rfl⟩
  | detectFabrication result =>
    obtain ⟨hclaims, db₂, out₂, h₂, hagain, hcontra, hscores⟩ :=
      fabrication_again assess clock clock' h
    rw [Repeatable, ← markRun_eq_iff, ← hagain, ← hclaims]
    constructor
    · rintro ⟨db₃, out₃, h₃, hsame⟩
      have heq : (db₂, out₂) = (db₃, out₃) := Except.ok.inj (h₂.symm.trans h₃)
      cases heq
      exact hsame.claims
    · intro hsame
      exact ⟨db₂, out₂, h₂, hsame, hcontra, hscores⟩
  | runLlmJudge answers =>
    refine iff_of_false ?_ id
    rintro ⟨db₂, out₂, h₂, _⟩
    have hfirst := (runLlmJudge_scored h).2
    have hsecond := (runLlmJudge_scored h₂).1
    rw [hfirst] at hsecond
    cases hsecond

def scoredRun : EvaluationRun :=
  { id := 1, submissionId := 2, configId := none, organizationId := 3, triggeredById := none
    status := .running, version := 2, createdAt := 10, updatedAt := 11 }

def unscored : Store :=
  { runs := [scoredRun], claims := [], contradictions := [], scores := [], nextId := 1
    keys := List.nodup_nil, fresh := fresh_nil }

def simulatedAnswers : Answers :=
  { primary := .ok (simulatedResponse, { promptTokens := 100, completionTokens := 500
                                         totalTokens := 600 })
    backup := .error (.failure "not called")
    synthetic := [] }

/-- The law as specified, for given analyses of claims and any two times. -/
def StagesIdempotent : Prop :=
  ∀ clock clock' runId db db' stage out, execute detect assess clock runId db stage = .ok (db', out) →
    Idempotent detect assess clock' runId db' stage

theorem judge_commits :
    ∃ db out, runLlmJudge unscored 1 simulatedAnswers = .ok (db, out) := by
  have hok : (runLlmJudge unscored 1 simulatedAnswers).isOk = true := by decide +kernel
  obtain ⟨r, hr⟩ := exists_of_isOk hok
  exact ⟨r.1, r.2, hr⟩

theorem judge_fails_again : ¬ ∃ detect assess, StagesIdempotent detect assess := by
  rintro ⟨detect, assess, h⟩
  obtain ⟨db, out, hfirst⟩ := judge_commits
  obtain ⟨db', out', hsecond, _⟩ := h (fun _ => 20) (fun _ => 30) 1 unscored db
    (.runLlmJudge simulatedAnswers) out hfirst
  have hscored := (runLlmJudge_scored hfirst).2
  have hagain : runLlmJudge db 1 simulatedAnswers = .ok (db', out') := hsecond
  have hfree := (runLlmJudge_scored hagain).1
  rw [hscored] at hfree
  cases hfree

section Sample

def storedClaim (id : UUID) (text : String) : Claim :=
  { id, evaluationRunId := 1, submissionId := 2, organizationId := 3, claimText := text
    category := "traction", sourceReference := none, confidenceScore := 1 / 2 }

/-- The run with two claims of an earlier stage. -/
def withClaims : Store :=
  { runs := [scoredRun], claims := [storedClaim 1 "the only team", storedClaim 2 "a team of four"]
    contradictions := [], scores := [], nextId := 3
    keys := by decide, fresh := by decide }

def riskIfOnly (text _category : String) (_confidence : ℚ) : Risk :=
  if text = "the only team" then ⟨4 / 5, ["Superlative claim: 'only'"]⟩ else ⟨0, []⟩

def disagree (textA textB : String) : Option Finding :=
  if textA = textB then none else some ⟨"numerical", 1 / 2, "different texts"⟩

def claimData (text : String) : Json := .obj [("text", .str text)]

/-- One completed analysis with these claims. -/
def analysisWith (texts : List String) : List Json :=
  [.obj [("status", .str "completed"), ("claims", .arr (texts.map claimData))]]

/-- A second execution, ten seconds later: the flagged claim has a new
`updated_at`, one claim in the results is not stored at all, two of them are
stored again. -/
theorem idempotent_iff_stages :
    (∃ db out, execute disagree riskIfOnly (fun _ => 20) 1 withClaims (.detectFabrication []) =
        .ok (db, out) ∧
      ¬ Idempotent disagree riskIfOnly (fun _ => 30) 1 db (.detectFabrication [])) ∧
    (∃ db out, execute disagree riskIfOnly (fun _ => 20) 1 withClaims
        (.crossCheck (analysisWith ["a team of nine"])) = .ok (db, out) ∧
      Idempotent disagree riskIfOnly (fun _ => 30) 1 db
        (.crossCheck (analysisWith ["a team of nine"]))) ∧
    ∃ db out, execute disagree riskIfOnly (fun _ => 20) 1 withClaims
        (.crossCheck (analysisWith ["4 people", "9 people"])) = .ok (db, out) ∧
      ¬ Idempotent disagree riskIfOnly (fun _ => 30) 1 db
        (.crossCheck (analysisWith ["4 people", "9 people"])) := by
  refine ⟨?_, ?_, ?_⟩
  · have hok : (execute disagree riskIfOnly (fun _ => 20) 1 withClaims (.detectFabrication [])).isOk =
        true := by decide +kernel
    obtain ⟨⟨db, out⟩, h⟩ := exists_of_isOk hok
    refine ⟨db, out, h, fun hsame => ?_⟩
    have htimes := (idempotent_iff disagree riskIfOnly (fun _ => 20) (fun _ => 30) 1 withClaims db
      (.detectFabrication []) out h).1 hsame
    exact absurd (htimes (storedClaim 1 "the only team") List.mem_cons_self rfl (by decide +kernel))
      (by decide)
  · have hok : (execute disagree riskIfOnly (fun _ => 20) 1 withClaims
        (.crossCheck (analysisWith ["a team of nine"]))).isOk = true := by decide +kernel
    obtain ⟨⟨db, out⟩, h⟩ := exists_of_isOk hok
    refine ⟨db, out, h, (idempotent_iff disagree riskIfOnly (fun _ => 20) (fun _ => 30) 1 withClaims db
      (.crossCheck (analysisWith ["a team of nine"])) out h).2 ?_⟩
    exact ⟨_, rfl, by decide⟩
  · have hok : (execute disagree riskIfOnly (fun _ => 20) 1 withClaims
        (.crossCheck (analysisWith ["4 people", "9 people"]))).isOk = true := by decide +kernel
    obtain ⟨⟨db, out⟩, h⟩ := exists_of_isOk hok
    refine ⟨db, out, h, fun hsame => ?_⟩
    obtain ⟨claims, haggregate, hfew⟩ := (idempotent_iff disagree riskIfOnly (fun _ => 20)
      (fun _ => 30) 1 withClaims db (.crossCheck (analysisWith ["4 people", "9 people"])) out h).1 hsame
    cases haggregate
    exact absurd hfew (by decide)

end Sample

end EvalEngine.StageRedelivery
