import EvalEngine.CrossCheck
import EvalEngine.Fabrication
import EvalEngine.LlmJudge

namespace EvalEngine.StageContracts

open EvalEngine.JsonValues EvalEngine.Exceptions EvalEngine.QueryResults EvalEngine.RunModel
open EvalEngine.KeyedRows EvalEngine.StageTables EvalEngine.CrossCheck EvalEngine.Fabrication
open EvalEngine.LlmJudge

theorem bind_eq_ok {ε α β : Type} {x : Except ε α} {f : α → Except ε β} {b : β} :
    (x >>= f) = .ok b ↔ ∃ a, x = .ok a ∧ f a = .ok b := by
  cases x with
  | ok a => simp [bind, Except.bind]
  | error e => simp [bind, Except.bind]

theorem map_eq_ok {ε α β : Type} {x : Except ε α} {f : α → β} {b : β} :
    x.map f = .ok b ↔ ∃ a, x = .ok a ∧ f a = b := by
  cases x with
  | ok a => simp [Except.map]
  | error e => simp [Except.map]

theorem exists_of_isOk {ε α : Type} {x : Except ε α} (h : x.isOk = true) : ∃ a, x = .ok a := by
  cases x with
  | ok a => exact ⟨a, rfl⟩
  | error e => cases h

theorem scalarOne_filter {α : Type} {p : α → Bool} {rows : List α} {row : α}
    (h : scalarOne (rows.filter p) = .ok row) : row ∈ rows ∧ p row = true := by
  have hmem : row ∈ rows.filter p := by
    cases hrows : rows.filter p with
    | nil =>
      rw [hrows] at h
      cases h
    | cons x xs =>
      rw [hrows] at h
      cases xs with
      | nil =>
        cases h
        exact List.mem_singleton_self _
      | cons y ys => cases h
  exact List.mem_filter.1 hmem

theorem insertClaim_ok {db db' : Store} {claim claim' : Claim}
    (h : db.insertClaim claim = .ok (db', claim')) :
    claim.storable = true ∧ claim' = { claim with id := db.nextId } ∧
      db'.claims = db.claims ++ [claim'] ∧ db'.nextId = db.nextId + 1 ∧
      db'.contradictions = db.contradictions ∧ db'.scores = db.scores ∧ db'.runs = db.runs := by
  simp only [Store.insertClaim] at h
  split at h
  next hstorable =>
    cases h
    exact ⟨hstorable, rfl, rfl, rfl, rfl, rfl, rfl⟩
  next => cases h

theorem insertContradiction_ok {db db' : Store} {c : Contradiction}
    (h : db.insertContradiction c = .ok db') : c.storable = true ∧
      db'.contradictions = db.contradictions ++ [{ c with id := db.nextId }] ∧
      db.nextId ≤ db'.nextId ∧ db'.claims = db.claims ∧ db'.scores = db.scores ∧ db'.runs = db.runs := by
  simp only [Store.insertContradiction] at h
  split at h
  next hstorable =>
    cases h
    exact ⟨hstorable, rfl, Nat.le_succ _, rfl, rfl, rfl⟩
  next => cases h

theorem newClaim_owner {run : EvaluationRun} {data : Dict} {claim : Claim}
    (h : newClaim run data = .ok claim) : claim.evaluationRunId = run.id ∧
      claim.submissionId = run.submissionId ∧ claim.organizationId = run.organizationId ∧
      claim.deletedAt = none := by
  simp only [newClaim, bind_eq_ok] at h
  obtain ⟨_, _, _, _, _, _, _, _, hclaim⟩ := h
  cases hclaim
  exact ⟨rfl, rfl, rfl, rfl⟩

/-- A row that step 2 has stored, for the claim that it was made from. -/
structure StoredAs (run : EvaluationRun) (firstId : UUID) (unsaved stored : Claim) : Prop where
  evaluationRunId : stored.evaluationRunId = run.id
  submissionId : stored.submissionId = run.submissionId
  organizationId : stored.organizationId = run.organizationId
  deletedAt : stored.deletedAt = none
  claimText : stored.claimText = unsaved.claimText
  category : stored.category = unsaved.category
  storable : unsaved.storable = true
  id : firstId ≤ stored.id

theorem StoredAs.mono {run : EvaluationRun} {firstId firstId' : UUID} {unsaved stored : Claim}
    (h : StoredAs run firstId' unsaved stored) (hle : firstId ≤ firstId') :
    StoredAs run firstId unsaved stored := { h with id := hle.trans h.id }

theorem storeClaims_ok {run : EvaluationRun} {data : List Dict} {db db' : Store} {stored : List Claim}
    (h : storeClaims run db data = .ok (db', stored)) :
    ∃ unsaved, data.mapM (newClaim run) = .ok unsaved ∧
      List.Forall₂ (StoredAs run db.nextId) unsaved stored ∧
      db'.claims = db.claims ++ stored ∧ db.nextId ≤ db'.nextId ∧
      db'.contradictions = db.contradictions ∧ db'.scores = db.scores ∧ db'.runs = db.runs := by
  induction data generalizing db stored with
  | nil =>
    cases h
    exact ⟨[], rfl, .nil, (List.append_nil _).symm, Nat.le_refl _, rfl, rfl, rfl⟩
  | cons d data ih =>
    simp only [storeClaims, bind_eq_ok] at h
    obtain ⟨claim, hclaim, ⟨db₁, claim'⟩, hinsert, ⟨db₂, rest⟩, hrest, hresult⟩ := h
    cases hresult
    obtain ⟨hstorable, rfl, hclaims₁, hnext₁, hcontra₁, hscores₁, hruns₁⟩ := insertClaim_ok hinsert
    obtain ⟨unsaved, hunsaved, hforall, hclaims₂, hnext₂, hcontra₂, hscores₂, hruns₂⟩ := ih hrest
    obtain ⟨hrun, hsubmission, horg, hdeleted⟩ := newClaim_owner hclaim
    have hnext : db.nextId ≤ db₁.nextId := hnext₁ ▸ Nat.le_succ db.nextId
    refine ⟨claim :: unsaved, ?_, .cons ?_ ?_, ?_, Nat.le_trans hnext hnext₂,
      hcontra₂.trans hcontra₁, hscores₂.trans hscores₁, hruns₂.trans hruns₁⟩
    · rw [List.mapM_cons, hclaim, hunsaved]
      rfl
    · exact ⟨hrun, hsubmission, horg, hdeleted, rfl, rfl, hstorable, Nat.le_refl _⟩
    · exact hforall.imp fun _ _ hstored => hstored.mono hnext
    · rw [hclaims₂, hclaims₁, List.append_assoc]
      rfl

/-- What step 1 and the constructors of step 2 make of the results. -/
def unsavedClaims (run : EvaluationRun) (parallelResults : List Json) :
    Except PyException (List Claim) :=
  (aggregate parallelResults).bind fun claims => claims.mapM (newClaim run)

def Finding.storable (finding : Finding) : Bool :=
  varchar 100 finding.type && textStorable finding.explanation

variable {detect : String → String → Option Finding} {run : EvaluationRun} {firstId : UUID}

theorem mem_findPair {a b : Claim} {found : Claim × Claim × Finding}
    (h : findPair detect a b = some found) : found.1 = a ∧ found.2.1 = b := by
  simp only [findPair] at h
  split at h
  · cases h
  · obtain ⟨finding, _, rfl⟩ := Option.map_eq_some_iff.1 h
    exact ⟨rfl, rfl⟩

theorem mem_findContradictions {claims : List Claim} {found : Claim × Claim × Finding}
    (h : found ∈ findContradictions detect claims) : found.1 ∈ claims ∧ found.2.1 ∈ claims := by
  induction claims with
  | nil => cases h
  | cons a rest ih =>
    obtain hpair | hrest := List.mem_append.1 h
    · obtain ⟨b, hb, hfound⟩ := List.mem_filterMap.1 hpair
      obtain ⟨ha, hb'⟩ := mem_findPair hfound
      rw [ha, hb']
      exact ⟨List.mem_cons_self, List.mem_cons_of_mem _ hb⟩
    · obtain ⟨ha, hb⟩ := ih hrest
      exact ⟨List.mem_cons_of_mem _ ha, List.mem_cons_of_mem _ hb⟩

theorem findPair_stored {a b a' b' : Claim} (ha : StoredAs run firstId a a')
    (hb : StoredAs run firstId b b') :
    (findPair detect a' b').map (fun found => found.2.2) =
      (findPair detect a b).map (fun found => found.2.2) := by
  simp only [findPair, ha.category, hb.category, ha.claimText, hb.claimText]
  split
  · rfl
  · simp only [Option.map_map]
    rfl

/-- The findings are about the texts and categories alone. -/
theorem findings_stored {unsaved stored : List Claim}
    (h : List.Forall₂ (StoredAs run firstId) unsaved stored) :
    (findContradictions detect stored).map (fun found => found.2.2) =
      (findContradictions detect unsaved).map (fun found => found.2.2) := by
  induction h with
  | nil => rfl
  | cons ha hrest ih =>
    simp only [findContradictions, List.map_append, ih, List.map_filterMap]
    congr 1
    clear ih
    induction hrest with
    | nil => rfl
    | cons hb _ ih => simp only [List.filterMap_cons, findPair_stored ha hb, ih]

/-- A contradiction that step 3 has stored. -/
structure LinkedIn (run : EvaluationRun) (claims : List Claim) (c : Contradiction) : Prop where
  evaluationRunId : c.evaluationRunId = run.id
  organizationId : c.organizationId = run.organizationId
  claimA : ∃ claim ∈ claims, claim.id = c.claimAId
  claimB : ∃ claim ∈ claims, claim.id = c.claimBId

theorem storeContradictions_ok {db db' : Store} {found : List (Claim × Claim × Finding)}
    {claims : List Claim} (hfound : ∀ f ∈ found, f.1 ∈ claims ∧ f.2.1 ∈ claims)
    (h : storeContradictions run db found = .ok db') :
    (∀ f ∈ found, Finding.storable f.2.2 = true) ∧
      (∃ added, db'.contradictions = db.contradictions ++ added ∧ ∀ c ∈ added, LinkedIn run claims c) ∧
      db.nextId ≤ db'.nextId ∧ db'.claims = db.claims ∧ db'.scores = db.scores ∧ db'.runs = db.runs := by
  induction found generalizing db with
  | nil =>
    cases h
    exact ⟨by simp, ⟨[], (List.append_nil _).symm, by simp⟩, Nat.le_refl _, rfl, rfl, rfl⟩
  | cons f found ih =>
    simp only [storeContradictions, List.foldlM_cons, bind_eq_ok] at h
    obtain ⟨db₁, hinsert, hrest⟩ := h
    obtain ⟨hstorable, hcontra₁, hnext₁, hclaims₁, hscores₁, hruns₁⟩ := insertContradiction_ok hinsert
    obtain ⟨hall, ⟨added, hcontra₂, hadded⟩, hnext₂, hclaims₂, hscores₂, hruns₂⟩ :=
      ih (fun g hg => hfound g (by simp [hg])) hrest
    refine ⟨?_, ⟨{ newContradiction run f with id := db.nextId } :: added, ?_, ?_⟩, hnext₁.trans hnext₂, hclaims₂.trans hclaims₁,
      hscores₂.trans hscores₁, hruns₂.trans hruns₁⟩
    · intro g hg
      obtain rfl | hg := List.mem_cons.1 hg
      · exact hstorable
      · exact hall g hg
    · rw [hcontra₂, hcontra₁, List.append_assoc]
      rfl
    · intro c hc
      obtain rfl | hc := List.mem_cons.1 hc
      · obtain ⟨ha, hb⟩ := hfound f (by simp)
        exact ⟨rfl, rfl, ⟨_, ha, rfl⟩, ⟨_, hb, rfl⟩⟩
      · exact hadded c hc

/-- At least two claims, all of which can be stored, as can be what is found between them. -/
def Storable (detect : String → String → Option Finding) (run : EvaluationRun)
    (parallelResults : List Json) : Prop :=
  ∃ unsaved, unsavedClaims run parallelResults = .ok unsaved ∧ 2 ≤ unsaved.length ∧
    (∀ claim ∈ unsaved, claim.storable = true) ∧
    ∀ found ∈ findContradictions detect unsaved, Finding.storable found.2.2 = true

/-- What `_cross_check` leaves where it stores claims. -/
structure CrossChecked (run : EvaluationRun) (db db' : Store) : Prop where
  claims : ∃ stored, stored ≠ [] ∧ db'.claims = db.claims ++ stored ∧
    (∀ c ∈ stored, c.evaluationRunId = run.id ∧ c.submissionId = run.submissionId ∧
      c.organizationId = run.organizationId ∧ db.nextId ≤ c.id) ∧
    ∃ added, db'.contradictions = db.contradictions ++ added ∧ ∀ c ∈ added, LinkedIn run stored c
  nextId : db.nextId ≤ db'.nextId
  scores : db'.scores = db.scores
  runs : db'.runs = db.runs

theorem exists_of_forall₂ {α β : Type} {R : α → β → Prop} {xs : List α} {ys : List β}
    (h : List.Forall₂ R xs ys) : ∀ x ∈ xs, ∃ y ∈ ys, R x y := by
  induction h with
  | nil => simp
  | cons hxy _ ih =>
    intro x hx
    obtain rfl | hx := List.mem_cons.1 hx
    · exact ⟨_, List.mem_cons_self, hxy⟩
    · obtain ⟨y, hy, hR⟩ := ih x hx
      exact ⟨y, List.mem_cons_of_mem _ hy, hR⟩

/-- Findings can be stored for the stored rows if and only if they can for the unsaved ones. -/
theorem findings_storable {unsaved stored : List Claim}
    (h : List.Forall₂ (StoredAs run firstId) unsaved stored) :
    (∀ found ∈ findContradictions detect stored, Finding.storable found.2.2 = true) ↔
      ∀ found ∈ findContradictions detect unsaved, Finding.storable found.2.2 = true := by
  have hmap : (findContradictions detect stored).map (fun found => found.2.2) = _ := findings_stored h
  rw [← List.forall_mem_map (f := fun found : Claim × Claim × Finding => found.2.2)
    (P := fun finding => Finding.storable finding = true), hmap, List.forall_mem_map]

theorem mapM_length {α β ε : Type} {f : α → Except ε β} {xs : List α} {ys : List β}
    (h : xs.mapM f = .ok ys) : ys.length = xs.length := by
  induction xs generalizing ys with
  | nil =>
    cases h
    rfl
  | cons x xs ih =>
    simp only [List.mapM_cons, bind_eq_ok] at h
    obtain ⟨y, _, zs, hzs, hys⟩ := h
    cases hys
    rw [List.length_cons, List.length_cons, ih hzs]

theorem crossCheck_cases {db db' : Store} {runId : UUID} {results : List Json} {out : Dict}
    (h : crossCheck detect db runId results = .ok (db', out)) :
    db' = db ∨ ∃ run, scalarOne (db.runs.filter fun run => decide (run.id = runId)) = .ok run ∧
      Storable detect run results ∧ CrossChecked run db db' := by
  simp only [crossCheck, bind_eq_ok] at h
  obtain ⟨claims, haggregate, h⟩ := h
  split at h
  next =>
    cases h
    exact .inl rfl
  next hmany =>
    simp only [bind_eq_ok] at h
    obtain ⟨run, hrun, ⟨db₁, stored⟩, hstored, db₂, hcontra, hresult⟩ := h
    cases hresult
    obtain ⟨unsaved, hunsaved, hforall, hclaims₁, hnext₁, hcontra₁, hscores₁, hruns₁⟩ :=
      storeClaims_ok hstored
    obtain ⟨hfindings, ⟨added, hcontra₂, hadded⟩, hnext₂, hclaims₂, hscores₂, hruns₂⟩ :=
      storeContradictions_ok (fun _ hf => mem_findContradictions hf) hcontra
    have hlength : unsaved.length = claims.length := mapM_length hunsaved
    refine .inr ⟨run, hrun, ⟨unsaved, ?_, by omega, ?_, ?_⟩, ?_⟩
    · rw [unsavedClaims, haggregate]
      exact hunsaved
    · intro claim hclaim
      obtain ⟨stored, _, hstored⟩ := exists_of_forall₂ hforall claim hclaim
      exact hstored.storable
    · exact (findings_storable hforall).1 hfindings
    · refine ⟨⟨stored, ?_, hclaims₂.trans hclaims₁, ?_, added, ?_, hadded⟩,
        hnext₁.trans hnext₂, hscores₂.trans hscores₁, hruns₂.trans hruns₁⟩
      · rintro rfl
        rw [List.forall₂_nil_right_iff] at hforall
        rw [hforall] at hlength
        simp only [List.length_nil] at hlength
        omega
      · intro c hc
        obtain ⟨unsaved, _, hstored⟩ := exists_of_forall₂ hforall.flip c hc
        exact ⟨hstored.evaluationRunId, hstored.submissionId, hstored.organizationId, hstored.id⟩
      · rw [hcontra₂, hcontra₁]

theorem storeClaims_exists {data : List Dict} {unsaved : List Claim}
    (hunsaved : data.mapM (newClaim run) = .ok unsaved)
    (hstorable : ∀ claim ∈ unsaved, claim.storable = true) (db : Store) :
    ∃ r, storeClaims run db data = .ok r := by
  induction data generalizing db unsaved with
  | nil => exact ⟨_, rfl⟩
  | cons d data ih =>
    simp only [List.mapM_cons, bind_eq_ok] at hunsaved
    obtain ⟨claim, hclaim, rest, hrest, hresult⟩ := hunsaved
    cases hresult
    have hinsert : db.insertClaim claim = .ok _ := if_pos (hstorable claim (by simp))
    obtain ⟨r, hr⟩ := ih hrest (fun c hc => hstorable c (by simp [hc])) _
    refine ⟨(r.1, { claim with id := db.nextId } :: r.2), ?_⟩
    simp only [storeClaims, bind_eq_ok]
    exact ⟨claim, hclaim, _, hinsert, r, hr, rfl⟩

theorem storeContradictions_exists {found : List (Claim × Claim × Finding)}
    (hstorable : ∀ f ∈ found, Finding.storable f.2.2 = true) (db : Store) :
    ∃ db', storeContradictions run db found = .ok db' := by
  induction found generalizing db with
  | nil => exact ⟨db, rfl⟩
  | cons f found ih =>
    have hinsert : db.insertContradiction (newContradiction run f) = .ok _ :=
      if_pos (hstorable f (by simp))
    obtain ⟨db', hrest⟩ := ih (fun g hg => hstorable g (by simp [hg])) _
    refine ⟨db', ?_⟩
    simp only [storeContradictions, List.foldlM_cons, bind_eq_ok]
    exact ⟨_, hinsert, hrest⟩

theorem crossCheck_exists {db : Store} {runId : UUID} {results : List Json}
    (hrun : scalarOne (db.runs.filter fun run => decide (run.id = runId)) = .ok run)
    (h : Storable detect run results) : ∃ r, crossCheck detect db runId results = .ok r := by
  obtain ⟨unsaved, hunsaved, hmany, hstorable, hfindings⟩ := h
  simp only [unsavedClaims] at hunsaved
  obtain ⟨claims, haggregate, hnew⟩ := bind_eq_ok.1 hunsaved
  have hlength : unsaved.length = claims.length := mapM_length hnew
  obtain ⟨⟨db₁, stored⟩, hstored⟩ := storeClaims_exists hnew hstorable db
  obtain ⟨again, hagain, hforall, _⟩ := storeClaims_ok hstored
  rw [hnew] at hagain
  cases hagain
  obtain ⟨db₂, hcontra⟩ : ∃ db₂, storeContradictions run db₁ (findContradictions detect stored) = .ok db₂ :=
    storeContradictions_exists ((findings_storable hforall).2 hfindings) db₁
  have hmany : ¬ claims.length < 2 := by omega
  simp only [crossCheck, haggregate, if_neg hmany, hrun, hstored, hcontra, bind, Except.bind]
  exact ⟨_, rfl⟩

/-- A claim after the UPDATE of a verdict. -/
structure Reassessed (claim claim' : Claim) : Prop where
  id : claim'.id = claim.id
  evaluationRunId : claim'.evaluationRunId = claim.evaluationRunId
  submissionId : claim'.submissionId = claim.submissionId
  organizationId : claim'.organizationId = claim.organizationId
  claimText : claim'.claimText = claim.claimText
  category : claim'.category = claim.category
  confidenceScore : claim'.confidenceScore = claim.confidenceScore

variable {assess : String → String → ℚ → Risk} {clock : UUID → Time}

theorem flagClaim_cases {db db' : Store} {claim : Claim}
    (h : flagClaim assess clock db claim = .ok db') :
    db' = db ∧ flagged assess claim = false ∨
      flagged assess claim = true ∧ dictStorable (riskEvidence assess claim) = true ∧
      db'.claims = update Claim.id claim.id
        (Claim.assessed (verdict assess claim) (riskEvidence assess claim) (clock claim.id))
        db.claims ∧
      db'.nextId = db.nextId ∧ db'.contradictions = db.contradictions ∧ db'.scores = db.scores ∧
      db'.runs = db.runs := by
  simp only [flagClaim] at h
  split at h
  next hflagged =>
    simp only [Store.assessClaim] at h
    split at h
    next hstorable =>
      cases h
      exact .inr ⟨hflagged, hstorable, rfl, rfl, rfl, rfl, rfl⟩
    next => cases h
  next hnot =>
    cases h
    exact .inl ⟨rfl, by simpa using hnot⟩

theorem newScore_owner {runId : UUID} {scores : Dict} {usage : TokenUsage} {model : String}
    {dimension : String × ℚ} {score : Score}
    (h : newScore runId run scores usage model dimension = .ok score) :
    score.evaluationRunId = runId ∧ score.organizationId = run.organizationId := by
  simp only [newScore, bind_eq_ok] at h
  obtain ⟨_, _, _, _, _, _, hscore⟩ := h
  cases hscore
  exact ⟨rfl, rfl⟩

theorem insertScore_ok {db db' : Store} {score : Score} (h : db.insertScore score = .ok db') :
    db.scored score.evaluationRunId score.dimension = false ∧ db'.scores = db.scores ++ [score] ∧
      db'.nextId = db.nextId ∧ db'.claims = db.claims ∧ db'.contradictions = db.contradictions ∧
      db'.runs = db.runs := by
  simp only [Store.insertScore] at h
  split at h
  · cases h
  · split at h
    · cases h
    · split at h
      · cases h
      next hfree =>
        split at h <;> cases h
        exact ⟨by simpa using hfree, rfl, rfl, rfl, rfl, rfl⟩

/-- What `_run_llm_judge` leaves behind. -/
structure Judged (run : EvaluationRun) (runId : UUID) (db db' : Store) : Prop where
  scores : ∃ added, db'.scores = db.scores ++ added ∧
    ∀ score ∈ added, score.evaluationRunId = runId ∧ score.organizationId = run.organizationId
  nextId : db'.nextId = db.nextId
  claims : db'.claims = db.claims
  contradictions : db'.contradictions = db.contradictions
  runs : db'.runs = db.runs

theorem storeScores_ok {runId : UUID} {scores : Dict} {usage : TokenUsage} {model : String}
    {dimensions : List (String × ℚ)} {db db' : Store}
    (h : storeScores runId run scores usage model db dimensions = .ok db') :
    Judged run runId db db' := by
  induction dimensions generalizing db with
  | nil =>
    cases h
    exact ⟨⟨[], (List.append_nil _).symm, by simp⟩, rfl, rfl, rfl, rfl⟩
  | cons d dimensions ih =>
    simp only [storeScores, bind_eq_ok] at h
    obtain ⟨score, hscore, db₁, hinsert, hrest⟩ := h
    obtain ⟨_, hscores₁, hnext₁, hclaims₁, hcontra₁, hruns₁⟩ := insertScore_ok hinsert
    obtain ⟨⟨added, hscores₂, hadded⟩, hnext₂, hclaims₂, hcontra₂, hruns₂⟩ := ih hrest
    refine ⟨⟨score :: added, ?_, ?_⟩, hnext₂.trans hnext₁, hclaims₂.trans hclaims₁,
      hcontra₂.trans hcontra₁, hruns₂.trans hruns₁⟩
    · rw [hscores₂, hscores₁, List.append_assoc]
      rfl
    · intro c hc
      obtain rfl | hc := List.mem_cons.1 hc
      · exact newScore_owner hscore
      · exact hadded c hc

theorem runLlmJudge_ok {db db' : Store} {runId : UUID} {answers : Answers} {out : Dict}
    (h : runLlmJudge db runId answers = .ok (db', out)) :
    ∃ run, scalarOne (db.runs.filter fun run => decide (run.id = runId)) = .ok run ∧
      Judged run runId db db' := by
  simp only [runLlmJudge, bind_eq_ok] at h
  obtain ⟨run, hrun, scores, _, db₁, hstore, hresult⟩ := h
  cases hresult
  exact ⟨run, hrun, storeScores_ok hstore⟩

end EvalEngine.StageContracts
