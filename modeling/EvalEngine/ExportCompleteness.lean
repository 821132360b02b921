import EvalEngine.ClaimPages
import EvalEngine.InheritedOwners

namespace EvalEngine.ExportCompleteness

open EvalEngine.JsonValues EvalEngine.Exceptions EvalEngine.RunModel EvalEngine.StageTables
open EvalEngine.Noninterference EvalEngine.ReadServices EvalEngine.ResultService
open EvalEngine.ServiceContracts EvalEngine.ConstrainedTables EvalEngine.TenantRows
open EvalEngine.Transitions (Exec)
open EvalEngine.PipelineDatabase (State WorkerResultRow)

/-- `ResultExportRequest.format`. -/
inductive Format
  | json
  | csv

def Format.value : Format → String
  | .json => "json"
  | .csv => "csv"

def liveWorkers (runId : UUID) (s : State) : List WorkerResultRow :=
  s.workerResults.rows.filter (isResultOf runId)

def liveClaims (runId : UUID) (s : State) : List (Stamped Claim) :=
  (claims s).filter fun claim => isCountedClaim runId claim.row

def liveContradictions (runId : UUID) (s : State) : List Contradiction :=
  s.store.contradictions.filter (isCountedContradiction runId)

def isCountedScore (runId : UUID) (score : Score) : Bool :=
  decide (score.evaluationRunId = runId) && score.deletedAt.isNone

def liveScores (runId : UUID) (s : State) : List Score :=
  s.store.scores.filter (isCountedScore runId)

def items (key : String) (payload : Dict) : List Json :=
  match find key payload with
  | some (.arr items) => items
  | _ => []

def csvRow : String × ℚ × ℚ × Option String → Json
  | (dimension, value, weight, rationale) =>
    .obj [("dimension", .str dimension), ("value", .num value), ("weight", .num weight),
      ("rationale", optionalText rationale)]

/-- The rows that an exported file shows under a heading. The CSV file has a
single heading. -/
def entries (heading : String) : ExportData → List Json
  | .indented payload | .compact payload => items heading payload
  | .csv rows => if heading = "scores" then rows.map csvRow else []

/-- The file shows every live row of the run once, and no other. -/
structure Complete (runId : UUID) (s : State) (data : ExportData) : Prop where
  workers : (entries "workers" data).Perm ((liveWorkers runId s).map workerJson)
  claims : (entries "claims" data).Perm ((liveClaims runId s).map fun claim => claimJson claim.row)
  contradictions : (entries "contradictions" data).Perm
    ((liveContradictions runId s).map contradictionJson)
  scores : (entries "scores" data).Perm ((liveScores runId s).map scoreJson)

/-- The live rows that the queries of an export look up by the organization
as well. -/
structure Owned (runId orgId : UUID) (s : State) : Prop where
  claims : ∀ claim ∈ liveClaims runId s, claim.row.organizationId = orgId
  contradictions : ∀ c ∈ liveContradictions runId s, c.organizationId = orgId

def OwnedScores (runId orgId : UUID) (s : State) : Prop :=
  ∀ score ∈ liveScores runId s, score.organizationId = orgId

/-- What a format leaves room for. -/
def Covers (runId orgId : UUID) (s : State) : Format → Prop
  | .json => (liveClaims runId s).length ≤ 10000 ∧ Owned runId orgId s ∧ OwnedScores runId orgId s
  | .csv => liveWorkers runId s = [] ∧ liveClaims runId s = [] ∧ liveContradictions runId s = [] ∧
      OwnedScores runId orgId s

/-- The storage takes what it is given and signs what it is asked for. -/
structure Answers (ctx : ReadContext) : Prop where
  uploadBytes : ∀ key data contentType, ∃ text, ctx.uploadBytes key data contentType = .ok text
  presignDownload : ∀ key, ∃ url, ctx.presignDownload key = .ok url

section Shown

variable {ρ : Type} {rows shown : List ρ}

/-- What is shown of some rows is all of them as soon as nothing is missing. -/
theorem map_perm_iff (f : ρ → Json) (h : shown.Subperm rows) :
    (shown.map f).Perm (rows.map f) ↔ rows.length ≤ shown.length := by
  constructor
  · intro hperm
    simpa using hperm.length_eq.ge
  · intro hle
    exact (h.perm_of_length_le hle).map f

theorem owned_iff {own : ρ → Bool} : rows.length ≤ (rows.filter own).length ↔ ∀ row ∈ rows, own row = true := by
  rw [← List.length_filter_eq_length_iff]
  exact ⟨fun h => Nat.le_antisymm (List.length_filter_le own rows) h, fun h => h.ge⟩

/-- A query that also asks for the owner, in any order. -/
theorem ordered_perm_iff (f : ρ → Json) {own : ρ → Bool} (before : ρ → ρ → Bool) :
    ((orderBy before (rows.filter own)).map f).Perm (rows.map f) ↔ ∀ row ∈ rows, own row = true := by
  have hperm : (orderBy before (rows.filter own)).Perm (rows.filter own) := List.mergeSort_perm _ _
  rw [map_perm_iff f (hperm.subperm.trans List.filter_sublist.subperm), hperm.length_eq, owned_iff]

end Shown

variable {ctx : ReadContext} {runId orgId : UUID} {s : State}

/-- The rows that the four queries of an export find. -/
structure Found where
  workers : List WorkerResultRow
  claims : List (Stamped Claim)
  contradictions : List Contradiction
  scores : List Score

def found (ctx : ReadContext) (runId orgId : UUID) (s : State) : Found where
  workers := orderBy (oldest WorkerResultRow.createdAt) (liveWorkers runId s)
  claims := (orderBy (oldest Stamped.createdAt) ((claims s).filter (isClaimOf runId orgId none))).take 10000
  contradictions := orderBy mostSevere (s.store.contradictions.filter (isContradictionOf runId orgId))
  scores := orderBy (fun a b => ctx.collate a.dimension b.dimension)
    (s.store.scores.filter (isScoreOf runId orgId))

theorem exportResults_ok (hrun : (scopedRow EvaluationRun runId orgId s.db.tables).isSome)
    (hstorage : Answers ctx) (fmt : String) : ∃ result run,
      exportResults ctx runId orgId fmt s = .ok result ∧
      result.data = exportData fmt (exportPayload runId run (found ctx runId orgId s).workers
        (found ctx runId orgId s).claims (found ctx runId orgId s).contradictions
        (found ctx runId orgId s).scores) (found ctx runId orgId s).scores := by
  obtain ⟨run, hrow⟩ := Option.isSome_iff_exists.1 hrun
  have hverify : verifyRun runId orgId s = .ok run := by rw [verifyRun, answer_getScoped, hrow]
  have hclaims : getClaimsForRun runId orgId none 1 10000 s = .ok ((found ctx runId orgId s).claims,
      ((claims s).filter (isClaimOf runId orgId none)).length) := by
    simp only [getClaimsForRun, bind_run, hverify]
    rfl
  have hworkers : getWorkerResultsForRun runId orgId s = .ok (found ctx runId orgId s).workers := by
    simp only [getWorkerResultsForRun, bind_run, hverify]
    rfl
  have hcontradictions : getContradictionsForRun runId orgId s =
      .ok (found ctx runId orgId s).contradictions := by
    simp only [getContradictionsForRun, bind_run, hverify]
    rfl
  have hscores : getScoresForRun ctx runId orgId s = .ok (found ctx runId orgId s).scores := by
    simp only [getScoresForRun, bind_run, hverify]
    rfl
  obtain ⟨text, hupload⟩ := hstorage.uploadBytes (generateExportKey orgId runId fmt)
    (exportData fmt (exportPayload runId run (found ctx runId orgId s).workers
      (found ctx runId orgId s).claims (found ctx runId orgId s).contradictions
      (found ctx runId orgId s).scores) (found ctx runId orgId s).scores) (contentType fmt)
  obtain ⟨url, hpresign⟩ := hstorage.presignDownload (generateExportKey orgId runId fmt)
  refine ⟨⟨generateExportKey orgId runId fmt, _, contentType fmt, url⟩, run, ?_, rfl⟩
  simp only [exportResults, bind_run, hverify, hworkers, hclaims, hcontradictions, hscores, Except.bind,
    external, lift, hupload, hpresign, Except.mapError]
  rfl

theorem live_claims_found : (claims s).filter (isClaimOf runId orgId none) =
    (liveClaims runId s).filter fun claim => decide (claim.row.organizationId = orgId) := by
  rw [liveClaims, List.filter_filter]
  congr 1
  funext claim
  simp only [isClaimOf, isCountedClaim, Option.all_none, Bool.and_true]
  grind

theorem live_contradictions_found : s.store.contradictions.filter (isContradictionOf runId orgId) =
    (liveContradictions runId s).filter fun c => decide (c.organizationId = orgId) := by
  rw [liveContradictions, List.filter_filter]
  congr 1
  funext c
  simp only [isContradictionOf, isCountedContradiction]
  grind

theorem live_scores_found : s.store.scores.filter (isScoreOf runId orgId) =
    (liveScores runId s).filter fun score => decide (score.organizationId = orgId) := by
  rw [liveScores, List.filter_filter]
  congr 1
  funext score
  simp only [isScoreOf, isCountedScore]
  grind

theorem workers_complete : ((found ctx runId orgId s).workers.map workerJson).Perm
    ((liveWorkers runId s).map workerJson) :=
  (List.mergeSort_perm _ _).map workerJson

theorem claims_complete_iff : ((found ctx runId orgId s).claims.map fun claim => claimJson claim.row).Perm
      ((liveClaims runId s).map fun claim => claimJson claim.row) ↔
    (liveClaims runId s).length ≤ 10000 ∧ ∀ claim ∈ liveClaims runId s, claim.row.organizationId = orgId := by
  have hperm : (orderBy (oldest Stamped.createdAt) ((claims s).filter (isClaimOf runId orgId none))).Perm
      ((liveClaims runId s).filter fun claim => decide (claim.row.organizationId = orgId)) := by
    rw [← live_claims_found]
    exact List.mergeSort_perm _ _
  have hsub : (found ctx runId orgId s).claims.Subperm (liveClaims runId s) :=
    (List.take_sublist _ _).subperm.trans (hperm.subperm.trans List.filter_sublist.subperm)
  rw [map_perm_iff _ hsub, found, List.length_take, hperm.length_eq, Nat.le_min, owned_iff]
  simp only [decide_eq_true_eq]

theorem contradictions_complete_iff : ((found ctx runId orgId s).contradictions.map contradictionJson).Perm
      ((liveContradictions runId s).map contradictionJson) ↔
    ∀ c ∈ liveContradictions runId s, c.organizationId = orgId := by
  rw [found, live_contradictions_found, ordered_perm_iff]
  simp only [decide_eq_true_eq]

theorem scores_complete_iff : ((found ctx runId orgId s).scores.map scoreJson).Perm
    ((liveScores runId s).map scoreJson) ↔ OwnedScores runId orgId s := by
  rw [found, live_scores_found, ordered_perm_iff, OwnedScores]
  simp only [decide_eq_true_eq]

theorem exportData_json (payload : Dict) (scores : List Score) :
    exportData Format.json.value payload scores = .indented payload := by
  simp [exportData, Format.value]

theorem exportData_csv (payload : Dict) (scores : List Score) :
    exportData Format.csv.value payload scores =
      .csv (scores.map fun score => (score.dimension, score.value, score.weight, score.rationale)) := by
  simp [exportData, Format.value]

/-- The JSON file shows what the queries find. -/
theorem complete_json {run : EvaluationRun} {f : Found} : Complete runId s (.indented
      (exportPayload runId run f.workers f.claims f.contradictions f.scores)) ↔
    (f.workers.map workerJson).Perm ((liveWorkers runId s).map workerJson) ∧
    (f.claims.map fun claim => claimJson claim.row).Perm
      ((liveClaims runId s).map fun claim => claimJson claim.row) ∧
    (f.contradictions.map contradictionJson).Perm ((liveContradictions runId s).map contradictionJson) ∧
    (f.scores.map scoreJson).Perm ((liveScores runId s).map scoreJson) :=
  ⟨fun h => ⟨h.workers, h.claims, h.contradictions, h.scores⟩, fun h => ⟨h.1, h.2.1, h.2.2.1, h.2.2.2⟩⟩

/-- The CSV file shows scores alone. -/
theorem complete_csv {scores : List Score} : Complete runId s (.csv (scores.map fun score =>
      (score.dimension, score.value, score.weight, score.rationale))) ↔
    liveWorkers runId s = [] ∧ liveClaims runId s = [] ∧ liveContradictions runId s = [] ∧
      (scores.map scoreJson).Perm ((liveScores runId s).map scoreJson) := by
  have hrows : entries "scores" (.csv (scores.map fun score =>
      (score.dimension, score.value, score.weight, score.rationale))) = scores.map scoreJson := by
    simp only [entries, if_true, List.map_map]
    rfl
  constructor
  · intro h
    have hworkers := h.workers
    have hclaims := h.claims
    have hcontradictions := h.contradictions
    simp only [entries, List.nil_perm, List.map_eq_nil_iff, String.reduceEq, if_false]
      at hworkers hclaims hcontradictions
    exact ⟨hworkers, hclaims, hcontradictions, hrows ▸ h.scores⟩
  · rintro ⟨hworkers, hclaims, hcontradictions, hscores⟩
    exact ⟨by rw [hworkers]; rfl, by rw [hclaims]; rfl, by rw [hcontradictions]; rfl, hrows ▸ hscores⟩

/-- The JSON file is complete up to the page that its claims come from, the CSV
file exactly where the run has nothing but scores. -/
theorem exports_complete (hrun : (scopedRow EvaluationRun runId orgId s.db.tables).isSome = true)
    (hstorage : Answers ctx) (fmt : Format) : ∃ result,
      exportResults ctx runId orgId fmt.value s = .ok result ∧
      (Complete runId s result.data ↔ Covers runId orgId s fmt) := by
  obtain ⟨result, run, hok, hdata⟩ := exportResults_ok hrun hstorage fmt.value
  refine ⟨result, hok, ?_⟩
  rw [hdata]
  cases fmt with
  | json =>
    rw [exportData_json, complete_json, claims_complete_iff, contradictions_complete_iff,
      scores_complete_iff]
    constructor
    · rintro ⟨-, ⟨hlength, hclaims⟩, hcontradictions, hscores⟩
      exact ⟨hlength, ⟨hclaims, hcontradictions⟩, hscores⟩
    · rintro ⟨hlength, ⟨hclaims, hcontradictions⟩, hscores⟩
      exact ⟨workers_complete, ⟨hlength, hclaims⟩, hcontradictions, hscores⟩
  | csv =>
    rw [exportData_csv, complete_csv, scores_complete_iff]
    rfl

section Reached

variable {detect : String → String → Option CrossCheck.Finding}
  {assess : String → String → ℚ → Fabrication.Risk} {ok : State → PipelineDatabase.Action → Prop}
  {db : AuditService.Database}

/-- A row that carries the organization of its run carries that of the lookup. -/
theorem owner_eq (hrun : (scopedRow EvaluationRun runId orgId s.db.tables).isSome = true) {org : UUID}
    (h : RunOf s runId org) : org = orgId := by
  obtain ⟨run, hrow⟩ := Option.isSome_iff_exists.1 hrun
  obtain ⟨run', hmem', hid, horg⟩ := h
  obtain ⟨hmem, hkey, hscoped, -⟩ := scopedRow_some hrow
  have hsame : run' = run := s.runs.eq_of_key hmem' hmem (hid.trans hkey.symm)
  rw [← horg, hsame]
  exact hscoped

/-- What the pipeline writes is found by the organization of the run. -/
theorem owned_of_reached (h : Exec (PipelineDatabase.step detect assess) ok (PipelineDatabase.start db) s)
    (hrun : (scopedRow EvaluationRun runId orgId s.db.tables).isSome = true) :
    Owned runId orgId s ∧ OwnedScores runId orgId s := by
  have hinherits := (InheritedOwners.inv_run h).inherits
  refine ⟨⟨?_, ?_⟩, ?_⟩
  · intro claim hclaim
    obtain ⟨hmem, hlive⟩ := List.mem_filter.1 hclaim
    simp only [isCountedClaim, Bool.and_eq_true, decide_eq_true_eq] at hlive
    obtain ⟨row, hrow, rfl⟩ := List.mem_map.1 hmem
    obtain ⟨run, hrunMem, hid, horg, -⟩ := hinherits.claims row hrow
    exact owner_eq hrun ⟨run, hrunMem, hid.trans hlive.1, horg⟩
  · intro c hc
    obtain ⟨hmem, hlive⟩ := List.mem_filter.1 hc
    simp only [isCountedContradiction, Bool.and_eq_true, decide_eq_true_eq] at hlive
    exact owner_eq hrun (hlive.1 ▸ (hinherits.contradictions c hmem).1)
  · intro score hscore
    obtain ⟨hmem, hlive⟩ := List.mem_filter.1 hscore
    simp only [isCountedScore, Bool.and_eq_true, decide_eq_true_eq] at hlive
    exact owner_eq hrun (hlive.1 ▸ hinherits.scores score hmem)

end Reached

section Sample

open EvalEngine.ClaimPages (sampleClaim twoClaims)

def sampleContext : ReadContext where
  collate a b := decide (a ≤ b)
  uploadBytes key _ _ := .ok key
  presignDownload key := .ok ("https://storage.local/" ++ key)

theorem sampleContext_answers : Answers sampleContext where
  uploadBytes key _ _ := ⟨key, rfl⟩
  presignDownload key := ⟨"https://storage.local/" ++ key, rfl⟩

theorem exports_complete_two : ∃ result, exportResults sampleContext 1 1 "json" twoClaims = .ok result ∧
    Complete 1 twoClaims result.data := by
  obtain ⟨result, hok, hiff⟩ := @exports_complete sampleContext 1 1 twoClaims rfl sampleContext_answers .json
  exact ⟨result, hok, hiff.2 ⟨by decide, ⟨by decide, by decide⟩, by rintro score ⟨⟩⟩⟩

theorem keys_range (n : ℕ) : (((List.range n).map sampleClaim).map Claim.id).Nodup := by
  simpa [sampleClaim, Function.comp_def] using List.nodup_range

theorem fresh_range (n : ℕ) : ∀ claim ∈ (List.range n).map sampleClaim, claim.id < n := by
  intro claim hclaim
  obtain ⟨i, hi, rfl⟩ := List.mem_map.1 hclaim
  exact List.mem_range.1 hi

/-- The same run with as many claims. -/
def withClaims (n : ℕ) : State := { twoClaims with
  store := { twoClaims.store with
    claims := (List.range n).map sampleClaim
    nextId := n
    keys := keys_range n
    fresh := fresh_range n } }

theorem length_liveClaims (n : ℕ) : (liveClaims 1 (withClaims n)).length = n := by
  have hall : liveClaims 1 (withClaims n) = claims (withClaims n) := by
    refine List.filter_eq_self.2 fun claim hclaim => ?_
    obtain ⟨row, hrow, rfl⟩ := List.mem_map.1 hclaim
    obtain ⟨i, -, rfl⟩ := List.mem_map.1 hrow
    rfl
  rw [hall]
  simp [claims, withClaims]

/-- The JSON file drops the last of 10001 claims, and the CSV file both of two. -/
theorem exports_incomplete :
    (∃ result, exportResults sampleContext 1 1 "json" (withClaims 10001) = .ok result ∧
      ¬ Complete 1 (withClaims 10001) result.data) ∧
    (∃ result, exportResults sampleContext 1 1 "csv" twoClaims = .ok result ∧
      ¬ Complete 1 twoClaims result.data) := by
  constructor
  · obtain ⟨result, run, hok, hdata⟩ :=
      @exportResults_ok sampleContext 1 1 (withClaims 10001) rfl sampleContext_answers Format.json.value
    refine ⟨result, hok, fun h => ?_⟩
    rw [hdata, exportData_json, complete_json, claims_complete_iff, length_liveClaims] at h
    exact absurd h.2.1.1 (by decide)
  · obtain ⟨result, run, hok, hdata⟩ :=
      @exportResults_ok sampleContext 1 1 twoClaims rfl sampleContext_answers Format.csv.value
    refine ⟨result, hok, fun h => ?_⟩
    rw [hdata, exportData_csv, complete_csv] at h
    exact absurd h.2.1 (List.cons_ne_nil _ _)

end Sample

end EvalEngine.ExportCompleteness
