import EvalEngine.RowOperations

namespace EvalEngine.MetricService

open EvalEngine.JsonValues EvalEngine.Exceptions EvalEngine.RunModel EvalEngine.QueryResults
open EvalEngine.ConstrainedTables EvalEngine.ServiceTables EvalEngine.Transactions
open EvalEngine.AuditService EvalEngine.ServiceContracts EvalEngine.RowOperations
open Entity Stored Contract

/-- An entry of `BUILTIN_METRICS`. -/
structure MetricDef where
  name : String
  displayName : String
  description : String
  metricType : MetricType
  higherIsBetter : Bool
  minValue : Float
  maxValue : Float

def builtinMetrics : List MetricDef :=
  [{ name := "accuracy_exact_match"
     displayName := "Exact Match Accuracy"
     description := "Proportion of outputs that exactly match the expected output"
     metricType := .accuracy
     higherIsBetter := true
     minValue := 0.0
     maxValue := 1.0 },
   { name := "f1_token"
     displayName := "Token-level F1 Score"
     description := "Harmonic mean of precision and recall at the token level"
     metricType := .f1
     higherIsBetter := true
     minValue := 0.0
     maxValue := 1.0 },
   { name := "bleu_4"
     displayName := "BLEU-4 Score"
     description := "BiLingual Evaluation Understudy with 4-gram precision"
     metricType := .bleu
     higherIsBetter := true
     minValue := 0.0
     maxValue := 1.0 },
   { name := "rouge_l"
     displayName := "ROUGE-L Score"
     description := "Longest common subsequence based recall metric"
     metricType := .rouge
     higherIsBetter := true
     minValue := 0.0
     maxValue := 1.0 },
   { name := "toxicity_score"
     displayName := "Toxicity Score"
     description := "Probability that the output contains toxic content (lower is better)"
     metricType := .toxicity
     higherIsBetter := false
     minValue := 0.0
     maxValue := 1.0 },
   { name := "response_latency"
     displayName := "Response Latency (ms)"
     description := "Time taken for the model to generate a response"
     metricType := .latency
     higherIsBetter := false
     minValue := 0.0
     maxValue := 60000.0 },
   { name := "coherence_score"
     displayName := "Coherence Score"
     description := "Semantic coherence and logical consistency of the output"
     metricType := .coherence
     higherIsBetter := true
     minValue := 0.0
     maxValue := 1.0 },
   { name := "relevance_score"
     displayName := "Relevance Score"
     description := "How relevant the output is to the input prompt"
     metricType := .relevance
     higherIsBetter := true
     minValue := 0.0
     maxValue := 1.0 }]

/-- The live built-in metrics of a name. -/
def builtinRows (name : String) (tables : Tables) : List Metric :=
  tables.metrics.rows.filter (fun metric =>
    decide (metric.name = name) && metric.isBuiltin && metric.deletedAt.isNone)

/-- The loop of `seed_builtin_metrics`: the definitions that are still to be created. -/
def missingMetrics : List MetricDef → Service (List MetricDef)
  | [] => pure []
  | metricDef :: rest => do
    match ← selectOne (builtinRows metricDef.name) with
    | some _ => missingMetrics rest
    | none =>
      let missing ← missingMetrics rest
      pure (metricDef :: missing)

def builtinMetric (id : UUID) (metricDef : MetricDef) : Metric where
  id
  name := metricDef.name
  displayName := metricDef.displayName
  description := some metricDef.description
  organizationId := none
  metricType := metricDef.metricType
  higherIsBetter := metricDef.higherIsBetter
  minValue := metricDef.minValue
  maxValue := metricDef.maxValue
  isBuiltin := true

/-- One flush inserts the pending metrics, one after the other. -/
def insertMetrics : List MetricDef → Tables → Except PyException Tables
  | [], tables => .ok tables
  | metricDef :: rest, tables => do
    let tables ← insertRow (builtinMetric (table tables : Table Metric).freshKey metricDef) tables
    insertMetrics rest tables

def seedBuiltinMetrics : Service Nat := do
  let created ← missingMetrics builtinMetrics
  flush (insertMetrics created)
  pure created.length

/-- The body of `POST /metrics`. -/
structure MetricCreate where
  name : String
  displayName : String
  description : Option String := none
  metricType : MetricType := .custom
  computationConfig : Option Dict := none
  higherIsBetter : Bool := true
  minValue : Float := 0.0
  maxValue : Float := 1.0

def newMetric (id orgId : UUID) (body : MetricCreate) : Metric where
  id
  name := body.name
  displayName := body.displayName
  description := body.description
  organizationId := some orgId
  metricType := body.metricType
  computationConfig := body.computationConfig.getD []
  higherIsBetter := body.higherIsBetter
  minValue := body.minValue
  maxValue := body.maxValue
  isBuiltin := false

def metricRows (name : String) (orgId : UUID) (tables : Tables) : List Metric :=
  tables.metrics.rows.filter (fun metric =>
    decide (metric.name = name) && decide (metric.organizationId = some orgId) &&
      metric.deletedAt.isNone)

def metricTaken (name : String) : PyException :=
  .conflict ("Metric with name '" ++ name ++ "' already exists in this organization")

def metricReport (metricId orgId userId : UUID) (ip : Option String) : Report where
  resourceType := "metric"
  resourceId := metricId
  organizationId := orgId
  userId := some userId
  ipAddress := ip

def createCustomMetric (ctx : Context) (orgId userId : UUID) (body : MetricCreate)
    (ip : Option String) : Service Metric :=
  refuseIfFound body.name (metricRows body.name orgId) (metricTaken body.name) do
    let metricId ← newKey Metric
    storeRow ctx "CREATE" (metricReport metricId orgId userId ip) (newMetric metricId orgId body)

section Contracts

variable (orgId userId : UUID) (body : MetricCreate) (ip : Option String)

abbrev addedMetric (tables : Tables) : Metric :=
  newMetric (table tables : Table Metric).freshKey orgId body

def createContract (tables : Tables) : Contract where
  guard := if (metricRows body.name orgId tables).isEmpty then none else some (metricTaken body.name)
  change := Inserted (addedMetric orgId body tables) tables
  entry := entryOf "CREATE" (metricReport (table tables : Table Metric).freshKey orgId userId ip)
  stated e he := by
    split at he
    · cases he
    · cases he
      rfl

/-- The look-up takes the name and does not match two rows, and where it
matches none the row fits. -/
def Creatable (tables : Tables) : Prop :=
  textStorable body.name = true ∧ (metricRows body.name orgId tables).length ≤ 1 ∧
    (metricRows body.name orgId tables = [] →
      references tables (addedMetric orgId body tables) = true ∧
      fits (addedMetric orgId body tables) = true)

/-- After a seed every built-in metric is there, and no other row has changed. -/
def Seeded (tables after : Tables) : Prop :=
  ∃ t : Table Metric, after = put t tables ∧
    (∃ added : List Metric, t.rows = (table tables : Table Metric).rows ++ added ∧
      ∀ metric ∈ added, metric.isBuiltin = true ∧ builtinRows metric.name tables = []) ∧
    ∀ metricDef ∈ builtinMetrics, builtinRows metricDef.name after ≠ []

def seedContract (tables : Tables) : Contract where
  guard := none
  change := Seeded tables
  entry := none
  stated := stated_none

/-- No name of a built-in metric has two live built-in rows. -/
def Seedable (tables : Tables) : Prop :=
  ∀ metricDef ∈ builtinMetrics, (builtinRows metricDef.name tables).length ≤ 1

variable {orgId userId body ip}

theorem createCustomMetric_follows (ctx : Context) (db : Database) :
    (createContract orgId userId body ip db.tables).Follows (Creatable orgId body db.tables) ctx db
      ((createCustomMetric ctx orgId userId body ip).run { state := db }) := by
  apply refuseIfFound_follows
  · intro hfound
    simp [createContract, hfound]
  intro hnone
  rw [run_bind_ok (run_newKey db)]
  exact storeRow_follows_known _ ctx db _ _ _ rfl (by rintro v ⟨⟩) (by simp [createContract, hnone])
    (fun _ hafter => hafter) rfl
    (Report.fits_plain (by decide : varchar 100 "metric" = true) rfl) (by decide)

/-- The definitions that the loop keeps. -/
def missingFrom (tables : Tables) (defs : List MetricDef) : List MetricDef :=
  defs.filter (fun metricDef => (builtinRows metricDef.name tables).isEmpty)

theorem run_missingMetrics {defs : List MetricDef} {db : Database}
    (h : ∀ metricDef ∈ defs, (builtinRows metricDef.name db.tables).length ≤ 1) :
    (missingMetrics defs).run { state := db } =
      (.ok (missingFrom db.tables defs), { state := db }) := by
  induction defs with
  | nil => rfl
  | cons metricDef rest ih =>
    have hrest := ih fun d hd => h d (List.mem_cons_of_mem _ hd)
    have hselect := run_selectOne (builtinRows metricDef.name) db
    have hone := h metricDef List.mem_cons_self
    cases hrows : builtinRows metricDef.name db.tables with
    | nil =>
      rw [hrows] at hselect
      rw [missingMetrics, run_bind_ok hselect]
      simp only
      rw [run_bind_ok hrest, run_pure]
      simp [missingFrom, hrows]
    | cons metric others =>
      rw [hrows] at hone
      obtain rfl : others = [] := List.eq_nil_of_length_eq_zero (by simpa using hone)
      rw [hrows] at hselect
      rw [missingMetrics, run_bind_ok hselect]
      simp only
      rw [hrest]
      simp [missingFrom, hrows]

theorem run_missingMetrics_error {defs : List MetricDef} {db : Database}
    (h : ¬ ∀ metricDef ∈ defs, (builtinRows metricDef.name db.tables).length ≤ 1) :
    (missingMetrics defs).run { state := db } = (.error .multipleResultsFound, { state := db }) := by
  induction defs with
  | nil => exact absurd (by simp) h
  | cons metricDef rest ih =>
    have hselect := run_selectOne (builtinRows metricDef.name) db
    cases hrows : builtinRows metricDef.name db.tables with
    | nil =>
      rw [hrows] at hselect
      have hrest := ih fun hall => h (by simpa [hrows] using hall)
      rw [missingMetrics, run_bind_ok hselect]
      simp only
      rw [run_bind_error hrest]
    | cons metric others =>
      cases others with
      | nil =>
        rw [hrows] at hselect
        have hrest := ih fun hall => h (by simpa [hrows] using hall)
        rw [missingMetrics, run_bind_ok hselect]
        exact hrest
      | cons other others =>
        rw [hrows] at hselect
        rw [missingMetrics, run_bind_error hselect]

theorem fits_builtinMetric {metricDef : MetricDef} (h : metricDef ∈ builtinMetrics) (id : UUID) :
    fits (builtinMetric id metricDef) = true := by
  -- the kernel reads a literal faster as the list of its characters
  have hall : ∀ d ∈ builtinMetrics, varchar 255 d.name = true ∧ varchar 255 d.displayName = true ∧
      textStorable d.description = true := by
    simp only [builtinMetrics, List.forall_mem_cons]
    refine ⟨?_, ?_, ?_, ?_, ?_, ?_, ?_, ?_, fun _ hd => absurd hd List.not_mem_nil⟩ <;>
      exact ⟨(varchar_ofList _ _).trans rfl, (varchar_ofList _ _).trans rfl,
        (textStorable_ofList _).trans rfl⟩
  obtain ⟨hname, hdisplayName, hdescription⟩ := hall metricDef h
  simp [fits, builtinMetric, hname, hdisplayName, hdescription, dictStorable]

/-- The rows that a seed adds are the live built-in rows of their definitions. -/
structure AddedFor (defs : List MetricDef) (added : List Metric) : Prop where
  builtin : ∀ metric ∈ added, metric.isBuiltin = true ∧ ∃ d ∈ defs, metric.name = d.name
  covered : ∀ d ∈ defs, ∃ metric ∈ added,
    metric.name = d.name ∧ metric.isBuiltin = true ∧ metric.deletedAt = none

theorem insertMetrics_ok {defs : List MetricDef} (hdefs : ∀ d ∈ defs, d ∈ builtinMetrics)
    (tables : Tables) :
    ∃ t added, insertMetrics defs tables = .ok (put t tables) ∧
      t.rows = (table tables : Table Metric).rows ++ added ∧ AddedFor defs added := by
  induction defs generalizing tables with
  | nil =>
    refine ⟨table tables, [], rfl, by simp, ⟨by simp, by simp⟩⟩
  | cons metricDef rest ih =>
    have hfits := fits_builtinMetric (hdefs metricDef List.mem_cons_self)
      (table tables : Table Metric).freshKey
    obtain ⟨_, _, mid, hinsert, t, rfl, hrows⟩ | ⟨hnot, _⟩ :=
      insertRow_cases (builtinMetric (table tables : Table Metric).freshKey metricDef) tables rfl
        (by rintro v ⟨⟩)
    · obtain ⟨t', added, hrest, hrows', hadded⟩ :=
        ih (fun d hd => hdefs d (List.mem_cons_of_mem _ hd)) (put t tables)
      refine ⟨t', builtinMetric (table tables : Table Metric).freshKey metricDef :: added, ?_, ?_, ?_⟩
      · rw [insertMetrics, hinsert]
        exact hrest
      · rw [hrows', table_put, hrows]
        simp
      · constructor
        · intro metric hmetric
          obtain rfl | hmetric := List.mem_cons.1 hmetric
          · exact ⟨rfl, metricDef, List.mem_cons_self, rfl⟩
          · obtain ⟨hbuiltin, d, hd, hname⟩ := hadded.builtin metric hmetric
            exact ⟨hbuiltin, d, List.mem_cons_of_mem _ hd, hname⟩
        · intro d hd
          obtain rfl | hd := List.mem_cons.1 hd
          · exact ⟨_, List.mem_cons_self, rfl, rfl, rfl⟩
          · obtain ⟨metric, hmetric, hprops⟩ := hadded.covered d hd
            exact ⟨metric, List.mem_cons_of_mem _ hmetric, hprops⟩
    · exact absurd ⟨rfl, hfits⟩ hnot

theorem seeded_of_added {tables : Tables} {t : Table Metric} {added : List Metric}
    (hrows : t.rows = (table tables : Table Metric).rows ++ added)
    (hadded : AddedFor (missingFrom tables builtinMetrics) added) :
    Seeded tables (put t tables) := by
  refine ⟨t, rfl, ⟨added, hrows, ?_⟩, ?_⟩
  · intro metric hmetric
    obtain ⟨hbuiltin, d, hd, hname⟩ := hadded.builtin metric hmetric
    have hempty := (List.mem_filter.1 hd).2
    exact ⟨hbuiltin, by rw [hname]; exact List.isEmpty_iff.1 hempty⟩
  · intro d hd
    have hfilter : builtinRows d.name (put t tables) = t.rows.filter (fun metric =>
        decide (metric.name = d.name) && metric.isBuiltin && metric.deletedAt.isNone) := rfl
    rw [hfilter, hrows, List.filter_append]
    by_cases hempty : builtinRows d.name tables = []
    · have hmissing : d ∈ missingFrom tables builtinMetrics :=
        List.mem_filter.2 ⟨hd, List.isEmpty_iff.2 hempty⟩
      obtain ⟨metric, hmetric, hname, hbuiltin, hlive⟩ := hadded.covered d hmissing
      have hmem : metric ∈ added.filter (fun metric =>
          decide (metric.name = d.name) && metric.isBuiltin && metric.deletedAt.isNone) :=
        List.mem_filter.2 ⟨hmetric, by simp [hname, hbuiltin, hlive]⟩
      intro hnil
      rw [(List.append_eq_nil_iff.1 hnil).2] at hmem
      cases hmem
    · intro hnil
      exact hempty (List.append_eq_nil_iff.1 hnil).1

theorem seedBuiltinMetrics_follows (ctx : Context) (db : Database) :
    (seedContract db.tables).Follows (Seedable db.tables) ctx db
      (seedBuiltinMetrics.run { state := db }) := by
  by_cases hseedable : Seedable db.tables
  · obtain ⟨t, added, hinsert, hrows, hadded⟩ := insertMetrics_ok
      (fun d hd => (List.mem_filter.1 hd).1 : ∀ d ∈ missingFrom db.tables builtinMetrics,
        d ∈ builtinMetrics) db.tables
    refine .inl ⟨hseedable, kept_of_ok (a := (missingFrom db.tables builtinMetrics).length) rfl
      (seeded_of_added hrows hadded) (by simp [seedContract]) ?_⟩
    rw [seedBuiltinMetrics, run_bind_ok (run_missingMetrics hseedable),
      run_bind_ok (run_flush_ok hinsert), run_pure]
    rfl
  · refine .inr ⟨hseedable, broken_of_error (e := .multipleResultsFound) ?_ rfl⟩
    rw [seedBuiltinMetrics, run_bind_error (run_missingMetrics_error hseedable)]

end Contracts

end EvalEngine.MetricService
