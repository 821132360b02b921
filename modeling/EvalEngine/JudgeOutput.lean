import EvalEngine.ExceptLists
import EvalEngine.JsonSchema
import EvalEngine.LlmJudge

namespace EvalEngine.JudgeOutput

open EvalEngine.PythonValues EvalEngine.JsonSchema EvalEngine.ExceptLists
open EvalEngine.LlmJudge (dimensionWeights)

def dimensions : List String := dimensionWeights.map Prod.fst

def dimensionSchema : Schema := .object [] [("value", .number 0 1), ("rationale", .string)]

/-- `LLM_OUTPUT_SCHEMA`. -/
def llmOutputSchema : Schema :=
  .object ["scores", "overall_assessment", "key_strengths", "key_risks"]
    [("scores", .object dimensions (dimensions.map (fun dim => (dim, dimensionSchema)))),
      ("overall_assessment", .string),
      ("key_strengths", .array .string),
      ("key_risks", .array .string)]

/-- `key in v`. -/
def contains (key : String) : PyValue → Except BuiltinError Bool
  | .dict entries => .ok (field? key entries).isSome
  | .list items | .tuple items =>
    .ok (items.any fun item => match item with
      | .str s => decide (s = text key)
      | _ => false)
  | .str s => .ok (decide (text key <:+: s))
  | _ => .error .typeError

/-- `v[key]`. -/
def getItem (key : String) : PyValue → Except BuiltinError PyValue
  | .dict entries => (field? key entries).elim (.error .keyError) .ok
  | _ => .error .typeError

def inUnit (value : PyValue) : Bool := value.number?.any (fun n => !below 0 n && !above 1 n)

def validData : PyValue → Bool
  | .dict entries => (field? "value" entries).any inUnit
  | _ => false

/-- One turn of the loop of the validation. -/
def validDimension (scores : PyValue) (dim : String) : Except BuiltinError Bool :=
  (contains dim scores).bind fun present =>
    if present then (getItem dim scores).map validData else .ok false

def validDimensions (scores : PyValue) : List String → Except BuiltinError Bool
  | [] => .ok true
  | dim :: dims =>
    (validDimension scores dim).bind fun valid =>
      if valid then validDimensions scores dims else .ok false

/-- `_validate_llm_output`. An exception counts as a refusal. -/
def validateLlmOutput (output : PyValue) : Option PyValue :=
  match output with
  | .dict entries =>
    (field? "scores" entries).bind fun scores =>
      match validDimensions scores dimensions with
      | .ok true => some output
      | _ => none
  | _ => none

/-- The values that step 5 puts into the columns of a score. -/
structure ScoreRow where
  dimension : String
  value : PyValue
  weight : ℚ
  rationale : PyValue

/-- `v.get(key, default)`. -/
def getField (key : String) (default_ : PyValue) : PyValue → Except BuiltinError PyValue
  | .dict entries => .ok ((field? key entries).getD default_)
  | _ => .error .attributeError

def newScoreRow (scores : PyValue) (dw : String × ℚ) : Except BuiltinError ScoreRow :=
  (getField dw.1 (.dict []) scores).bind fun data =>
    (getField "value" (.float (.finite (1 / 2))) data).bind fun value =>
      (getField "rationale" (.str []) data).map fun rationale =>
        { dimension := dw.1, value, weight := dw.2, rationale }

def scoreRows (validated : PyValue) : Except BuiltinError (List ScoreRow) :=
  (getItem "scores" validated).bind fun scores => dimensionWeights.mapM (newScoreRow scores)

/-- The double that a column of scores holds. -/
def floatColumn (value : PyValue) : Option PyFloat :=
  value.number?.map fun n => match n with
    | .int k => .finite k
    | .float x => x

/-- `value >= bound` of PostgreSQL, where a NaN is greater than every number. -/
def atLeast (bound : ℚ) : PyFloat → Bool
  | .finite q => decide (bound ≤ q)
  | .inf | .nan => true
  | .negInf => false

def atMost (bound : ℚ) : PyFloat → Bool
  | .finite q => decide (q ≤ bound)
  | .negInf => true
  | .inf | .nan => false

/-- The CHECK constraints on scores. -/
def ScoreRow.checks (row : ScoreRow) : Bool :=
  (floatColumn row.value).any (fun x => atLeast 0 x && atMost 1 x) &&
    (decide (0 ≤ row.weight) && decide (row.weight ≤ 1))

/-- The finite number that a value is. -/
def finite? (value : PyValue) : Option ℚ :=
  (jsonNumber? value).bind fun n => match n with
    | .int k => some (k : ℚ)
    | .float (.finite q) => some q
    | .float _ => none

/-- The entry of a dimension, in the scores of an output. -/
def dataOf (output : PyValue) (dim : String) : Option PyValue :=
  match output with
  | .dict entries => (field? "scores" entries).bind fun scores => match scores with
    | .dict scores => field? dim scores
    | _ => none
  | _ => none

def entryOf (key : String) (output : PyValue) (dim : String) : Option PyValue :=
  (dataOf output dim).bind fun data => match data with
    | .dict entries => field? key entries
    | _ => none

/-- What is promised of an accepted output. -/
structure WellFormed (output : PyValue) : Prop where
  schema : llmOutputSchema.accepts output = true
  values : ∀ dim ∈ dimensions, ∃ value q, entryOf "value" output dim = some value ∧
    finite? value = some q ∧ 0 ≤ q ∧ q ≤ 1
  rows : ∃ rows, scoreRows output = .ok rows ∧
    ∀ row ∈ rows, row.checks = true ∧ ∃ s, row.rationale = .str s

/-- A field of a record. -/
def fieldOf (key : String) : PyValue → Option PyValue
  | .dict entries => field? key entries
  | _ => none

def IsTexts (v : PyValue) : Prop := ∃ items, v = .list items ∧ ∀ item ∈ items, ∃ s, item = .str s

/-- What the validation does not look at: the texts around the scores, the
rationales, and whether a value is a boolean or a NaN. -/
structure Complete (output : PyValue) : Prop where
  assessment : ∃ s, fieldOf "overall_assessment" output = some (.str s)
  strengths : ∃ v, fieldOf "key_strengths" output = some v ∧ IsTexts v
  risks : ∃ v, fieldOf "key_risks" output = some v ∧ IsTexts v
  values : ∀ dim ∈ dimensions, ∀ value, entryOf "value" output dim = some value →
    (∀ b, value ≠ .bool b) ∧ value ≠ .float .nan
  rationales : ∀ dim ∈ dimensions, ∀ rationale, entryOf "rationale" output dim = some rationale →
    ∃ s, rationale = .str s

/-- The scores of an output that the validation accepts. -/
structure Scored (entries scores : List (PyValue × PyValue)) : Prop where
  isScores : field? "scores" entries = some (.dict scores)
  data : ∀ dim ∈ dimensions, ∃ data value, field? dim scores = some (.dict data) ∧
    field? "value" data = some value ∧ inUnit value = true

theorem validDimension_eq_true {scores : PyValue} {dim : String}
    (h : validDimension scores dim = .ok true) : ∃ entries data value, scores = .dict entries ∧
      field? dim entries = some (.dict data) ∧ field? "value" data = some value ∧
      inUnit value = true := by
  cases scores with
  | dict entries =>
    cases hfield : field? dim entries with
    | none =>
      simp [validDimension, contains, hfield, Except.bind] at h
    | some data =>
      simp only [validDimension, contains, getItem, hfield, Except.bind, Option.isSome_some, if_true,
        Option.elim, Except.map, Except.ok.injEq] at h
      cases data with
      | dict data =>
        cases hvalue : field? "value" data with
        | none => simp [validData, hvalue] at h
        | some value => exact ⟨entries, data, value, rfl, hfield, hvalue, by simpa [validData, hvalue] using h⟩
      | none | bool | int | float | str | list | tuple | object => cases h
  | list items | tuple items =>
    simp only [validDimension, contains, getItem, Except.bind, Except.map] at h
    split at h <;> cases h
  | str s =>
    simp only [validDimension, contains, getItem, Except.bind, Except.map] at h
    split at h <;> cases h
  | none | bool | int | float | object => cases h

theorem validDimensions_eq_true {scores : PyValue} {dims : List String}
    (h : validDimensions scores dims = .ok true) :
    ∀ dim ∈ dims, validDimension scores dim = .ok true := by
  induction dims with
  | nil => simp
  | cons dim dims ih =>
    cases hvalid : validDimension scores dim with
    | error e => simp [validDimensions, hvalid, Except.bind] at h
    | ok valid =>
      simp only [validDimensions, hvalid, Except.bind] at h
      cases valid with
      | false => simp at h
      | true =>
        intro d hd
        obtain rfl | hd := List.mem_cons.1 hd
        · exact hvalid
        · exact ih h d hd

theorem scored_of_validate {output validated : PyValue} (h : validateLlmOutput output = some validated) :
    validated = output ∧ ∃ entries scores, output = .dict entries ∧ Scored entries scores := by
  cases output with
  | dict entries =>
    obtain ⟨scores, hscores, hvalid⟩ := Option.bind_eq_some_iff.1 h
    split at hvalid
    next hall =>
      have hdims := validDimensions_eq_true hall
      have hmem : "overall" ∈ dimensions := by decide
      obtain ⟨dict, _, _, rfl, _⟩ := validDimension_eq_true (hdims _ hmem)
      refine ⟨(Option.some.inj hvalid).symm, entries, dict, rfl, hscores, ?_⟩
      intro dim hdim
      obtain ⟨dict', data, value, hdict, hdata, hvalue, hunit⟩ := validDimension_eq_true (hdims dim hdim)
      cases hdict
      exact ⟨data, value, hdata, hvalue, hunit⟩
    next => cases hvalid
  | none | bool | int | float | str | list | tuple | object => cases h

theorem entryOf_scored {entries scores data : List (PyValue × PyValue)} (h : Scored entries scores)
    {dim : String} (hdata : field? dim scores = some (.dict data)) (key : String) :
    entryOf key (.dict entries) dim = field? key data := by
  simp only [entryOf, dataOf, h.isScores, hdata, Option.bind_some]

/-- A number in the unit interval that is neither a boolean nor a NaN is a finite one. -/
theorem finite_of_inUnit {value : PyValue} (h : inUnit value = true) (hbool : ∀ b, value ≠ .bool b)
    (hnan : value ≠ .float .nan) : ∃ q, finite? value = some q ∧ 0 ≤ q ∧ q ≤ 1 := by
  cases value with
  | bool b => exact absurd rfl (hbool b)
  | int n =>
    have hrange : (0 : ℚ) ≤ n ∧ (n : ℚ) ≤ 1 := by
      simpa [inUnit, Value.number?, below, above] using h
    exact ⟨n, rfl, hrange⟩
  | float x =>
    cases x with
    | finite q =>
      have hrange : 0 ≤ q ∧ q ≤ 1 := by
        simpa [inUnit, Value.number?, below, above, PyFloat.below, PyFloat.above] using h
      exact ⟨q, rfl, hrange⟩
    | inf => exact absurd h (by decide)
    | negInf => exact absurd h (by decide)
    | nan => exact absurd rfl hnan
  | none | str | list | tuple | dict | object => cases h

theorem accepts_number_iff {value : PyValue} {q : ℚ} (h : finite? value = some q) (low high : ℚ) :
    (Schema.number low high).accepts value = true ↔ low ≤ q ∧ q ≤ high := by
  cases value with
  | int n =>
    cases h
    simp [Schema.accepts, jsonNumber?, below, above]
  | float x =>
    cases x with
    | finite r =>
      cases h
      simp [Schema.accepts, jsonNumber?, below, above, PyFloat.below, PyFloat.above]
    | inf | negInf | nan => cases h
  | none | bool | str | list | tuple | dict | object => cases h

theorem checks_of_finite {row : ScoreRow} {q : ℚ} (h : finite? row.value = some q)
    (hq : 0 ≤ q ∧ q ≤ 1) (hw : 0 ≤ row.weight ∧ row.weight ≤ 1) : row.checks = true := by
  have hcolumn : floatColumn row.value = some (.finite q) := by
    cases hvalue : row.value with
    | int n =>
      rw [hvalue] at h
      cases h
      rfl
    | float x =>
      rw [hvalue] at h
      cases x with
      | finite r =>
        cases h
        rfl
      | inf | negInf | nan => cases h
    | none | bool | str | list | tuple | dict | object =>
      rw [hvalue] at h
      cases h
  simp [ScoreRow.checks, hcolumn, atLeast, atMost, hq, hw]

theorem weights_mem : ∀ dw ∈ dimensionWeights, 0 ≤ dw.2 ∧ dw.2 ≤ 1 := by
  intro dw hdw
  simp only [dimensionWeights, List.mem_cons, List.not_mem_nil, or_false] at hdw
  obtain rfl | rfl | rfl | rfl | rfl | rfl := hdw <;> norm_num

variable {entries scores : List (PyValue × PyValue)}

theorem values_of_complete (h : Scored entries scores) (hcomplete : Complete (.dict entries)) :
    ∀ dim ∈ dimensions, ∃ value q, entryOf "value" (.dict entries) dim = some value ∧
      finite? value = some q ∧ 0 ≤ q ∧ q ≤ 1 := by
  intro dim hdim
  obtain ⟨data, value, hdata, hvalue, hunit⟩ := h.data dim hdim
  have hentry : entryOf "value" (.dict entries) dim = some value := (entryOf_scored h hdata _).trans hvalue
  obtain ⟨hbool, hnan⟩ := hcomplete.values dim hdim value hentry
  obtain ⟨q, hq, hrange⟩ := finite_of_inUnit hunit hbool hnan
  exact ⟨value, q, hentry, hq, hrange⟩

theorem schema_of_complete (h : Scored entries scores) (hcomplete : Complete (.dict entries)) :
    llmOutputSchema.accepts (.dict entries) = true := by
  obtain ⟨assessment, hassessment⟩ := hcomplete.assessment
  obtain ⟨strengths, hstrengths, htexts⟩ := hcomplete.strengths
  obtain ⟨risks, hrisks, htexts'⟩ := hcomplete.risks
  have hassessment' : field? "overall_assessment" entries = some (.str assessment) := hassessment
  have hstrengths' : field? "key_strengths" entries = some strengths := hstrengths
  have hrisks' : field? "key_risks" entries = some risks := hrisks
  rw [llmOutputSchema, accepts_object_iff]
  constructor
  · intro key hkey
    simp only [List.mem_cons, List.not_mem_nil, or_false] at hkey
    obtain rfl | rfl | rfl | rfl := hkey
    · exact ⟨_, h.isScores⟩
    · exact ⟨_, hassessment'⟩
    · exact ⟨_, hstrengths'⟩
    · exact ⟨_, hrisks'⟩
  · intro p hp v hv
    simp only [List.mem_cons, List.not_mem_nil, or_false] at hp
    obtain rfl | rfl | rfl | rfl := hp
    · rw [h.isScores] at hv
      cases hv
      rw [accepts_object_iff]
      constructor
      · intro dim hdim
        obtain ⟨data, _, hdata, _⟩ := h.data dim hdim
        exact ⟨_, hdata⟩
      · intro p hp v hv
        obtain ⟨dim, hdim, rfl⟩ := List.mem_map.1 hp
        obtain ⟨data, value, hdata, hvalue, _⟩ := h.data dim hdim
        have hv' : field? dim scores = some v := hv
        rw [hdata] at hv'
        cases hv'
        obtain ⟨value', q, hvalue', hq, hrange⟩ := values_of_complete h hcomplete dim hdim
        rw [entryOf_scored h hdata] at hvalue'
        change dimensionSchema.accepts (.dict data) = true
        rw [dimensionSchema, accepts_object_iff]
        refine ⟨by simp, ?_⟩
        intro p hp v hv
        simp only [List.mem_cons, List.not_mem_nil, or_false] at hp
        obtain rfl | rfl := hp
        · have hv' : field? "value" data = some v := hv
          rw [hvalue'] at hv'
          cases hv'
          exact (accepts_number_iff hq 0 1).2 hrange
        · have hrationale := hcomplete.rationales dim hdim v ((entryOf_scored h hdata _).trans hv)
          exact accepts_string_iff.2 hrationale
    · have hv' : field? "overall_assessment" entries = some v := hv
      rw [hassessment'] at hv'
      cases hv'
      rfl
    · have hv' : field? "key_strengths" entries = some v := hv
      rw [hstrengths'] at hv'
      cases hv'
      exact accepts_texts_iff.2 htexts
    · have hv' : field? "key_risks" entries = some v := hv
      rw [hrisks'] at hv'
      cases hv'
      exact accepts_texts_iff.2 htexts'

theorem rows_of_complete (h : Scored entries scores) (hcomplete : Complete (.dict entries)) :
    ∃ rows, scoreRows (.dict entries) = .ok rows ∧
      ∀ row ∈ rows, row.checks = true ∧ ∃ s, row.rationale = .str s := by
  have hrow : ∀ dw ∈ dimensionWeights, ∃ row, newScoreRow (.dict scores) dw = .ok row ∧
      row.checks = true ∧ ∃ s, row.rationale = .str s := by
    intro dw hdw
    have hdim : dw.1 ∈ dimensions := List.mem_map_of_mem hdw
    obtain ⟨data, _, hdata, _⟩ := h.data dw.1 hdim
    obtain ⟨value, q, hvalue, hq, hrange⟩ := values_of_complete h hcomplete dw.1 hdim
    rw [entryOf_scored h hdata] at hvalue
    refine ⟨⟨dw.1, value, dw.2, (field? "rationale" data).getD (.str [])⟩, ?_, ?_, ?_⟩
    · simp only [newScoreRow, getField, hdata, hvalue, Except.bind, Except.map, Option.getD_some]
    · exact checks_of_finite hq hrange (weights_mem dw hdw)
    · cases hrationale : field? "rationale" data with
      | none => exact ⟨[], rfl⟩
      | some rationale =>
        exact hcomplete.rationales dw.1 hdim rationale ((entryOf_scored h hdata _).trans hrationale)
  have hitem : getItem "scores" (.dict entries) = .ok (.dict scores) := by
    simp only [getItem, h.isScores, Option.elim]
  obtain ⟨rows, hrows, hall⟩ := mapM_exists hrow
  refine ⟨rows, ?_, hall⟩
  rw [scoreRows, hitem]
  exact hrows

theorem complete_of_wellFormed (h : Scored entries scores) (hformed : WellFormed (.dict entries)) :
    Complete (.dict entries) := by
  have hschema := hformed.schema
  rw [llmOutputSchema, accepts_object_iff] at hschema
  obtain ⟨hrequired, hproperties⟩ := hschema
  obtain ⟨assessment, hassessment⟩ := hrequired "overall_assessment" (by simp)
  obtain ⟨strengths, hstrengths⟩ := hrequired "key_strengths" (by simp)
  obtain ⟨risks, hrisks⟩ := hrequired "key_risks" (by simp)
  have hscores := hproperties ("scores", _) List.mem_cons_self _ h.isScores
  rw [accepts_object_iff] at hscores
  constructor
  · have haccepts := hproperties ("overall_assessment", .string) (by simp) _ hassessment
    obtain ⟨s, rfl⟩ := accepts_string_iff.1 haccepts
    exact ⟨s, hassessment⟩
  · exact ⟨strengths, hstrengths, accepts_texts_iff.1
      (hproperties ("key_strengths", .array .string) (by simp) _ hstrengths)⟩
  · exact ⟨risks, hrisks, accepts_texts_iff.1
      (hproperties ("key_risks", .array .string) (by simp) _ hrisks)⟩
  · intro dim hdim value hvalue
    obtain ⟨value', q, hvalue', hq, _⟩ := hformed.values dim hdim
    rw [hvalue] at hvalue'
    cases hvalue'
    constructor
    · rintro b rfl
      cases hq
    · rintro rfl
      cases hq
  · intro dim hdim rationale hrationale
    obtain ⟨data, _, hdata, _⟩ := h.data dim hdim
    rw [entryOf_scored h hdata] at hrationale
    have hdimension := hscores.2 (dim, dimensionSchema) (List.mem_map_of_mem hdim) _ hdata
    rw [dimensionSchema, accepts_object_iff] at hdimension
    exact accepts_string_iff.1 (hdimension.2 ("rationale", .string) (by simp) _ hrationale)

/-- An accepted output is well formed exactly when it is complete where the
validation does not look. -/
theorem accepted_wellFormed_iff (output validated : PyValue)
    (h : validateLlmOutput output = some validated) : WellFormed validated ↔ Complete output := by
  obtain ⟨rfl, entries, scores, rfl, hscored⟩ := scored_of_validate h
  exact ⟨complete_of_wellFormed hscored, fun hcomplete => ⟨schema_of_complete hscored hcomplete,
    values_of_complete hscored hcomplete, rows_of_complete hscored hcomplete⟩⟩

theorem validDimensions_of_forall {scores : PyValue} {dims : List String}
    (h : ∀ dim ∈ dims, validDimension scores dim = .ok true) : validDimensions scores dims = .ok true := by
  induction dims with
  | nil => rfl
  | cons dim dims ih =>
    have hrest := ih fun d hd => h d (List.mem_cons_of_mem _ hd)
    simp only [validDimensions, h dim List.mem_cons_self, Except.bind, hrest, if_true]

theorem validate_of_scored (h : Scored entries scores) :
    validateLlmOutput (.dict entries) = some (.dict entries) := by
  have hall : validDimensions (.dict scores) dimensions = .ok true := by
    apply validDimensions_of_forall
    intro dim hdim
    obtain ⟨data, value, hdata, hvalue, hunit⟩ := h.data dim hdim
    simp only [validDimension, contains, getItem, hdata, Except.bind, Except.map, Option.isSome_some,
      if_true, Option.elim, validData, hvalue, Option.any_some, hunit]
  simp only [validateLlmOutput, h.isScores, Option.bind_some, hall]

section Decoded

open EvalEngine.JsonValues

mutual

/-- A decoded value as Python holds it, a number without a fraction as an `int`. -/
def ofJson : Json → PyValue
  | .null => .none
  | .bool b => .bool b
  | .num q => if q.den = 1 then .int q.num else .float (.finite q)
  | .str s => .str (text s)
  | .arr items => .list (ofItems items)
  | .obj fields => .dict (ofFields fields)

def ofItems : List Json → List PyValue
  | [] => []
  | v :: items => ofJson v :: ofItems items

def ofFields : List (String × Json) → List (PyValue × PyValue)
  | [] => []
  | (key, v) :: fields => (.str (text key), ofJson v) :: ofFields fields

end

theorem field?_ofFields (key : String) (d : Dict) : field? key (ofFields d) = (find key d).map ofJson := by
  induction d with
  | nil => rfl
  | cons p d ih =>
    obtain ⟨k, v⟩ := p
    rw [ofFields, field?_cons, ih, find]
    split <;> rfl

theorem inUnit_ofJson (v : Json) : inUnit (ofJson v) = LlmJudge.inUnit v := by
  cases v with
  | num q =>
    by_cases hint : q.den = 1
    · have hq : (q.num : ℚ) = q := Rat.coe_int_num_of_den_eq_one hint
      simp [ofJson, hint, inUnit, LlmJudge.inUnit, Value.number?, below, above, hq, ← decide_not]
    · simp [ofJson, hint, inUnit, LlmJudge.inUnit, Value.number?, below, above, PyFloat.below,
        PyFloat.above, ← decide_not]
  | bool b => cases b <;> decide
  | null | str | arr | obj => rfl

theorem validData_ofJson (v : Json) : validData (ofJson v) =
    match v with
    | .obj data => (find "value" data).any LlmJudge.inUnit
    | _ => false := by
  cases v with
  | obj data =>
    simp only [ofJson, validData, field?_ofFields]
    cases find "value" data with
    | none => rfl
    | some value => exact inUnit_ofJson value
  | num q =>
    simp only [ofJson]
    split <;> rfl
  | null | bool | str | arr => rfl

theorem validDimension_ofFields (scores : Dict) (dim : String) :
    validDimension (.dict (ofFields scores)) dim = .ok (LlmJudge.validDimension scores dim) := by
  simp only [validDimension, contains, getItem, field?_ofFields, LlmJudge.validDimension]
  cases find dim scores with
  | none => rfl
  | some v =>
    have hvalid := validData_ofJson v
    simp only [Option.map_some, Option.isSome_some, Except.bind, if_true, Option.elim, Except.map, hvalid]
    cases v <;> rfl

theorem validDimensions_ofFields (scores : Dict) (dims : List String) :
    validDimensions (.dict (ofFields scores)) dims =
      .ok (dims.all (LlmJudge.validDimension scores)) := by
  induction dims with
  | nil => rfl
  | cons dim dims ih =>
    rw [validDimensions, validDimension_ofFields, ih]
    simp only [Except.bind, List.all_cons]
    cases LlmJudge.validDimension scores dim <;> rfl

theorem validate_not_dict {entries : List (PyValue × PyValue)} {scores : PyValue}
    (h : field? "scores" entries = some scores) (hnot : ∀ fields, scores ≠ .dict fields) :
    validateLlmOutput (.dict entries) = none := by
  apply Option.eq_none_iff_forall_ne_some.2
  intro validated hvalidated
  obtain ⟨_, _, fields, heq, hscored⟩ := scored_of_validate hvalidated
  cases heq
  have hscores := hscored.isScores
  rw [h, Option.some.injEq] at hscores
  exact hnot fields hscores

/-- The stage validates decoded answers in the same way. -/
theorem validateLlmOutput_ofJson (v : Json) : validateLlmOutput (ofJson v) =
    (LlmJudge.validateLlmOutput v).map fun output => ofJson (.obj output) := by
  cases v with
  | obj output =>
    have hfield := field?_ofFields "scores" output
    cases hscores : find "scores" output with
    | none =>
      rw [hscores] at hfield
      simp [ofJson, validateLlmOutput, LlmJudge.validateLlmOutput, hfield, hscores]
    | some scores =>
      rw [hscores] at hfield
      cases scores with
      | obj scores =>
        have hall : dimensions.all (LlmJudge.validDimension scores) =
            dimensionWeights.all fun dw => LlmJudge.validDimension scores dw.1 := List.all_map
        simp only [ofJson, validateLlmOutput, LlmJudge.validateLlmOutput, hfield, hscores,
          Option.map_some, Option.bind_some, validDimensions_ofFields, hall]
        cases dimensionWeights.all fun dw => LlmJudge.validDimension scores dw.1 <;> rfl
      | num q =>
        have hnot : ∀ fields, ofJson (.num q) ≠ .dict fields := by
          intro fields
          simp only [ofJson]
          split <;> rintro ⟨⟩
        simp [ofJson, LlmJudge.validateLlmOutput, hscores, validate_not_dict hfield hnot]
      | null | bool | str | arr =>
        rw [ofJson, validate_not_dict hfield (by rintro fields ⟨⟩)]
        simp [LlmJudge.validateLlmOutput, hscores]
  | num q =>
    simp only [ofJson]
    split <;> rfl
  | null | bool | str | arr => rfl

end Decoded

def fieldsOf (fields : List (String × PyValue)) : List (PyValue × PyValue) :=
  fields.map (fun field => (.str (text field.1), field.2))

theorem field?_fieldsOf (key : String) (fields : List (String × PyValue)) :
    field? key (fieldsOf fields) = (fields.find? (fun field => field.1 = key)).map Prod.snd := by
  induction fields with
  | nil => rfl
  | cons field fields ih =>
    rw [fieldsOf, List.map_cons, field?_cons, ← fieldsOf, ih, List.find?_cons]
    by_cases h : field.1 = key <;> simp [h]

/-- The same value in every dimension. -/
def scoresWith (value : PyValue) : List (PyValue × PyValue) :=
  fieldsOf (dimensions.map (fun dim => (dim, .dict (fieldsOf [("value", value)]))))

def outputWith (value : PyValue) : List (PyValue × PyValue) :=
  fieldsOf [("scores", .dict (scoresWith value)), ("overall_assessment", .str []),
    ("key_strengths", .list []), ("key_risks", .list [])]

theorem data_scoresWith (value : PyValue) {dim : String} (h : dim ∈ dimensions) :
    field? dim (scoresWith value) = some (.dict (fieldsOf [("value", value)])) := by
  rw [scoresWith, field?_fieldsOf, List.find?_map]
  simp only [dimensions, dimensionWeights, List.map_cons, List.map_nil, List.mem_cons, List.not_mem_nil,
    or_false] at h ⊢
  obtain rfl | rfl | rfl | rfl | rfl | rfl := h <;> simp

theorem scored_outputWith {value : PyValue} (h : inUnit value = true) :
    Scored (outputWith value) (scoresWith value) := by
  constructor
  · rw [outputWith, field?_fieldsOf]
    rfl
  · intro dim hdim
    refine ⟨_, value, data_scoresWith value hdim, ?_, h⟩
    rw [field?_fieldsOf]
    rfl

theorem entryOf_outputWith {value : PyValue} (h : inUnit value = true) {dim : String}
    (hdim : dim ∈ dimensions) : entryOf "value" (.dict (outputWith value)) dim = some value ∧
      entryOf "rationale" (.dict (outputWith value)) dim = none := by
  have hentry := entryOf_scored (scored_outputWith h) (data_scoresWith value hdim)
  rw [hentry, hentry, field?_fieldsOf, field?_fieldsOf]
  exact ⟨rfl, rfl⟩

/-- A NaN passes both comparisons of the validation. -/
theorem nan_accepted :
    validateLlmOutput (.dict (outputWith (.float .nan))) = some (.dict (outputWith (.float .nan))) ∧
      ¬ WellFormed (.dict (outputWith (.float .nan))) := by
  have hunit : inUnit (.float .nan) = true := by decide
  refine ⟨validate_of_scored (scored_outputWith hunit), ?_⟩
  intro h
  have hmem : "overall" ∈ dimensions := by decide
  obtain ⟨value, q, hvalue, hq, _⟩ := h.values "overall" hmem
  rw [(entryOf_outputWith hunit hmem).1] at hvalue
  cases hvalue
  cases hq

theorem accepted_wellFormed_iff_half :
    WellFormed (.dict (outputWith (.float (.finite (1 / 2))))) := by
  have hunit : inUnit (.float (.finite (1 / 2))) = true := by decide +kernel
  apply (accepted_wellFormed_iff (.dict (outputWith (.float (.finite (1 / 2)))))
    (.dict (outputWith (.float (.finite (1 / 2))))) (validate_of_scored (scored_outputWith hunit))).2
  have hfield : ∀ key, fieldOf key (.dict (outputWith (.float (.finite (1 / 2))))) =
      field? key (outputWith (.float (.finite (1 / 2)))) := fun _ => rfl
  constructor
  · rw [hfield, outputWith, field?_fieldsOf]
    exact ⟨[], rfl⟩
  · rw [hfield, outputWith, field?_fieldsOf]
    exact ⟨.list [], rfl, [], rfl, by simp⟩
  · rw [hfield, outputWith, field?_fieldsOf]
    exact ⟨.list [], rfl, [], rfl, by simp⟩
  · intro dim hdim value hvalue
    rw [(entryOf_outputWith hunit hdim).1] at hvalue
    cases hvalue
    simp
  · intro dim hdim rationale hrationale
    rw [(entryOf_outputWith hunit hdim).2] at hrationale
    cases hrationale

end EvalEngine.JudgeOutput
