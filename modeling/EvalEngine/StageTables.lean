import EvalEngine.KeyedRows
import EvalEngine.QueryResults
import EvalEngine.RunModel

namespace EvalEngine.StageTables

open EvalEngine.JsonValues EvalEngine.Exceptions EvalEngine.RunModel EvalEngine.KeyedRows

/-- `updatedAt` is the time of the last UPDATE; a row without one has the
default of its INSERT. -/
structure Claim where
  id : UUID
  evaluationRunId : UUID
  submissionId : UUID
  organizationId : UUID
  claimText : String
  category : String
  sourceReference : Option String
  confidenceScore : ℚ
  verificationStatus : String := "unverified"
  evidence : Dict := []
  updatedAt : Option Time := none
  deletedAt : Option Time := none

structure Contradiction where
  id : UUID
  evaluationRunId : UUID
  organizationId : UUID
  claimAId : UUID
  claimBId : UUID
  contradictionType : String
  severity : ℚ
  explanation : String
  deletedAt : Option Time := none

structure Score where
  evaluationRunId : UUID
  organizationId : UUID
  dimension : String
  value : ℚ
  weight : ℚ
  rationale : Option String
  breakdown : Dict
  deletedAt : Option Time := none

/-- The tables behind the stages of the pipeline. Claims have distinct
primary keys, all taken from the counter. -/
structure Store where
  runs : List EvaluationRun
  claims : List Claim
  contradictions : List Contradiction
  scores : List Score
  nextId : UUID
  keys : (claims.map Claim.id).Nodup
  fresh : ∀ claim ∈ claims, claim.id < nextId

def Claim.storable (claim : Claim) : Bool :=
  textStorable claim.claimText && varchar 100 claim.category &&
    claim.sourceReference.all (varchar 500) && varchar 50 claim.verificationStatus &&
    dictStorable claim.evidence

def Contradiction.storable (c : Contradiction) : Bool :=
  varchar 100 c.contradictionType && textStorable c.explanation

def Score.storable (score : Score) : Bool :=
  varchar 100 score.dimension && score.rationale.all textStorable && dictStorable score.breakdown

theorem fresh_nil : ∀ claim ∈ ([] : List Claim), claim.id < 1 := by
  intro claim hc
  exact absurd hc List.not_mem_nil

theorem keys_append {claims : List Claim} {nextId : UUID} (hk : (claims.map Claim.id).Nodup)
    (hf : ∀ claim ∈ claims, claim.id < nextId) (claim : Claim) :
    ((claims ++ [{ claim with id := nextId }]).map Claim.id).Nodup := by
  have hnot : nextId ∉ claims.map Claim.id := by
    intro hmem
    obtain ⟨c, hc, hid⟩ := List.mem_map.1 hmem
    exact Nat.lt_irrefl nextId (hid ▸ hf c hc)
  simpa using hk.concat hnot

theorem fresh_append {claims : List Claim} {nextId : UUID}
    (hf : ∀ claim ∈ claims, claim.id < nextId) (claim : Claim) :
    ∀ c ∈ claims ++ [{ claim with id := nextId }], c.id < nextId + 1 := by
  intro c hc
  obtain hc | hc := List.mem_append.1 hc
  · exact Nat.lt_succ_of_lt (hf c hc)
  · obtain rfl := List.mem_singleton.1 hc
    exact Nat.lt_succ_self _

/-- INSERT of a claim, whose id the store assigns. -/
def Store.insertClaim (db : Store) (claim : Claim) : Except PyException (Store × Claim) :=
  if claim.storable then
    .ok ({ db with
      claims := db.claims ++ [{ claim with id := db.nextId }]
      nextId := db.nextId + 1
      keys := keys_append db.keys db.fresh claim
      fresh := fresh_append db.fresh claim }, { claim with id := db.nextId })
  else .error (.databaseError "claims: value does not fit its column")

def Store.insertContradiction (db : Store) (c : Contradiction) : Except PyException Store :=
  if c.storable then
    .ok { db with
      contradictions := db.contradictions ++ [{ c with id := db.nextId }]
      nextId := db.nextId + 1
      fresh := fun claim hc => Nat.lt_succ_of_lt (db.fresh claim hc) }
  else .error (.databaseError "contradictions: value does not fit its column")

/-- The live score that the partial unique index reserves for a dimension. -/
def Store.scored (db : Store) (runId : UUID) (dimension : String) : Bool :=
  db.scores.any (fun score => decide (score.evaluationRunId = runId) &&
    decide (score.dimension = dimension) && score.deletedAt.isNone)

def Store.insertScore (db : Store) (score : Score) : Except PyException Store :=
  if score.value < 0 ∨ 1 < score.value then .error (.databaseError "ck_scores_value_range")
  else if score.weight < 0 ∨ 1 < score.weight then .error (.databaseError "ck_scores_weight_range")
  else if db.scored score.evaluationRunId score.dimension then
    .error (.databaseError "uq_scores_run_dimension_active")
  else if score.storable then .ok { db with scores := db.scores ++ [score] }
  else .error (.databaseError "scores: value does not fit its column")

def Claim.assessed (status : String) (evidence : Dict) (now : Time) (claim : Claim) : Claim :=
  { claim with verificationStatus := status, evidence := evidence, updatedAt := some now }

theorem ids_assessed (id : UUID) (status : String) (evidence : Dict) (now : Time)
    (claims : List Claim) :
    (update Claim.id id (Claim.assessed status evidence now) claims).map Claim.id =
      claims.map Claim.id :=
  map_key_update Claim.id id (Claim.assessed status evidence now) (fun _ => rfl) claims

theorem fresh_of_ids {claims claims' : List Claim} {nextId : UUID}
    (hids : claims'.map Claim.id = claims.map Claim.id) (hf : ∀ claim ∈ claims, claim.id < nextId) :
    ∀ claim ∈ claims', claim.id < nextId := by
  intro claim hmem
  have hid : claim.id ∈ claims.map Claim.id := hids ▸ List.mem_map_of_mem hmem
  obtain ⟨c, hc, hc'⟩ := List.mem_map.1 hid
  exact hc' ▸ hf c hc

/-- UPDATE claims SET verification_status, evidence WHERE id, with the
`onupdate` of `updated_at`. -/
def Store.assessClaim (db : Store) (id : UUID) (status : String) (evidence : Dict) (now : Time) :
    Except PyException Store :=
  if dictStorable evidence then
    .ok { db with
      claims := update Claim.id id (Claim.assessed status evidence now) db.claims
      keys := ids_assessed id status evidence now db.claims ▸ db.keys
      fresh := fresh_of_ids (ids_assessed id status evidence now db.claims) db.fresh }
  else .error (.databaseError "claims: value does not fit its column")

/-- What the stages leave behind for a run, as far as redelivery is concerned. -/
structure SameRows (db db' : Store) : Prop where
  claims : db'.claims = db.claims
  contradictions : db'.contradictions = db.contradictions
  scores : db'.scores = db.scores

end EvalEngine.StageTables
