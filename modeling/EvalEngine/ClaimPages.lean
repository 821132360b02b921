import EvalEngine.Paging
import EvalEngine.ResultService
import Mathlib.Order.Basic

namespace EvalEngine.ClaimPages

open EvalEngine.JsonValues EvalEngine.Exceptions EvalEngine.RunModel EvalEngine.StageTables
open EvalEngine.Noninterference EvalEngine.ReadServices EvalEngine.ResultService EvalEngine.Paging
open EvalEngine.ServiceContracts (scopedRow invalidEncoding)
open EvalEngine.ServiceTables EvalEngine.AuditService
open EvalEngine.PipelineDatabase (State)

variable {ρ κ : Type} [LinearOrder κ] {key : ρ → κ}

/-- The count and the page that a listing selects, in an order that the
database chooses for this query. -/
def fetchPage (arrange : Arrangement key) (matching : State → List ρ) (page pageSize : Int) :
    Query (List ρ × Nat) := do
  let total ← select fun s => (matching s).length
  let rows ← select matching
  let shown ← lift (paginate page pageSize (arrange.order rows))
  return (shown, total)

def getClaimsForRun (arrange : Arrangement (Stamped.createdAt (ρ := Claim))) (runId orgId : UUID)
    (category : Option String) (page pageSize : Int) : Query (List (Stamped Claim) × Nat) := do
  let _ ← verifyRun runId orgId
  let category ← lift (bindCategory category)
  fetchPage arrange (fun s => (claims s).filter (isClaimOf runId orgId category)) page pageSize

/-- A database that sorts is one of those that the query may meet. -/
theorem getClaimsForRun_sorting (runId orgId : UUID) (category : Option String) (page pageSize : Int) :
    getClaimsForRun (sorting Stamped.createdAt) runId orgId category page pageSize =
      ResultService.getClaimsForRun runId orgId category page pageSize := rfl

/-- What `BaseRepository` needs to know of its model. -/
structure Model (ρ : Type) where
  rows : State → List ρ
  organizationId : ρ → UUID
  deletedAt : ρ → Option Time

def listByOrg (model : Model ρ) (arrange : Arrangement key) (orgId : UUID) (page pageSize : Int)
    (includeDeleted : Bool) (extraFilters : List (ρ → Bool)) : Query (List ρ × Nat) :=
  fetchPage arrange (fun s => (model.rows s).filter fun row =>
    decide (model.organizationId row = orgId) && (includeDeleted || (model.deletedAt row).isNone) &&
      extraFilters.all fun p => p row) page pageSize

def claimModel : Model (Stamped Claim) where
  rows := claims
  organizationId claim := claim.row.organizationId
  deletedAt claim := claim.row.deletedAt

/-- `Claim.confidence_score.desc()`. -/
def byConfidence (claim : Stamped Claim) : ℚᵒᵈ := OrderDual.toDual claim.row.confidenceScore

def getByRun (arrange : Arrangement byConfidence) (runId orgId : UUID) (page pageSize : Int)
    (category : Option String) : Query (List (Stamped Claim) × Nat) := do
  let category ← lift (bindCategory category)
  listByOrg claimModel arrange orgId page pageSize false
    ((fun claim => decide (claim.row.evaluationRunId = runId)) ::
      category.toList.map fun text claim => decide (claim.row.category = text))

/-- The claims that both listings select. -/
def matchingClaims (runId orgId : UUID) (category : Option String) (s : State) : List (Stamped Claim) :=
  (claims s).filter (isClaimOf runId orgId (category.filter (· != "")))

/-- Requesting page after page, with nothing written in between and the order of
equal rows chosen afresh by each query, shows every matching row once. -/
def SeesEachOnce (matching : List ρ) (pageSize : ℕ)
    (request : Arrangement key → Int → Except PyException (List ρ × Nat)) : Prop :=
  ∀ arrange : ℕ → Arrangement key, ∃ parts : ℕ → List ρ,
    (∀ i < pageCount pageSize matching.length,
      request (arrange i) (i + 1) = .ok (parts i, matching.length)) ∧
    ((List.range (pageCount pageSize matching.length)).flatMap parts).Perm matching

/-- The offset of the last page and the page size are values that OFFSET and
LIMIT take. -/
def Bounded (pageSize total : ℕ) : Prop :=
  boundary ((pageCount pageSize total - 1 : ℕ) * pageSize) = true ∧ boundary pageSize = true

theorem fetchPage_run (arrange : Arrangement key) (matching : State → List ρ) (page pageSize : Int)
    (s : State) : fetchPage arrange matching page pageSize s =
      (paginate page pageSize (arrange.order (matching s))).map (·, (matching s).length) := by
  simp only [fetchPage, bind_run, select, lift, Except.bind]
  cases paginate page pageSize (arrange.order (matching s)) <;> rfl

theorem boundary_mono {a b : Int} (ha : 0 ≤ a) (hab : a ≤ b) (hb : boundary b = true) :
    boundary a = true := by
  simp only [boundary, int8, Bool.and_eq_true, decide_eq_true_eq] at hb ⊢
  omega

/-- A single page starts at the first row. -/
theorem bounded_of_le {n total : ℕ} (hn : 0 < n) (hle : total ≤ n) (hb : boundary n = true) :
    Bounded n total := by
  have hcount : ¬ 1 < pageCount n total := by
    rw [lt_pageCount hn]
    omega
  have hzero : pageCount n total - 1 = 0 := by omega
  refine ⟨?_, hb⟩
  rw [hzero]
  exact boundary_mono (by simp) (by simp) hb

theorem paginate_eq (n i : ℕ) (rows : List ρ) : paginate (i + 1) n rows =
    if boundary (i * n : ℕ) && boundary n then .ok (page n i rows) else .error invalidPage := by
  have hoffset : ((i + 1 : Int) - 1) * n = (i * n : ℕ) := by push_cast; ring
  rw [paginate, hoffset, Int.toNat_natCast, Int.toNat_natCast, page]

section Sees

variable {matching : List ρ} {n : ℕ} {request : Arrangement key → Int → Except PyException (List ρ × Nat)}

theorem sees_nil (hn : 0 < n) (hnil : matching = []) : SeesEachOnce matching n request := by
  subst hnil
  have hzero : pageCount n ([] : List ρ).length = 0 :=
    Nat.eq_zero_of_not_pos fun hpos => by simpa using (lt_pageCount hn).1 hpos
  intro arrange
  refine ⟨fun _ => [], fun i hi => ?_, by simp⟩
  rw [hzero] at hi
  exact absurd hi (Nat.not_lt_zero i)

theorem bounded_of_sees (hne : matching ≠ []) (hn : 0 < n)
    (hrequest : ∀ arrange page, request arrange page =
      (paginate page n (arrange.order matching)).map (·, matching.length))
    (h : SeesEachOnce matching n request) : Bounded n matching.length := by
  obtain ⟨parts, hparts, -⟩ := h fun _ => sorting key
  have hpos : 0 < pageCount n matching.length :=
    (lt_pageCount hn).2 (by simpa [List.length_pos_iff] using hne)
  have hlast := hparts (pageCount n matching.length - 1) (Nat.sub_lt hpos Nat.one_pos)
  rw [hrequest, paginate_eq] at hlast
  split at hlast
  next hb => exact Bool.and_eq_true_iff.1 hb
  next => cases hlast

theorem request_page (hb : Bounded n matching.length)
    (hrequest : ∀ arrange page, request arrange page =
      (paginate page n (arrange.order matching)).map (·, matching.length))
    (arrange : Arrangement key) {i : ℕ} (hi : i < pageCount n matching.length) :
    request arrange (i + 1) = .ok (page n i (arrange.order matching), matching.length) := by
  have hle : i * n ≤ (pageCount n matching.length - 1) * n := Nat.mul_le_mul_right n (by omega)
  have hoffset := boundary_mono (by positivity) (Int.ofNat_le.2 hle) hb.1
  rw [hrequest, paginate_eq, hoffset, hb.2]
  rfl

theorem seesEachOnce_iff (hn : 0 < n) (hnodup : matching.Nodup)
    (hrequest : ∀ arrange page, request arrange page =
      (paginate page n (arrange.order matching)).map (·, matching.length)) :
    SeesEachOnce matching n request ↔
      matching = [] ∨ Bounded n matching.length ∧ Splits key n matching := by
  constructor
  · intro h
    by_cases hne : matching = []
    · exact .inl hne
    have hb := bounded_of_sees hne hn hrequest h
    refine .inr ⟨hb, (showsAll_iff hn hnodup).1 fun arrange => ?_⟩
    obtain ⟨parts, hparts, hperm⟩ := h arrange
    have hpages : ∀ i ∈ List.range (pageCount n matching.length),
        page n i ((arrange i).order matching) = parts i := by
      intro i hi
      have hpart := hparts i (List.mem_range.1 hi)
      rw [request_page hb hrequest (arrange i) (List.mem_range.1 hi)] at hpart
      injection hpart with hpair
      exact congrArg Prod.fst hpair
    rwa [List.flatMap_congr hpages]
  · rintro (hnil | ⟨hb, hs⟩)
    · exact sees_nil hn hnil
    · intro arrange
      exact ⟨fun i => page n i ((arrange i).order matching),
        fun i hi => request_page hb hrequest (arrange i) hi, (showsAll_iff hn hnodup).2 hs arrange⟩

/-- Where every request fails, there may be nothing to show. -/
theorem sees_iff_of_error (hn : 0 < n) (hrequest : ∀ arrange page, ∃ e, request arrange page = .error e) :
    SeesEachOnce matching n request ↔ matching = [] := by
  refine ⟨fun h => ?_, sees_nil hn⟩
  by_contra hne
  obtain ⟨parts, hparts, -⟩ := h fun _ => sorting key
  have hfirst := hparts 0 ((lt_pageCount hn).2 (by simpa [List.length_pos_iff] using hne))
  obtain ⟨e, he⟩ := hrequest (sorting key) ((0 : ℕ) + 1)
  rw [he] at hfirst
  cases hfirst

end Sees

variable {runId orgId : UUID} {category : Option String} {s : State}

theorem nodup_claims (s : State) : (claims s).Nodup := by
  have hids : ((claims s).map fun claim => claim.row.id).Nodup := by
    simpa [claims, Function.comp_def] using s.store.keys
  exact hids.of_map _

theorem bindCategory_eq (category : Option String) : bindCategory category =
    if (category.filter (· != "")).all textStorable then .ok (category.filter (· != ""))
    else .error invalidEncoding := by
  unfold bindCategory
  cases category.filter (· != "") <;> rfl

theorem getClaimsForRun_run (arrange : Arrangement (Stamped.createdAt (ρ := Claim))) (page pageSize : Int)
    (hrun : (scopedRow EvaluationRun runId orgId s.db.tables).isSome)
    (hcategory : (category.filter (· != "")).all textStorable = true) :
    getClaimsForRun arrange runId orgId category page pageSize s =
      (paginate page pageSize (arrange.order (matchingClaims runId orgId category s))).map
        (·, (matchingClaims runId orgId category s).length) := by
  obtain ⟨run, hrow⟩ := Option.isSome_iff_exists.1 hrun
  simp only [getClaimsForRun, bind_run, verifyRun, answer_getScoped, hrow, bindCategory_eq, hcategory,
    if_true, lift, Except.bind, fetchPage_run]
  rfl

theorem getByRun_run (arrange : Arrangement byConfidence) (page pageSize : Int)
    (hcategory : (category.filter (· != "")).all textStorable = true) :
    getByRun arrange runId orgId page pageSize category s =
      (paginate page pageSize (arrange.order (matchingClaims runId orgId category s))).map
        (·, (matchingClaims runId orgId category s).length) := by
  have hfilter : ∀ claim : Stamped Claim,
      (decide (claimModel.organizationId claim = orgId) && (false || (claimModel.deletedAt claim).isNone) &&
        (((fun claim : Stamped Claim => decide (claim.row.evaluationRunId = runId)) ::
          (category.filter (· != "")).toList.map fun text claim => decide (claim.row.category = text)).all
            fun p => p claim)) = isClaimOf runId orgId (category.filter (· != "")) claim := by
    intro claim
    cases category.filter (· != "") <;> simp [isClaimOf, claimModel] <;> grind
  simp only [getByRun, bind_run, bindCategory_eq, hcategory, if_true, lift, Except.bind, listByOrg,
    fetchPage_run, hfilter]
  rfl

theorem getClaimsForRun_error (arrange : Arrangement (Stamped.createdAt (ρ := Claim)))
    (page pageSize : Int)
    (h : ¬ ((scopedRow EvaluationRun runId orgId s.db.tables).isSome = true ∧
      (category.filter (· != "")).all textStorable = true)) :
    ∃ e, getClaimsForRun arrange runId orgId category page pageSize s = .error e := by
  simp only [getClaimsForRun, bind_run, verifyRun, answer_getScoped, bindCategory_eq, lift]
  cases hrow : scopedRow EvaluationRun runId orgId s.db.tables with
  | none => exact ⟨_, rfl⟩
  | some run =>
    rw [hrow] at h
    rw [if_neg fun hcategory => h ⟨rfl, hcategory⟩]
    exact ⟨_, rfl⟩

theorem getByRun_error (arrange : Arrangement byConfidence) (page pageSize : Int)
    (hcategory : ¬ (category.filter (· != "")).all textStorable = true) :
    ∃ e, getByRun arrange runId orgId page pageSize category s = .error e := by
  simp only [getByRun, bind_run, bindCategory_eq, lift, if_neg hcategory]
  exact ⟨_, rfl⟩

/-- The claims of a run come from one transaction, whose NOW() is a single
time: that order says nothing, so only a single page is safe. The confidence
says something only where it changes at the end of each page. -/
theorem paging_sees_each_once {pageSize : ℕ} (hsize : 1 ≤ pageSize)
    (hone : ∀ a ∈ claims s, ∀ b ∈ claims s, a.row.evaluationRunId = runId →
      b.row.evaluationRunId = runId → a.createdAt = b.createdAt) :
    (SeesEachOnce (matchingClaims runId orgId category s) pageSize
        (fun arrange page => getClaimsForRun arrange runId orgId category page pageSize s) ↔
      matchingClaims runId orgId category s = [] ∨
        (scopedRow EvaluationRun runId orgId s.db.tables).isSome = true ∧
        (category.filter (· != "")).all textStorable = true ∧
        boundary pageSize = true ∧ (matchingClaims runId orgId category s).length ≤ pageSize) ∧
    (SeesEachOnce (matchingClaims runId orgId category s) pageSize
        (fun arrange page => getByRun arrange runId orgId page pageSize category s) ↔
      matchingClaims runId orgId category s = [] ∨
        (category.filter (· != "")).all textStorable = true ∧
        Bounded pageSize (matchingClaims runId orgId category s).length ∧
        Splits byConfidence pageSize (matchingClaims runId orgId category s)) := by
  have hnodup : (matchingClaims runId orgId category s).Nodup := (nodup_claims s).filter _
  constructor
  · by_cases h : (scopedRow EvaluationRun runId orgId s.db.tables).isSome = true ∧
        (category.filter (· != "")).all textStorable = true
    · have hconst : ∀ a ∈ matchingClaims runId orgId category s,
          ∀ b ∈ matchingClaims runId orgId category s, a.createdAt = b.createdAt := by
        intro a ha b hb
        simp only [matchingClaims, List.mem_filter, isClaimOf, Bool.and_eq_true, decide_eq_true_eq] at ha hb
        exact hone a ha.1 b hb.1 ha.2.1.1.1 hb.2.1.1.1
      rw [seesEachOnce_iff hsize hnodup fun arrange page => getClaimsForRun_run arrange page pageSize h.1 h.2,
        splits_iff_of_const hsize hconst]
      constructor
      · rintro (hnil | ⟨hbounded, hle⟩)
        · exact .inl hnil
        · exact .inr ⟨h.1, h.2, hbounded.2, hle⟩
      · rintro (hnil | ⟨-, -, hbound, hle⟩)
        · exact .inl hnil
        · exact .inr ⟨bounded_of_le hsize hle hbound, hle⟩
    · rw [sees_iff_of_error hsize fun arrange page => getClaimsForRun_error arrange page pageSize h]
      constructor
      · exact .inl
      · rintro (hnil | ⟨hrun, hcategory, -⟩)
        · exact hnil
        · exact absurd ⟨hrun, hcategory⟩ h
  · by_cases hcategory : (category.filter (· != "")).all textStorable = true
    · rw [seesEachOnce_iff hsize hnodup fun arrange page => getByRun_run arrange page pageSize hcategory]
      simp only [hcategory, true_and]
    · rw [sees_iff_of_error hsize fun arrange page => getByRun_error arrange page pageSize hcategory]
      simp [hcategory]

section Sample

def sampleRun : EvaluationRun where
  id := 1
  submissionId := 1
  configId := none
  organizationId := 1
  triggeredById := none
  createdAt := 0
  updatedAt := 0

def sampleClaim (id : UUID) : Claim where
  id
  evaluationRunId := 1
  submissionId := 1
  organizationId := 1
  claimText := "Revenue doubled."
  category := "traction"
  sourceReference := none
  confidenceScore := 1

/-- A run with two claims of the same transaction and the same confidence. -/
def twoClaims : State where
  db := { Database.created with
    tables := { Tables.empty with evaluationRuns := ⟨[sampleRun], by decide⟩ } }
  store :=
    { runs := [], claims := [sampleClaim 1, sampleClaim 2], contradictions := [], scores := [], nextId := 3,
      keys := by decide, fresh := by decide }

theorem matchingClaims_twoClaims : matchingClaims 1 1 none twoClaims =
    [⟨sampleClaim 1, 0⟩, ⟨sampleClaim 2, 0⟩] := rfl

theorem paging_sees_each_once_two :
    SeesEachOnce (matchingClaims 1 1 none twoClaims) 2
      (fun arrange page => getClaimsForRun arrange 1 1 none page 2 twoClaims) ∧
    SeesEachOnce (matchingClaims 1 1 none twoClaims) 2
      (fun arrange page => getByRun arrange 1 1 page 2 none twoClaims) := by
  have h := @paging_sees_each_once 1 1 none twoClaims 2 (by decide) (by decide)
  refine ⟨h.1.2 (.inr ⟨rfl, rfl, rfl, by rw [matchingClaims_twoClaims]; decide⟩), h.2.2 (.inr ?_)⟩
  rw [matchingClaims_twoClaims]
  exact ⟨rfl, ⟨rfl, rfl⟩, (splits_iff_of_const (by decide) (by decide)).2 (by decide)⟩

/-- One claim a page: the second request may show the first claim again. -/
theorem paging_repeats :
    ¬ SeesEachOnce (matchingClaims 1 1 none twoClaims) 1
      (fun arrange page => getClaimsForRun arrange 1 1 none page 1 twoClaims) ∧
    ¬ SeesEachOnce (matchingClaims 1 1 none twoClaims) 1
      (fun arrange page => getByRun arrange 1 1 page 1 none twoClaims) := by
  have hnodup : (matchingClaims 1 1 none twoClaims).Nodup := (nodup_claims twoClaims).filter _
  have hmany : ∀ {κ : Type} [LinearOrder κ] (key : Stamped Claim → κ),
      (∀ a ∈ matchingClaims 1 1 none twoClaims, ∀ b ∈ matchingClaims 1 1 none twoClaims, key a = key b) →
      ¬ (matchingClaims 1 1 none twoClaims = [] ∨
        Bounded 1 (matchingClaims 1 1 none twoClaims).length ∧
        Splits key 1 (matchingClaims 1 1 none twoClaims)) := by
    intro κ _ key hconst
    rw [splits_iff_of_const Nat.one_pos hconst, matchingClaims_twoClaims]
    simp
  constructor
  · intro h
    exact hmany _ (by rw [matchingClaims_twoClaims]; decide) ((seesEachOnce_iff Nat.one_pos hnodup
      fun arrange page => getClaimsForRun_run arrange page _ rfl rfl).1 h)
  · intro h
    exact hmany _ (by rw [matchingClaims_twoClaims]; decide) ((seesEachOnce_iff Nat.one_pos hnodup
      fun arrange page => getByRun_run arrange page _ rfl).1 h)

end Sample

end EvalEngine.ClaimPages
