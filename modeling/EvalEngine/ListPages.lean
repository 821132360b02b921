import EvalEngine.ClaimPages
import EvalEngine.Doubles
import EvalEngine.ReadServices

namespace EvalEngine.ListPages

open EvalEngine.Exceptions EvalEngine.RunModel EvalEngine.Noninterference EvalEngine.ReadServices
open EvalEngine.Doubles EvalEngine.ServiceTables EvalEngine.SubmissionModel
open EvalEngine.Paging (page pageCount)
open EvalEngine.PipelineDatabase (State start)
open EvalEngine.AuditService (Database)

variable {α ρ : Type}

/-- `PaginationParams`, which checks its bounds. -/
structure PaginationParams where
  page : ℤ
  pageSize : ℤ
  page_ge : 1 ≤ page
  pageSize_ge : 1 ≤ pageSize
  pageSize_le : pageSize ≤ 100

def getPagination (page pageSize : ℤ) : PaginationParams where
  page := max 1 page
  pageSize := min 100 (max 1 pageSize)
  page_ge := le_max_left _ _
  pageSize_ge := le_min (by decide) (le_max_left _ _)
  pageSize_le := min_le_left _ _

structure PaginatedResponse (α : Type) where
  items : List α
  total : ℕ
  page : ℤ
  pageSize : ℤ
  totalPages : ℤ
  hasNext : Bool
  hasPrev : Bool

def divisionByZero : PyException := .failure "division by zero"

/-- `math.ceil(total / page_size) if total > 0 else 0`: the quotient is a float. -/
def totalPages (total : ℕ) (pageSize : ℤ) : Except PyException ℤ :=
  if 0 < total then
    if pageSize = 0 then .error divisionByZero else .ok ⌈nearestDouble (total / pageSize)⌉
  else .ok 0

def buildPaginatedResponse (items : List α) (total : ℕ) (params : PaginationParams) :
    Except PyException (PaginatedResponse α) := do
  let totalPages ← totalPages total params.pageSize
  return {
    items
    total
    page := params.page
    pageSize := params.pageSize
    totalPages
    hasNext := decide (params.page < totalPages)
    hasPrev := decide (1 < params.page) }

/-- Where a slice of a list of length `n` begins or ends: a negative index
counts from the end, and none lies outside the list. -/
def sliceIndex (n : ℕ) (i : ℤ) : ℕ := (if i < 0 then max (n + i) 0 else min i n).toNat

/-- `xs[start:stop]` -/
def slice (xs : List α) (start stop : ℤ) : List α :=
  (xs.drop (sliceIndex xs.length start)).take (sliceIndex xs.length stop - sliceIndex xs.length start)

def paginateList (items : List α) (page pageSize : ℤ) : Except PyException (PaginatedResponse α) := do
  let totalPages ← totalPages items.length pageSize
  let start := (page - 1) * pageSize
  return {
    items := slice items start (start + pageSize)
    total := items.length
    page
    pageSize
    totalPages
    hasNext := decide (page < totalPages)
    hasPrev := decide (1 < page) }

/-- The pages of a list: `pages p` is what is shown as page `p`. -/
structure Partitions (xs : List α) (count : ℤ) (pages : ℤ → PaginatedResponse α) : Prop where
  totalPages : ∀ p, 1 ≤ p → (pages p).totalPages = count
  nonempty : ∀ p, 1 ≤ p → p ≤ count → (pages p).items ≠ []
  concat : (List.range count.toNat).flatMap (fun i : ℕ => (pages (i + 1)).items) = xs
  later : ∀ p, 1 ≤ p → count < p → (pages p).items = []
  hasNext : ∀ p, 1 ≤ p → ((pages p).hasNext = true ↔ (pages (p + 1)).items ≠ [])
  hasPrev : ∀ p, 1 ≤ p → ((pages p).hasPrev = true ↔ 1 < p)

theorem sliceIndex_natCast (n i : ℕ) : sliceIndex n i = min i n := by
  have hnot : ¬ (i : ℤ) < 0 := by omega
  rw [sliceIndex, if_neg hnot]
  omega

theorem slice_page (xs : List α) (i n : ℕ) :
    slice xs (((i : ℤ) + 1 - 1) * n) (((i : ℤ) + 1 - 1) * n + n) = page n i xs := by
  have hstart : ((i : ℤ) + 1 - 1) * n = (i * n : ℕ) := by
    push_cast
    ring
  have hstop : ((i * n : ℕ) : ℤ) + n = (i * n + n : ℕ) := by push_cast; rfl
  rw [hstart, hstop, slice, sliceIndex_natCast, sliceIndex_natCast, page]
  obtain hle | hlt := Nat.le_total xs.length (i * n)
  · rw [min_eq_right hle, List.drop_of_length_le le_rfl, List.drop_of_length_le hle, List.take_nil,
      List.take_nil]
  · rw [min_eq_left hlt, List.take_eq_take_iff, List.length_drop]
    omega

theorem page_eq_nil_iff {xs : List α} {i n : ℕ} (hn : 0 < n) : page n i xs = [] ↔ ¬ i * n < xs.length := by
  rw [page, List.take_eq_nil_iff, List.drop_eq_nil_iff]
  omega

theorem pages_concat (xs : List α) (n k : ℕ) :
    (List.range k).flatMap (fun i => page n i xs) = xs.take (k * n) := by
  induction k with
  | zero => simp
  | succ k ih =>
    rw [List.range_succ, List.flatMap_append, List.flatMap_singleton, ih, Paging.take_append_page]

/-- The number of pages in a response, as a number that pages are compared with. -/
theorem totalPages_eq (total : ℕ) {pageSize : ℕ} (h : 0 < pageSize) : ∃ count : ℤ,
    totalPages total pageSize = .ok count ∧
      ∀ k : ℕ, (k : ℤ) < count ↔ (k : ℚ) < nearestDouble (total / pageSize) := by
  have hsize : ¬ (pageSize : ℤ) = 0 := by omega
  obtain rfl | htotal := Nat.eq_zero_or_pos total
  · refine ⟨0, rfl, ?_⟩
    intro k
    rw [Nat.cast_zero, zero_div, nearestDouble_zero]
    exact iff_of_false (not_lt.2 (Int.natCast_nonneg k)) (not_lt.2 (Nat.cast_nonneg k))
  · refine ⟨⌈nearestDouble (total / pageSize)⌉, ?_, ?_⟩
    · rw [totalPages, if_pos htotal, if_neg hsize]
      rfl
    · intro k
      rw [Int.lt_ceil]
      rfl

/-- Page `i + 1` of a list, as a response shows it. -/
def shownPage (xs : List α) (pageSize : ℕ) (count : ℤ) (i : ℕ) : PaginatedResponse α where
  items := page pageSize i xs
  total := xs.length
  page := i + 1
  pageSize
  totalPages := count
  hasNext := decide ((i : ℤ) + 1 < count)
  hasPrev := decide (1 < (i : ℤ) + 1)

theorem paginateList_eq (xs : List α) {pageSize : ℕ} {count : ℤ} (i : ℕ)
    (h : totalPages xs.length pageSize = .ok count) :
    paginateList xs (i + 1) pageSize = .ok (shownPage xs pageSize count i) := by
  rw [paginateList, h, shownPage, ← slice_page]
  rfl

/-- The list is paginated as it should be. -/
def Paginates (xs : List α) (pageSize : ℤ) : Prop :=
  ∃ (count : ℤ) (pages : ℤ → PaginatedResponse α),
    (∀ p, 1 ≤ p → paginateList xs p pageSize = .ok (pages p)) ∧ Partitions xs count pages

section Partition

variable {xs : List α} {pageSize : ℕ} {count : ℤ} {pages : ℤ → PaginatedResponse α}

theorem exists_page {p : ℤ} (h : 1 ≤ p) : ∃ i : ℕ, p = i + 1 :=
  ⟨(p - 1).toNat, by omega⟩

theorem partitions_of_count (hsize : 0 < pageSize)
    (hcount : ∀ k : ℕ, (k : ℤ) < count ↔ k * pageSize < xs.length)
    (hpages : ∀ i : ℕ, pages (i + 1) = shownPage xs pageSize count i) : Partitions xs count pages := by
  constructor
  · intro p hp
    obtain ⟨i, rfl⟩ := exists_page hp
    rw [hpages, shownPage]
  · intro p hp hle
    obtain ⟨i, rfl⟩ := exists_page hp
    rw [hpages, shownPage, Ne, page_eq_nil_iff hsize, not_not, ← hcount]
    omega
  · have hall : xs.length ≤ count.toNat * pageSize := by
      by_contra hlt
      have hbelow := (hcount count.toNat).2 (Nat.lt_of_not_le hlt)
      omega
    simp only [hpages, shownPage, pages_concat]
    exact List.take_of_length_le hall
  · intro p hp hlt
    obtain ⟨i, rfl⟩ := exists_page hp
    rw [hpages, shownPage, page_eq_nil_iff hsize, ← hcount]
    omega
  · intro p hp
    obtain ⟨i, rfl⟩ := exists_page hp
    have hnext : pages ((i : ℤ) + 1 + 1) = shownPage xs pageSize count (i + 1) := hpages (i + 1)
    rw [hnext, hpages, shownPage, shownPage, Ne, page_eq_nil_iff hsize, not_not, ← hcount,
      decide_eq_true_eq, Nat.cast_succ]
  · intro p hp
    obtain ⟨i, rfl⟩ := exists_page hp
    rw [hpages, shownPage, decide_eq_true_eq]

theorem count_of_partitions (hsize : 0 < pageSize)
    (hpages : ∀ i : ℕ, pages (i + 1) = shownPage xs pageSize count i) (h : Partitions xs count pages)
    (k : ℕ) : (k : ℤ) < count ↔ k * pageSize < xs.length := by
  have hitems : (pages (k + 1)).items = page pageSize k xs := by rw [hpages, shownPage]
  constructor
  · intro hlt
    have hnonempty := h.nonempty (k + 1) (by omega) (by omega)
    rw [hitems, Ne, page_eq_nil_iff hsize, not_not] at hnonempty
    exact hnonempty
  · intro hlt
    by_contra hge
    have hempty := h.later (k + 1) (by omega) (by omega)
    rw [hitems, page_eq_nil_iff hsize] at hempty
    exact hempty hlt

/-- The pages make up the list if and only if the division of its length keeps the ceiling. -/
theorem paginates_iff (xs : List α) (hsize : 0 < pageSize) :
    Paginates xs pageSize ↔ KeepsCeiling xs.length pageSize := by
  obtain ⟨count, hok, hcount⟩ := totalPages_eq xs.length hsize
  constructor
  · rintro ⟨count', pages, hpages, hpartitions⟩
    have hshown : ∀ i : ℕ, pages (i + 1) = shownPage xs pageSize count i := by
      intro i
      have hpage := hpages (i + 1) (by omega)
      rw [paginateList_eq xs i hok] at hpage
      exact (Except.ok.inj hpage).symm
    have hsame : count' = count := by
      have htotal := hpartitions.totalPages ((0 : ℕ) + 1) (by omega)
      rw [hshown 0, shownPage] at htotal
      exact htotal.symm
    subst hsame
    intro k
    rw [← hcount, count_of_partitions hsize hshown hpartitions]
  · intro hkeeps
    refine ⟨count, fun p => shownPage xs pageSize count (p - 1).toNat, ?_, ?_⟩
    · intro p hp
      obtain ⟨i, rfl⟩ := exists_page hp
      rw [paginateList_eq xs i hok]
      congr 2
      omega
    · apply partitions_of_count hsize
      · intro k
        rw [hcount, hkeeps]
      · intro i
        congr 1
        omega

end Partition

/-- The page that a listing selects, in the envelope of its endpoint. -/
def listResponse (matching : State → List ρ) (before : ρ → ρ → Bool) (params : PaginationParams) :
    Query (PaginatedResponse ρ) := do
  let (items, total) ← listPage matching before params.page params.pageSize
  lift (buildPaginatedResponse items total params)

theorem length_orderBy (before : ρ → ρ → Bool) (rows : List ρ) :
    (orderBy before rows).length = rows.length :=
  List.length_mergeSort rows

theorem boundary_pageSize (params : PaginationParams) : boundary params.pageSize = true := by
  have hge := params.pageSize_ge
  have hle := params.pageSize_le
  simp only [boundary, int8, Bool.and_eq_true, decide_eq_true_eq]
  omega

theorem listPage_run (matching : State → List ρ) (before : ρ → ρ → Bool) (page pageSize : ℤ)
    (s : State) : listPage matching before page pageSize s =
      (paginate page pageSize (orderBy before (matching s))).map (·, (matching s).length) := by
  simp only [listPage, bind_run, select, lift, Except.bind]
  cases paginate page pageSize (orderBy before (matching s)) <;> rfl

theorem buildPaginatedResponse_eq (items : List α) {total : ℕ} {params : PaginationParams} {count : ℤ}
    (h : totalPages total params.pageSize = .ok count) :
    buildPaginatedResponse items total params = .ok {
      items
      total
      page := params.page
      pageSize := params.pageSize
      totalPages := count
      hasNext := decide (params.page < count)
      hasPrev := decide (1 < params.page) } := by
  rw [buildPaginatedResponse, h]
  rfl

/-- The parameters as natural numbers. -/
theorem PaginationParams.cast (params : PaginationParams) :
    ∃ i n : ℕ, params.page = i + 1 ∧ params.pageSize = n ∧ 0 < n := by
  have hpage := params.page_ge
  have hsize := params.pageSize_ge
  exact ⟨(params.page - 1).toNat, params.pageSize.toNat, by omega, by omega, by omega⟩

theorem listResponse_eq (matching : State → List ρ) (before : ρ → ρ → Bool) (params : PaginationParams)
    (s : State) : listResponse matching before params s =
      if boundary ((params.page - 1) * params.pageSize) then
        paginateList (orderBy before (matching s)) params.page params.pageSize
      else .error invalidPage := by
  obtain ⟨i, n, hi, hn, hsize⟩ := params.cast
  obtain ⟨count, hcount, _⟩ := totalPages_eq (matching s).length hsize
  have hoffset : ((i : ℤ) + 1 - 1) * n = (i * n : ℕ) := by push_cast; ring
  have hlimit := boundary_pageSize params
  rw [hn] at hlimit
  rw [listResponse, bind_run, listPage_run, hi, hn, ClaimPages.paginate_eq, hoffset, hlimit,
    Bool.and_true]
  cases hb : boundary (i * n : ℕ) with
  | false => rfl
  | true =>
    have hordered : totalPages (orderBy before (matching s)).length n = .ok count := by
      rw [length_orderBy]
      exact hcount
    rw [if_pos rfl, if_pos rfl, paginateList_eq _ i hordered, shownPage, length_orderBy]
    have hcount' : totalPages (matching s).length params.pageSize = .ok count := hn ▸ hcount
    have hbuild := buildPaginatedResponse_eq (page n i (orderBy before (matching s))) hcount'
    rw [hi, hn] at hbuild
    exact hbuild

/-- A listing answers as the pagination of the ordered list does if and only if
the offset of the page is one that OFFSET takes. -/
theorem listResponse_iff (matching : State → List ρ) (before : ρ → ρ → Bool)
    (params : PaginationParams) (s : State) :
    listResponse matching before params s =
        paginateList (orderBy before (matching s)) params.page params.pageSize ↔
      boundary ((params.page - 1) * params.pageSize) = true := by
  rw [listResponse_eq]
  cases hb : boundary ((params.page - 1) * params.pageSize) with
  | true => simp
  | false =>
    obtain ⟨i, n, hi, hn, hsize⟩ := params.cast
    obtain ⟨count, hcount, _⟩ := totalPages_eq (orderBy before (matching s)).length hsize
    rw [hi, hn, paginateList_eq _ i hcount]
    simp

/-- The pages of a list partition it as long as the division of its length keeps
the ceiling, and a listing agrees with them as long as OFFSET takes its offset. -/
theorem pages_iff (xs : List α) (n : ℕ) (hn : 0 < n) (matching : State → List ρ)
    (before : ρ → ρ → Bool) (page pageSize : ℤ) (s : State) :
    (Paginates xs n ↔ KeepsCeiling xs.length n) ∧
    (listResponse matching before (getPagination page pageSize) s =
        paginateList (orderBy before (matching s)) (getPagination page pageSize).page
          (getPagination page pageSize).pageSize ↔
      boundary (((getPagination page pageSize).page - 1) * (getPagination page pageSize).pageSize) =
        true) :=
  ⟨paginates_iff xs hn, listResponse_iff matching before (getPagination page pageSize) s⟩

/-- `GET /submissions`. -/
def getSubmissions (orgId : UUID) (statusFilter : Option SubmissionStatus) (page pageSize : ℤ) :
    Query (PaginatedResponse Submission) :=
  listResponse (fun s => s.db.tables.submissions.rows.filter (isListedSubmission orgId statusFilter))
    (newest Submission.createdAt) (getPagination page pageSize)

section Sample

/-- A page whose offset is no bigint: an empty page of the list, and an error of the database. -/
theorem getSubmissions_beyond :
    ¬ getSubmissions 1 none 9223372036854775809 1 (start .created) =
      paginateList (orderBy (newest Submission.createdAt)
          ((start .created).db.tables.submissions.rows.filter (isListedSubmission 1 none)))
        (getPagination 9223372036854775809 1).page (getPagination 9223372036854775809 1).pageSize := by
  rw [getSubmissions, listResponse_iff]
  decide

/-- A single element on pages so large that the quotient is rounded to 0. -/
theorem not_paginates_huge : ¬ Paginates [()] ((2 ^ 1075 : ℕ) : ℤ) := by
  have hzero : nearestDouble (([()].length : ℕ) / ((2 ^ 1075 : ℕ) : ℚ)) = 0 := by decide +kernel
  rw [paginates_iff [()] (by positivity)]
  intro hkeeps
  have hfirst := (hkeeps 0).2 (by rw [Nat.zero_mul]; exact Nat.one_pos)
  rw [hzero, Nat.cast_zero] at hfirst
  exact lt_irrefl _ hfirst

theorem pages_three : Paginates [1, 2, 3] 2 ∧
    getSubmissions 1 none 0 500 (start .created) =
      paginateList (orderBy (newest Submission.createdAt)
          ((start .created).db.tables.submissions.rows.filter (isListedSubmission 1 none))) 1 100 := by
  have h := pages_iff [1, 2, 3] 2 Nat.two_pos
    (fun s => s.db.tables.submissions.rows.filter (isListedSubmission 1 none))
    (newest Submission.createdAt) 0 500 (start .created)
  exact ⟨h.1.2 (keepsCeiling_of_lt (by decide) Nat.two_pos (by decide)), h.2.2 (by decide)⟩

end Sample

end EvalEngine.ListPages
