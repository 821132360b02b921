import EvalEngine.ModuleImports
import EvalEngine.SubmissionCache

namespace EvalEngine.SubmissionModules

open EvalEngine.JsonValues EvalEngine.Exceptions EvalEngine.Transitions EvalEngine.ModuleImports
open EvalEngine.SubmissionCache
open EvalEngine.CacheAside hiding State start step

inductive Module
  | submissionCache
  | submissionRepository
  | other (name : String)
  deriving DecidableEq

def beforeRepository : List (Statement Module String) :=
  [.fromImport (.other "__future__") "annotations",
    .importModule (.other "hashlib") "hashlib",
    .importModule (.other "json") "json",
    .fromImport (.other "typing") "Any",
    .fromImport (.other "uuid") "UUID",
    .fromImport (.other "src.cache") "cache_manager"]

def submissionCache : List (Statement Module String) :=
  beforeRepository ++ .fromImport .submissionRepository "submission_repo" ::
    [.fromImport (.other "sqlalchemy.ext.asyncio") "AsyncSession",
      .define "get_cached_submissions",
      .define "invalidate_org_submissions"]

def beforeCache : List (Statement Module String) :=
  [.fromImport (.other "__future__") "annotations",
    .fromImport (.other "uuid") "UUID",
    .fromImport (.other "sqlalchemy") "func",
    .fromImport (.other "sqlalchemy") "select",
    .fromImport (.other "sqlalchemy.ext.asyncio") "AsyncSession",
    .fromImport (.other "sqlalchemy.orm") "selectinload",
    .fromImport (.other "src.models.submission") "Submission",
    .fromImport (.other "src.models.submission") "SubmissionStatus",
    .fromImport (.other "src.repositories.base_repository") "BaseRepository"]

def submissionRepository : List (Statement Module String) :=
  beforeCache ++ .fromImport .submissionCache "invalidate_org_submissions" ::
    [.define "SubmissionRepository",
      .define "submission_repo"]

def body (others : String → List (Statement Module String)) : Module → List (Statement Module String)
  | .submissionCache => submissionCache
  | .submissionRepository => submissionRepository
  | .other name => others name

/-- Of all modules only these two import each other. -/
def NoOtherImporter (others : String → List (Statement Module String)) : Prop :=
  ∀ name, Apart .submissionCache .submissionRepository (others name)

variable {δ π : Type}

/-- A process with its modules, and the cache that it shares with the others. -/
structure Process (δ π : Type) where
  modules : Loaded Module String := fun _ => none
  cache : CacheAside.State Call String UUID δ π

def start (rows : δ) : Process δ π := { cache := CacheAside.start rows }

inductive Action (δ : Type)
  | load (m : Module) (fuel : Nat)
  | act (a : CacheAside.Action Call String δ Mutation)

/-- The module of the function that a step calls: `get_cached_submissions`, or a
mutation of `submission_repo`. The other steps are inside such a call. -/
def calls : CacheAside.Action Call String δ Mutation → Option Module
  | .ask _ _ => some .submissionCache
  | .write _ _ => some .submissionRepository
  | _ => none

def step (others : String → List (Statement Module String))
    (P : Protocol Call String UUID δ π Mutation) (s : Process δ π) : Action δ → Option (Process δ π)
  | .load m fuel => (loadModule (body others) fuel s.modules m).map fun r => { s with modules := r.1 }
  | .act a =>
    if (calls a).all (fun m => (s.modules m).isSome) then
      (CacheAside.step P s.cache a).map fun cache => { s with cache }
    else none

variable {others : String → List (Statement Module String)}

/-- Each of the two asks for a name that the other one binds after its own import. -/
theorem circularImport (h : NoOtherImporter others) :
    Cycle (body others) .submissionCache .submissionRepository beforeRepository beforeCache
      "invalidate_org_submissions" "submission_repo" where
  ne := by simp
  elsewhere := by
    intro m ha hb
    cases m with
    | submissionCache => exact absurd rfl ha
    | submissionRepository => exact absurd rfl hb
    | other name => exact h name
  left := ⟨⟨_, rfl⟩, by simp [Apart, beforeRepository, Statement.target]⟩
  right := ⟨⟨_, rfl⟩, by simp [Apart, beforeCache, Statement.target]⟩
  unboundA := by simp [beforeRepository, Statement.name]
  unboundB := by simp [beforeCache, Statement.name]

/-- No call has begun, and none can. -/
structure Idle (s : Process δ π) : Prop where
  cache : s.modules .submissionCache = none
  repository : s.modules .submissionRepository = none
  readers : ∀ i, s.cache.readers i = none
  answers : s.cache.answers = []

theorem idle_start (rows : δ) : Idle (start rows : Process δ π) :=
  ⟨rfl, rfl, fun _ => rfl, rfl⟩

/-- Without a reader a step of the cache neither starts nor answers a call. -/
theorem cache_step {P : Protocol Call String UUID δ π Mutation}
    {s t : CacheAside.State Call String UUID δ π} {a : CacheAside.Action Call String δ Mutation}
    (hreaders : ∀ i, s.readers i = none) (hask : ∀ i call, a ≠ .ask i call)
    (h : CacheAside.step P s a = some t) : (∀ i, t.readers i = none) ∧ t.answers = s.answers := by
  cases a with
  | ask i call => exact absurd rfl (hask i call)
  | hit i | miss i | load i | store i | skip i => simp [CacheAside.step, hreaders] at h
  | expire key =>
    cases h
    exact ⟨hreaders, rfl⟩
  | write i _ | scan i | remove i _ | finish i | abandon i | commit i _ | rollback i =>
    simp only [CacheAside.step] at h
    split at h <;> cases h
    exact ⟨hreaders, rfl⟩

theorem idle_step (hothers : NoOtherImporter others) {P : Protocol Call String UUID δ π Mutation}
    {s t : Process δ π} {a : Action δ} (hs : Idle s) (h : step others P s a = some t) : Idle t := by
  cases a with
  | load m fuel =>
    simp only [step, Option.map_eq_some_iff] at h
    obtain ⟨r, hr, rfl⟩ := h
    obtain ⟨hcache, hrepository⟩ := cycle_never_loaded (circularImport hothers) hs.cache hs.repository hr
    exact ⟨hcache, hrepository, hs.readers, hs.answers⟩
  | act a =>
    simp only [step] at h
    split at h
    · rename_i hcalled
      obtain ⟨cache, hcache, rfl⟩ := Option.map_eq_some_iff.1 h
      have hask : ∀ i call, a ≠ .ask i call := by
        rintro i call rfl
        simp [calls, hs.cache] at hcalled
      obtain ⟨hreaders, hanswers⟩ := cache_step hs.readers hask hcache
      exact ⟨hs.cache, hs.repository, hreaders, hanswers.trans hs.answers⟩
    · cases h

/-- In no process can the two modules be imported, so the cache answers no call
at all. The second part is about the functions behind the imports: their cache
is transparent in every timely run. -/
theorem cache_transparent (others : String → List (Statement Module String))
    (hothers : NoOtherImporter others) (listPaginated : δ → UUID → Option String → Int → π)
    (filtersHash : Dict → String) :
    (∀ rows s, Exec (step others (protocol listPaginated filtersHash)) free (start rows) s →
      ∀ a ∈ s.cache.answers, a.entry.args = a.args ∧ a.since ≤ a.entry.epoch) ∧
    Transparent listPaginated filtersHash (Timely (protocol listPaginated filtersHash)) := by
  refine ⟨fun rows s h a ha => ?_, transparent_of_timely listPaginated filtersHash⟩
  have hidle := h.invariant (idle_start rows) fun _ _ _ hs _ hst => idle_step hothers hs hst
  rw [hidle.answers] at ha
  cases ha

/-- The modules that the two import, with the names that are asked of them. -/
def imported : String → List (Statement Module String)
  | "__future__" => [.define "annotations"]
  | "typing" => [.define "Any"]
  | "uuid" => [.define "UUID"]
  | "src.cache" => [.importModule (.other "json") "json", .define "cache_manager"]
  | "sqlalchemy" => [.define "func", .define "select"]
  | "sqlalchemy.ext.asyncio" => [.define "AsyncSession"]
  | "sqlalchemy.orm" => [.define "selectinload"]
  | "src.models.submission" => [.define "Submission", .define "SubmissionStatus"]
  | "src.repositories.base_repository" => [.define "BaseRepository"]
  | _ => []

theorem imported_noOtherImporter : NoOtherImporter imported := by
  intro name
  unfold imported
  split <;> simp [Apart, Statement.target]

/-- The two modules are imported, first the one and then the other. Both imports
fail, and leave the modules behind that they reached before. -/
def bothOrders : List (Action Nat) := [.load .submissionCache 3, .load .submissionRepository 3]

theorem step_hit {P : Protocol Call String UUID δ π Mutation}
    {s : CacheAside.State Call String UUID δ π} {i : Nat} {call : Call} {since : Nat}
    {e : Entry Call π} (hi : s.readers i = some (.asking call since))
    (hfind : s.find (P.key call) = some e) : CacheAside.step P s (.hit i) =
      some { s.read i none with answers := ⟨call, since, e⟩ :: s.answers } := by
  simp [CacheAside.step, hi, hfind]

theorem find_cons {s : CacheAside.State Call String UUID δ π} (k : String) (e : Entry Call π)
    (slots : List (String × Entry Call π)) (h : s.cache = (k, e) :: slots) : s.find k = some e := by
  simp [CacheAside.State.find, h]

/-- A page is cached and serves a call; then a submission is created, the page
is removed, and the transaction commits. -/
theorem exec_timely_sample : ∃ s : CacheAside.State Call String UUID Nat Int,
    Exec (CacheAside.step (protocol countListed emptyHash)) (Timely (protocol countListed emptyHash))
      (CacheAside.start 0) s ∧ s.answers.length = 1 ∧ s.rows = 1 ∧ s.cache = [] := by
  have hstored := ((((@Exec.refl _ _ (CacheAside.step (protocol countListed emptyHash))
    (Timely (protocol countListed emptyHash)) (CacheAside.start 0)).tail
    (a := CacheAside.Action.ask 0 { orgId := 1 }) (by rintro a ⟨⟩) rfl).tail
    (a := CacheAside.Action.miss 0) trivial rfl).tail (a := CacheAside.Action.load 0) trivial rfl).tail
    (a := CacheAside.Action.store 0) (by rintro e ⟨⟩; exact ⟨rfl, by rintro j w ⟨⟩⟩) rfl
  have hasked := hstored.tail (a := CacheAside.Action.ask 1 { orgId := 1 })
    (by intro a ha _; exact List.mem_singleton.1 ha) rfl
  have hanswered := hasked.tail (a := CacheAside.Action.hit 1) trivial
    (step_hit rfl (find_cons _ _ _ rfl))
  have hscanned := (hanswered.tail (a := CacheAside.Action.write 0 (.create 1))
    (List.Subset.refl _) rfl).tail (a := CacheAside.Action.scan 0) trivial rfl
  have hcommitted := ((hscanned.tail
    (a := CacheAside.Action.remove 0 [cacheKey emptyHash { orgId := 1 }]) trivial rfl).tail
    (a := CacheAside.Action.finish 0) trivial rfl).tail (a := CacheAside.Action.commit 0 1) trivial rfl
  exact ⟨_, hcommitted, rfl, rfl, rfl⟩

theorem bothOrders_runs :
    (runList (step imported (protocol countListed emptyHash)) (start 0) bothOrders).map
      (fun s => (s.modules (.other "sqlalchemy.orm"), s.modules .submissionCache)) =
      some (some ["selectinload"], none) := by
  decide +kernel

theorem cache_transparent_sample :
    (∃ s, runList (step imported (protocol countListed emptyHash)) (start 0) bothOrders = some s ∧
      s.modules .submissionCache = none ∧ ∀ a ∈ s.cache.answers, a.since ≤ a.entry.epoch) ∧
    ∃ s : CacheAside.State Call String UUID Nat Int, s.answers.length = 1 ∧ s.rows = 1 ∧
      ∀ a ∈ s.answers, a.entry.args = a.args ∧ a.since ≤ a.entry.epoch := by
  obtain ⟨s, hs, hmodules⟩ := Option.map_eq_some_iff.1 bothOrders_runs
  simp only [Prod.mk.injEq] at hmodules
  obtain ⟨t, ht, hanswers, hrows, -⟩ := exec_timely_sample
  refine ⟨⟨s, hs, hmodules.2, fun a ha => ?_⟩, t, hanswers, hrows, ?_⟩
  · exact ((cache_transparent imported imported_noOtherImporter countListed emptyHash).1 0 s
      (exec_of_runList hs) a ha).2
  · exact (cache_transparent imported imported_noOtherImporter countListed emptyHash).2 0 t ht

end EvalEngine.SubmissionModules
