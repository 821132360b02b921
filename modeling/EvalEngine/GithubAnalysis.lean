import EvalEngine.AnalysisClaims
import EvalEngine.Transitions

namespace EvalEngine.GithubAnalysis

open EvalEngine.JsonValues EvalEngine.RunModel EvalEngine.Rounding EvalEngine.Transitions
open EvalEngine.TaskReports EvalEngine.AnalysisClaims

/-- What GitHub answers to one execution. What the cache answers is in the state. -/
structure Replies extends GithubPages where
  commits : List (Option String) := []
  described : Bool := false
  licensed : Bool := false
  daysSincePush : Option ℤ := none

/-- The last two parts of the address. -/
def fullName (r : Replies) : String :=
  match (parts r.githubUrl).reverse with
  | repo :: owner :: _ => String.ofList owner ++ "/" ++ String.ofList repo
  | _ => ""

def latestSha (r : Replies) : String :=
  match r.commits with
  | [] => "UNKNOWN"
  | sha :: _ => sha.getD "HEAD"

def repoUrl (r : Replies) : String := "https://github.com/" ++ fullName r

def cacheKey (sha256 : String → String) (r : Replies) : String :=
  "github:" ++ sha256 (repoUrl r) ++ ":" ++ latestSha r

def ended (status reason : String) : Dict := [("status", .str status), ("reason", .str reason)]

/-- The returns in front of the cache. -/
def earlyReturn (r : Replies) : Option Dict :=
  if r.githubUrl = "" then some (ended "skipped" "No GitHub URL provided" ++ [("scores", .obj [])])
  else if (parts r.githubUrl).length < 2 then some (ended "error" "Invalid GitHub URL")
  else if r.rateLimited then
    some (ended "rate_limited" ("GitHub rate limit. Resets in " ++ toString r.waitSecs ++ "s"))
  else none

/-- The returns behind it. -/
def failure (r : Replies) : Option Dict :=
  if r.repoStatus = 404 then some (ended "error" "Repository not found")
  else if r.repoStatus ≠ 200 then some (ended "error" ("GitHub API error: " ++ toString r.repoStatus))
  else none

def stars (r : Replies) : ℤ := r.repo.stargazersCount.getD 0

def scores (r : Replies) : List (String × ℚ) :=
  [("activity_recency", max 0 (min 1 (1 - r.daysSincePush.getD 999 / 365))),
    ("commit_frequency", min 1 (r.commits.length / 50)),
    ("contributor_diversity", min 1 (r.repo.contributors / 5)),
    ("community_traction", min 1 (stars r / 100)),
    ("documentation_quality", if r.described then 1 else 3 / 10),
    ("license_compliance", if r.licensed then 1 else 0)]

def analysis (r : Replies) : Dict :=
  [("status", .str "completed"), ("repo", .str (fullName r)),
    ("scores", .obj ((scores r).map (fun kv => (kv.1, .num (roundTo 4 kv.2))))),
    ("claims", .arr ((githubClaims r.repo).map (fun c => .obj c.dict)))]

structure Computed where
  replies : Replies
  time : Time

structure Stored where
  source : Computed
  time : Time

/-- What an execution is to return, and when it has got it. -/
structure Outcome where
  replies : Replies
  result : Dict
  obtained : Time

structure Returned extends Outcome where
  time : Time

/-- How far an execution has come: the cache had nothing for it, or it has computed its result and
not cached it yet, or it has a result to return. -/
inductive Phase
  | missed (r : Replies)
  | computed (c : Computed)
  | obtained (o : Outcome)

/-- The cached results with the ends of their hours, the executions under way, and what has been
computed, cached and returned so far. -/
structure State where
  now : Time := 0
  cache : String → Option (Dict × Time) := fun _ => none
  running : ℕ → Option Phase := fun _ => none
  computed : List Computed := []
  stored : List Stored := []
  returned : List Returned := []

inductive Action
  | read (i : ℕ) (r : Replies) (available : Bool)
  | compute (i : ℕ)
  | set (i : ℕ) (available : Bool)
  | answer (i : ℕ)
  | crash (i : ℕ)
  | evict (key : String)
  | tick (seconds : ℕ)

def State.run (s : State) (i : ℕ) (p : Option Phase) : State :=
  { s with running := Function.update s.running i p }

/-- The execution has only to return. -/
def State.obtain (s : State) (i : ℕ) (r : Replies) (result : Dict) : State :=
  s.run i (some (.obtained ⟨r, result, s.now⟩))

/-- `cache_manager.get`, which finds nothing where Redis fails. -/
def State.hit (s : State) (key : String) (available : Bool) : Option Dict :=
  if available then ((s.cache key).filter (fun slot => decide (s.now < slot.2))).map Prod.fst else none

/-- `cache_manager.set`, which does nothing where Redis fails. -/
def State.store (s : State) (key : String) (c : Computed) (available : Bool) : State :=
  if available then
    { s with
      cache := Function.update s.cache key (some (analysis c.replies, s.now + 3600))
      stored := s.stored ++ [⟨c, s.now⟩] }
  else s

def step (sha256 : String → String) (s : State) : Action → Option State
  | .read i r available =>
    match s.running i, earlyReturn r with
    | some _, _ => none
    | none, some result => some (s.obtain i r result)
    | none, none =>
      match s.hit (cacheKey sha256 r) available with
      | some result => some (s.obtain i r result)
      | none => some (s.run i (some (.missed r)))
  | .compute i =>
    match s.running i with
    | some (.missed r) =>
      match failure r with
      | some result => some (s.obtain i r result)
      | none =>
        some { s.run i (some (.computed ⟨r, s.now⟩)) with computed := s.computed ++ [⟨r, s.now⟩] }
    | _ => none
  | .set i available =>
    match s.running i with
    | some (.computed c) => some ((s.store (cacheKey sha256 c.replies) c available).run i
        (some (.obtained ⟨c.replies, analysis c.replies, c.time⟩)))
    | _ => none
  | .answer i =>
    match s.running i with
    | some (.obtained o) => some { s.run i none with returned := s.returned ++ [⟨o, s.now⟩] }
    | _ => none
  | .crash i => some (s.run i none)
  | .evict key => some { s with cache := Function.update s.cache key none }
  | .tick seconds => some { s with now := s.now + seconds }

/-- The digest tells the repositories apart, and GitHub counts no negative number of stars. -/
def sound (sha256 : String → String) (s : State) : Action → Prop
  | .read _ r _ => 0 ≤ stars r ∧
      ∀ c ∈ s.computed, sha256 (repoUrl c.replies) = sha256 (repoUrl r) → repoUrl c.replies = repoUrl r
  | _ => True

/-- The execution has computed the result itself, or loaded it within the hour after it was
cached, which was not before it was computed. -/
def Fresh (s : State) (c : Computed) (o : Outcome) : Prop :=
  c.replies = o.replies ∧ c.time = o.obtained ∨
    ∃ stored ∈ s.stored, stored.source = c ∧ c.time ≤ stored.time ∧ stored.time ≤ o.obtained ∧
      o.obtained < stored.time + 3600

/-- A completed result is about the repository of its execution, with scores of the unit
interval, and comes from an analysis for which GitHub named the same latest commit. -/
structure Genuine (s : State) (o : Outcome) : Prop where
  repo : find "repo" o.result = some (.str (fullName o.replies))
  scores : ∃ scores, find "scores" o.result = some (.obj scores) ∧
    ∀ kv ∈ scores, ∃ q, kv.2 = .num q ∧ 0 ≤ q ∧ q ≤ 1
  source : ∃ c ∈ s.computed, o.result = analysis c.replies ∧
    latestSha c.replies = latestSha o.replies ∧ Fresh s c o

/-- A result that says nothing about a repository. -/
structure Empty (result : Dict) : Prop where
  status : find "status" result = some (.str "skipped") ∨ find "status" result = some (.str "error") ∨
    find "status" result = some (.str "rate_limited")
  claims : find "claims" result = none

/-- Nor is it in the cache. -/
def Blank (s : State) (o : Outcome) : Prop :=
  Empty o.result ∧ ∀ key slot, s.cache key = some slot → slot.1 ≠ o.result

theorem empty_ended {status reason : String} {rest : Dict}
    (hstatus : status = "skipped" ∨ status = "error" ∨ status = "rate_limited")
    (hrest : find "claims" rest = none) : Empty (ended status reason ++ rest) := by
  constructor
  · obtain rfl | rfl | rfl := hstatus
    · exact .inl rfl
    · exact .inr (.inl rfl)
    · exact .inr (.inr rfl)
  · exact hrest

theorem empty_earlyReturn {r : Replies} {result : Dict} (h : earlyReturn r = some result) :
    Empty result := by
  rw [earlyReturn] at h
  split at h
  · cases h
    exact empty_ended (.inl rfl) rfl
  · split at h
    · cases h
      exact @empty_ended "error" "Invalid GitHub URL" [] (.inr (.inl rfl)) rfl
    · split at h
      · cases h
        exact @empty_ended _ _ [] (.inr (.inr rfl)) rfl
      · cases h

theorem empty_failure {r : Replies} {result : Dict} (h : failure r = some result) : Empty result := by
  rw [failure] at h
  split at h
  · cases h
    exact @empty_ended "error" _ [] (.inr (.inl rfl)) rfl
  · split at h
    · cases h
      exact @empty_ended "error" _ [] (.inr (.inl rfl)) rfl
    · cases h

theorem analysis_not_empty (r : Replies) : ¬ Empty (analysis r) := by
  intro h
  have hcompleted : find "status" (analysis r) = some (.str "completed") := rfl
  have hstatus := h.status
  simp only [hcompleted, Option.some.injEq, Json.str.injEq] at hstatus
  revert hstatus
  decide

theorem scores_mem {r : Replies} (h : 0 ≤ stars r) : ∀ kv ∈ scores r, 0 ≤ kv.2 ∧ kv.2 ≤ 1 := by
  have hcommits : (0 : ℚ) ≤ r.commits.length / 50 := by positivity
  have hcontributors : (0 : ℚ) ≤ r.repo.contributors / 5 := by positivity
  have hstars : (0 : ℚ) ≤ stars r / 100 := div_nonneg (Int.cast_nonneg h) (by norm_num)
  intro kv hkv
  simp only [scores, List.mem_cons, List.not_mem_nil, or_false] at hkv
  obtain rfl | rfl | rfl | rfl | rfl | rfl := hkv
  · exact ⟨le_max_left _ _, max_le zero_le_one (min_le_left _ _)⟩
  · exact ⟨le_min zero_le_one hcommits, min_le_left _ _⟩
  · exact ⟨le_min zero_le_one hcontributors, min_le_left _ _⟩
  · exact ⟨le_min zero_le_one hstars, min_le_left _ _⟩
  · dsimp only
    split <;> norm_num
  · dsimp only
    split <;> norm_num

theorem analysis_scores {r : Replies} (h : 0 ≤ stars r) :
    ∃ scores, find "scores" (analysis r) = some (.obj scores) ∧
      ∀ kv ∈ scores, ∃ q, kv.2 = .num q ∧ 0 ≤ q ∧ q ≤ 1 := by
  refine ⟨_, rfl, ?_⟩
  intro kv hkv
  obtain ⟨kv', hkv', rfl⟩ := List.mem_map.1 hkv
  obtain ⟨hlow, hhigh⟩ := scores_mem h kv' hkv'
  have hround := @roundTo_mem 4 kv'.2 0 1 (by simpa using hlow) (by simpa using hhigh)
  exact ⟨_, rfl, by simpa using hround⟩

/-- The digest has a fixed length, so that a key is read in one way only. -/
theorem cacheKey_inj {sha256 : String → String} (hlength : ∀ text, (sha256 text).length = 64)
    {r r' : Replies} (h : cacheKey sha256 r = cacheKey sha256 r') :
    sha256 (repoUrl r) = sha256 (repoUrl r') ∧ latestSha r = latestSha r' := by
  have hlist := congrArg String.toList h
  simp only [cacheKey, String.toList_append, List.append_assoc] at hlist
  have hdigest : ∀ text, (sha256 text).toList.length = 64 := by
    intro text
    rw [String.length_toList, hlength]
  obtain ⟨hsha, hrest⟩ := List.append_inj (List.append_cancel_left hlist)
    ((hdigest (repoUrl r)).trans (hdigest (repoUrl r')).symm)
  exact ⟨String.toList_inj.1 hsha, String.toList_inj.1 (List.append_cancel_left hrest)⟩

theorem fullName_of_repoUrl {r r' : Replies} (h : repoUrl r = repoUrl r') : fullName r = fullName r' := by
  have happend : "https://github.com/" ++ fullName r = "https://github.com/" ++ fullName r' := h
  exact (String.append_right_inj _).1 happend

/-- A cached result is one that has been computed, for an hour since it was stored. -/
def CachedFrom (sha256 : String → String) (s : State) (key : String) (slot : Dict × Time) : Prop :=
  ∃ stored ∈ s.stored, cacheKey sha256 stored.source.replies = key ∧
    slot = (analysis stored.source.replies, stored.time + 3600)

/-- What an execution under way has got is what it may return. -/
def Phase.Sound (s : State) : Phase → Prop
  | .missed r => 0 ≤ stars r
  | .computed c => c ∈ s.computed
  | .obtained o => o.obtained ≤ s.now ∧ (Genuine s o ∨ Empty o.result)

structure Inv (sha256 : String → String) (s : State) : Prop where
  cached : ∀ key slot, s.cache key = some slot → CachedFrom sha256 s key slot
  stored : ∀ stored ∈ s.stored, stored.source ∈ s.computed ∧ stored.source.time ≤ stored.time ∧
    stored.time ≤ s.now
  computed : ∀ c ∈ s.computed, 0 ≤ stars c.replies ∧ c.time ≤ s.now
  running : ∀ i p, s.running i = some p → p.Sound s
  returned : ∀ e ∈ s.returned, e.obtained ≤ e.time ∧ (Genuine s e.toOutcome ∨ Empty e.result)

theorem inv_start (sha256 : String → String) : Inv sha256 {} := by
  refine ⟨?_, ?_, ?_, ?_, ?_⟩
  · rintro key slot ⟨⟩
  · exact fun stored hstored => absurd hstored List.not_mem_nil
  · exact fun c hc => absurd hc List.not_mem_nil
  · rintro i p ⟨⟩
  · exact fun e he => absurd he List.not_mem_nil

variable {sha256 : String → String} {s t : State}

/-- What has been computed and stored stays so. -/
structure Grows (s t : State) : Prop where
  now : s.now ≤ t.now
  computed : ∀ c ∈ s.computed, c ∈ t.computed
  stored : ∀ stored ∈ s.stored, stored ∈ t.stored

theorem Genuine.mono {o : Outcome} (h : Genuine s o) (hgrows : Grows s t) : Genuine t o := by
  obtain ⟨c, hc, hresult, hsha, hfresh⟩ := h.source
  refine ⟨h.repo, h.scores, c, hgrows.computed c hc, hresult, hsha, ?_⟩
  obtain hself | ⟨stored, hstored, htimes⟩ := hfresh
  · exact .inl hself
  · exact .inr ⟨stored, hgrows.stored stored hstored, htimes⟩

theorem Phase.Sound.mono {p : Phase} (h : p.Sound s) (hgrows : Grows s t) : p.Sound t := by
  cases p with
  | missed r => exact h
  | computed c => exact hgrows.computed c h
  | obtained o => exact ⟨h.1.trans hgrows.now, h.2.imp_left fun hgenuine => hgenuine.mono hgrows⟩

theorem Inv.returned_mono (h : Inv sha256 s) (hgrows : Grows s t) : ∀ e ∈ s.returned,
    e.obtained ≤ e.time ∧ (Genuine t e.toOutcome ∨ Empty e.result) := by
  intro e he
  obtain ⟨htime, hresult⟩ := h.returned e he
  exact ⟨htime, hresult.imp_left fun hgenuine => hgenuine.mono hgrows⟩

theorem Inv.running_mono (h : Inv sha256 s) (hgrows : Grows s t) {i : ℕ} {o : Option Phase}
    (ho : ∀ p ∈ o, p.Sound t) :
    ∀ j p, Function.update s.running i o j = some p → p.Sound t := by
  intro j p hj
  obtain ⟨_, hnew⟩ | hold := entry_update hj
  · exact ho p hnew
  · exact (h.running j p hold).mono hgrows

theorem grows_refl (s : State) : Grows s s := ⟨Nat.le_refl _, fun _ hc => hc, fun _ hs => hs⟩

theorem Inv.run (h : Inv sha256 s) {i : ℕ} {o : Option Phase} (ho : ∀ p ∈ o, p.Sound s) :
    Inv sha256 (s.run i o) := by
  have hgrows : Grows s (s.run i o) := ⟨Nat.le_refl _, fun _ hc => hc, fun _ hs => hs⟩
  refine ⟨h.cached, h.stored, h.computed, ?_, h.returned_mono hgrows⟩
  exact h.running_mono hgrows fun p hp => (ho p hp).mono hgrows

theorem Inv.obtain (h : Inv sha256 s) {i : ℕ} {r : Replies} {result : Dict}
    (hresult : Genuine s ⟨r, result, s.now⟩ ∨ Empty result) :
    Inv sha256 (s.obtain i r result) := by
  apply h.run
  rintro p ⟨⟩
  exact ⟨Nat.le_refl _, hresult⟩

theorem Inv.store (h : Inv sha256 s) {c : Computed} (hc : c ∈ s.computed) (available : Bool) :
    Inv sha256 (s.store (cacheKey sha256 c.replies) c available) := by
  rw [State.store]
  split
  · have hgrows : Grows s { s with
        cache := Function.update s.cache (cacheKey sha256 c.replies)
          (some (analysis c.replies, s.now + 3600))
        stored := s.stored ++ [⟨c, s.now⟩] } :=
      ⟨Nat.le_refl _, fun _ hc => hc, fun _ hs => List.mem_append_left _ hs⟩
    refine ⟨?_, ?_, h.computed, ?_, h.returned_mono hgrows⟩
    · intro key slot hslot
      obtain ⟨rfl, hnew⟩ | hold := entry_update hslot
      · cases hnew
        exact ⟨⟨c, s.now⟩, List.mem_append_right _ (List.mem_singleton_self _), rfl, rfl⟩
      · obtain ⟨stored, hstored, hsource⟩ := h.cached key slot hold
        exact ⟨stored, hgrows.stored stored hstored, hsource⟩
    · intro stored hstored
      obtain hold | hnew := List.mem_append.1 hstored
      · exact h.stored stored hold
      · obtain rfl := List.mem_singleton.1 hnew
        exact ⟨hc, (h.computed c hc).2, Nat.le_refl _⟩
    · exact fun i p hi => (h.running i p hi).mono hgrows
  · exact h

theorem grows_store (key : String) (c : Computed) (available : Bool) :
    Grows s (s.store key c available) := by
  rw [State.store]
  split
  · exact ⟨Nat.le_refl _, fun _ hc => hc, fun _ hs => List.mem_append_left _ hs⟩
  · exact grows_refl s

theorem genuine_hit (hlength : ∀ text, (sha256 text).length = 64) (h : Inv sha256 s) {r : Replies}
    (hapart : ∀ c ∈ s.computed, sha256 (repoUrl c.replies) = sha256 (repoUrl r) →
      repoUrl c.replies = repoUrl r) {available : Bool} {result : Dict}
    (hhit : s.hit (cacheKey sha256 r) available = some result) : Genuine s ⟨r, result, s.now⟩ := by
  rw [State.hit] at hhit
  split at hhit
  next =>
    obtain ⟨slot, hslot, rfl⟩ := Option.map_eq_some_iff.1 hhit
    rw [Option.filter_eq_some_iff] at hslot
    obtain ⟨hcache, hlive⟩ := hslot
    obtain ⟨stored, hstored, hkey, rfl⟩ := h.cached _ slot hcache
    obtain ⟨hcomputed, hbefore, hnow⟩ := h.stored stored hstored
    obtain ⟨hdigest, hsha⟩ := cacheKey_inj hlength hkey
    have hname := fullName_of_repoUrl (hapart stored.source hcomputed hdigest)
    refine ⟨?_, analysis_scores (h.computed stored.source hcomputed).1, stored.source, hcomputed, rfl,
      hsha, .inr ⟨stored, hstored, rfl, hbefore, hnow, of_decide_eq_true hlive⟩⟩
    rw [← hname]
    rfl
  next => cases hhit

/-- An execution may return what it has computed. -/
theorem genuine_computed (h : Inv sha256 s) {c : Computed} (hc : c ∈ s.computed) :
    Genuine s ⟨c.replies, analysis c.replies, c.time⟩ :=
  ⟨rfl, analysis_scores (h.computed c hc).1, c, hc, rfl, rfl, .inl ⟨rfl, rfl⟩⟩

theorem inv_read (hlength : ∀ text, (sha256 text).length = 64) {i : ℕ} {r : Replies}
    {available : Bool} (h : Inv sha256 s) (hok : sound sha256 s (.read i r available))
    (hstep : step sha256 s (.read i r available) = some t) : Inv sha256 t := by
  obtain ⟨hstars, hapart⟩ := hok
  simp only [step] at hstep
  split at hstep
  next => cases hstep
  next result _ hearly =>
    cases hstep
    exact h.obtain (.inr (empty_earlyReturn hearly))
  next =>
    split at hstep
    next result hhit =>
      cases hstep
      exact h.obtain (.inl (genuine_hit hlength h hapart hhit))
    next =>
      cases hstep
      apply h.run
      rintro p ⟨⟩
      exact hstars

theorem inv_compute {i : ℕ} (h : Inv sha256 s) (hstep : step sha256 s (.compute i) = some t) :
    Inv sha256 t := by
  simp only [step] at hstep
  split at hstep
  next r hrunning =>
    have hstars : 0 ≤ stars r := h.running i _ hrunning
    split at hstep
    next result hfailure =>
      cases hstep
      exact h.obtain (.inr (empty_failure hfailure))
    next =>
      cases hstep
      have hgrows : Grows s { s.run i (some (.computed ⟨r, s.now⟩)) with
          computed := s.computed ++ [⟨r, s.now⟩] } :=
        ⟨Nat.le_refl _, fun _ hc => List.mem_append_left _ hc, fun _ hs => hs⟩
      refine ⟨h.cached, ?_, ?_, h.running_mono hgrows ?_, h.returned_mono hgrows⟩
      · intro stored hstored
        obtain ⟨hcomputed, htimes⟩ := h.stored stored hstored
        exact ⟨hgrows.computed _ hcomputed, htimes⟩
      · intro c hc
        obtain hold | hnew := List.mem_append.1 hc
        · exact h.computed c hold
        · obtain rfl := List.mem_singleton.1 hnew
          exact ⟨hstars, Nat.le_refl _⟩
      · rintro p ⟨⟩
        exact List.mem_append_right _ (List.mem_singleton_self _)
  next => cases hstep

theorem inv_set {i : ℕ} {available : Bool} (h : Inv sha256 s)
    (hstep : step sha256 s (.set i available) = some t) : Inv sha256 t := by
  simp only [step] at hstep
  split at hstep
  next c hrunning =>
    cases hstep
    have hc : c ∈ s.computed := h.running i _ hrunning
    apply (h.store hc available).run
    rintro p ⟨⟩
    have hgenuine : Phase.Sound s (.obtained ⟨c.replies, analysis c.replies, c.time⟩) :=
      ⟨(h.computed c hc).2, .inl (genuine_computed h hc)⟩
    exact hgenuine.mono (grows_store _ c available)
  next => cases hstep

theorem inv_answer {i : ℕ} (h : Inv sha256 s) (hstep : step sha256 s (.answer i) = some t) :
    Inv sha256 t := by
  simp only [step] at hstep
  split at hstep
  next o hrunning =>
    cases hstep
    have hgrows : Grows s { s.run i none with returned := s.returned ++ [⟨o, s.now⟩] } :=
      ⟨Nat.le_refl _, fun _ hc => hc, fun _ hs => hs⟩
    refine ⟨h.cached, h.stored, h.computed, h.running_mono hgrows (by rintro p ⟨⟩), ?_⟩
    intro e he
    obtain hold | hnew := List.mem_append.1 he
    · exact h.returned_mono hgrows e hold
    · obtain rfl := List.mem_singleton.1 hnew
      exact (h.running i _ hrunning).mono hgrows
  next => cases hstep

theorem inv_step (hlength : ∀ text, (sha256 text).length = 64) (s : State) (a : Action) (t : State)
    (h : Inv sha256 s) (hok : sound sha256 s a) (hstep : step sha256 s a = some t) : Inv sha256 t := by
  cases a with
  | read i r available => exact inv_read hlength h hok hstep
  | compute i => exact inv_compute h hstep
  | set i available => exact inv_set h hstep
  | answer i => exact inv_answer h hstep
  | crash i =>
    cases hstep
    exact h.run (by rintro p ⟨⟩)
  | evict key =>
    cases hstep
    have hgrows : Grows s { s with cache := Function.update s.cache key none } :=
      ⟨Nat.le_refl _, fun _ hc => hc, fun _ hs => hs⟩
    refine ⟨?_, h.stored, h.computed, fun i p hi => (h.running i p hi).mono hgrows,
      h.returned_mono hgrows⟩
    intro key' slot hslot
    obtain ⟨_, hnone⟩ | hold := entry_update hslot
    · cases hnone
    · exact h.cached key' slot hold
  | tick seconds =>
    cases hstep
    have hgrows : Grows s { s with now := s.now + seconds } :=
      ⟨Nat.le_add_right _ _, fun _ hc => hc, fun _ hs => hs⟩
    refine ⟨h.cached, ?_, ?_, fun i p hi => (h.running i p hi).mono hgrows, h.returned_mono hgrows⟩
    · intro stored hstored
      obtain ⟨hcomputed, hbefore, hnow⟩ := h.stored stored hstored
      exact ⟨hcomputed, hbefore, hnow.trans hgrows.now⟩
    · intro c hc
      obtain ⟨hstars, htime⟩ := h.computed c hc
      exact ⟨hstars, htime.trans hgrows.now⟩

/-- Over every interleaving of analyses, whatever becomes of the cache, a result is
about the repository that was asked for, or about none. -/
theorem results_genuine (sha256 : String → String) (hlength : ∀ text, (sha256 text).length = 64)
    (s : State) (h : Exec (step sha256) (sound sha256) {} s) :
    ∀ e ∈ s.returned, e.obtained ≤ e.time ∧ (Genuine s e.toOutcome ∨ Blank s e.toOutcome) := by
  have hinv := h.invariant (inv_start sha256) (inv_step hlength)
  intro e he
  obtain ⟨htime, hresult⟩ := hinv.returned e he
  refine ⟨htime, hresult.imp_right fun hempty => ⟨hempty, ?_⟩⟩
  intro key slot hslot hsame
  obtain ⟨stored, _, _, rfl⟩ := hinv.cached key slot hslot
  rw [← hsame] at hempty
  exact analysis_not_empty _ hempty

section Sample

def appReplies : Replies where
  githubUrl := "https://github.com/acme/app/"
  repo := { stargazersCount := some 40, language := some (some "Python"), contributors := 3 }
  commits := [some "5f3a", some "91c0"]
  described := true
  daysSincePush := some 73

/-- The digest of the address of the sample, and zeros for any other text. -/
def sampleSha256 (text : String) : String :=
  if text = "https://github.com/acme/app" then
    "aac23a0f5f303e6d05c5d70a5bde82787cfc679ad79754c35a36bf527a5f3c8c"
  else "0000000000000000000000000000000000000000000000000000000000000000"

theorem length_sampleSha256 (text : String) : (sampleSha256 text).length = 64 := by
  rw [sampleSha256]
  split <;> decide

def appKey : String := cacheKey sampleSha256 appReplies

def missed : State := State.run {} 0 (some (.missed appReplies))

def analyzed : State :=
  { missed.run 0 (some (.computed ⟨appReplies, 0⟩)) with computed := [⟨appReplies, 0⟩] }

def waited : State := { analyzed with now := 50 }

def cached : State :=
  (waited.store appKey ⟨appReplies, 0⟩ true).run 0
    (some (.obtained ⟨appReplies, analysis appReplies, 0⟩))

def later : State := { cached with now := 3640 }

/-- Another execution, within the hour after the result was cached. -/
def loaded : State := later.obtain 1 appReplies (analysis appReplies)

def answered : State :=
  { loaded.run 1 none with returned := [⟨⟨appReplies, analysis appReplies, 3640⟩, 3640⟩] }

theorem exec_answered : Exec (step sampleSha256) (sound sampleSha256) {} answered := by
  have hearly : earlyReturn appReplies = none :=
    Option.isNone_iff_eq_none.1 (by decide +kernel)
  have hmiss : step sampleSha256 {} (.read 0 appReplies true) = some missed := by
    simp only [step, hearly]
    rfl
  have hcompute : step sampleSha256 missed (.compute 0) = some analyzed := rfl
  have hwait : step sampleSha256 analyzed (.tick 50) = some waited := rfl
  have hset : step sampleSha256 waited (.set 0 true) = some cached := rfl
  have hwait' : step sampleSha256 cached (.tick 3590) = some later := rfl
  have hload : step sampleSha256 later (.read 1 appReplies true) = some loaded := by
    have hcache : later.cache =
        Function.update (fun _ => none) appKey (some (analysis appReplies, 3650)) := rfl
    have hslot : later.cache appKey = some (analysis appReplies, 3650) := by
      rw [hcache, Function.update_self]
    have hidle : later.running 1 = none := rfl
    have hhit : later.hit appKey true = some (analysis appReplies) := by
      simp only [State.hit, hslot]
      rfl
    have hkey : cacheKey sampleSha256 appReplies = appKey := rfl
    simp only [step, hearly, hidle, hkey, hhit]
    rfl
  have hanswer : step sampleSha256 loaded (.answer 1) = some answered := rfl
  have hstars : 0 ≤ stars appReplies := by decide
  have hsame : ∀ c ∈ later.computed, sampleSha256 (repoUrl c.replies) = sampleSha256 (repoUrl appReplies) →
      repoUrl c.replies = repoUrl appReplies := by
    intro c hc _
    obtain rfl := List.mem_singleton.1 hc
    rfl
  have hmissed := (@Exec.refl _ _ (step sampleSha256) (sound sampleSha256) _).tail
    (a := Action.read 0 appReplies true) ⟨hstars, fun _ hc => absurd hc List.not_mem_nil⟩ hmiss
  have hcached := ((hmissed.tail (a := Action.compute 0) trivial hcompute).tail
    (a := Action.tick 50) trivial hwait).tail (a := Action.set 0 true) trivial hset
  exact ((hcached.tail (a := Action.tick 3590) trivial hwait').tail
    (a := Action.read 1 appReplies true) ⟨hstars, hsame⟩ hload).tail (a := Action.answer 1) trivial
    hanswer

/-- One execution analyzes the repository, and the other loads what it has stored. -/
theorem results_genuine_app : answered.returned.length = 1 ∧ answered.computed.length = 1 ∧
    ∀ e ∈ answered.returned,
      e.obtained ≤ e.time ∧ (Genuine answered e.toOutcome ∨ Blank answered e.toOutcome) :=
  ⟨rfl, rfl, results_genuine sampleSha256 length_sampleSha256 answered exec_answered⟩

end Sample

end EvalEngine.GithubAnalysis
