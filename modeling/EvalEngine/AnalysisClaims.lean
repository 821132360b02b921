import EvalEngine.LowerCase
import EvalEngine.PythonText
import EvalEngine.StoredFindings
import EvalEngine.TaskReports

namespace EvalEngine.AnalysisClaims

open EvalEngine.JsonValues EvalEngine.Exceptions EvalEngine.RunModel EvalEngine.Rounding
open EvalEngine.StageTables EvalEngine.CrossCheck EvalEngine.StageContracts EvalEngine.LowerCase EvalEngine.PythonText
open EvalEngine.StoredFindings EvalEngine.ExceptLists EvalEngine.TaskReports

/-- What an analysis says about the submission. -/
structure ExtractedClaim where
  text : String
  category : String
  confidence : ℚ
  sourceReference : Option String := none

def ExtractedClaim.dict (claim : ExtractedClaim) : Dict :=
  [("text", .str claim.text), ("category", .str claim.category), ("confidence", .num claim.confidence)] ++
    claim.sourceReference.elim [] (fun reference => [("source_reference", .str reference)])

/-- The parts of a result that the later stages read. -/
def completed (claims : List ExtractedClaim) : Json :=
  .obj [("status", .str "completed"), ("claims", .arr (claims.map (fun c => .obj c.dict)))]

def withoutClaims (status : String) : Json := .obj [("status", .str status)]

/-- What the API says about a repository. A field may be missing, and the language may be null. -/
structure Repository where
  stargazersCount : Option ℤ := some 0
  language : Option (Option String) := none
  contributors : ℕ := 0

def languageText (repo : Repository) : String :=
  (repo.language.getD (some "unknown")).getD "None"

def githubClaims (repo : Repository) : List ExtractedClaim :=
  [{ text := "Repository has " ++ toString (repo.stargazersCount.getD 0) ++ " stars"
     category := "traction"
     confidence := 1 },
    { text := "Primary language is " ++ languageText repo
      category := "product"
      confidence := 1 },
    { text := toString repo.contributors ++ " contributors active on the project"
      category := "team"
      confidence := 9 / 10 }]

/-- The pages of the API, and the repository behind a cached result. -/
structure GithubPages extends GithubAnswers where
  repo : Repository
  cachedRepo : Repository := {}

def analyzeGithub (a : GithubPages) : Json :=
  if a.githubUrl = "" then withoutClaims "skipped"
  else if (parts a.githubUrl).length < 2 then withoutClaims "error"
  else if a.rateLimited then withoutClaims "rate_limited"
  else if a.cachedResult then completed (githubClaims a.cachedRepo)
  else if a.repoStatus ≠ 200 then withoutClaims "error"
  else completed (githubClaims a.repo)

def slideText (i : ℕ) : String := "[Slide " ++ toString (i + 1) ++ " content extracted]"

/-- The text of the slides, of which there is one for every 50 kB and no more than 50. -/
def deckText (fileSize : ℕ) : String :=
  String.join ((List.range (min (max 1 (fileSize / 50000)) 50)).map (fun i => slideText i ++ "\n"))

def sectionFound (keywords : List String) (textLower : String) : Bool :=
  keywords.any (fun kw => isIn kw textLower)

def deckClaim (text category : String) (confidence : ℚ) : ExtractedClaim :=
  { text, category, confidence, sourceReference := some "Pitch deck analysis" }

def deckClaims (textLower : String) : List ExtractedClaim :=
  (if sectionFound ["financial", "projection", "revenue", "arr"] textLower then
    [deckClaim "Pitch deck contains financial projections" "financials" (8 / 10)] else []) ++
  (if sectionFound ["traction", "growth", "users", "customers"] textLower then
    [deckClaim "Startup claims traction metrics in pitch deck" "traction" (7 / 10)] else []) ++
  (if sectionFound ["team", "founders", "experience"] textLower then
    [deckClaim "Team section present in pitch deck" "team" (9 / 10)] else [])

def analyzePitchDeck (tables : CaseTables) (a : PitchDeckAnswers) : Json :=
  if a.pitchDeckUrl = "" then withoutClaims "skipped"
  else if !a.downloaded then withoutClaims "error"
  else match a.fileSize with
    | none => withoutClaims "partial"
    | some 0 => withoutClaims "error"
    | some fileSize => completed (deckClaims (lower tables (deckText fileSize)))

/-- Whether some chunk of the video can be read. -/
def transcribed (a : VideoAnswers) (contentLength : ℕ) : Bool :=
  (List.range (min (totalChunks contentLength) 100)).any a.readable

def videoClaims (a : VideoAnswers) (contentLength : ℕ) : List ExtractedClaim :=
  if transcribed a contentLength then
    [{ text := "Video pitch is approximately " ++
         toString (roundHalfEven (contentLength / (128 * 1024))) ++ " seconds long"
       category := "product"
       confidence := 9 / 10
       sourceReference := some "Video analysis" }]
  else []

def analyzeVideo (a : VideoAnswers) : Json :=
  if a.videoUrl = "" then withoutClaims "skipped"
  else match a.contentLength, a.raisedAfter with
    | none, _ | some 0, _ | _, some _ => withoutClaims "error"
    | some contentLength, none => completed (videoClaims a contentLength)

def socialSignals : List (String × List String) :=
  [("customers", ["customer", "client", "trusted by"]),
    ("partners", ["partner", "integration", "powered by"]),
    ("press", ["featured in", "as seen in", "press"]),
    ("metrics", ["users", "revenue", "growth", "%"])]

def webClaim (websiteUrl signalType kw : String) : ExtractedClaim :=
  { text := "Website mentions " ++ signalType ++ " (" ++ kw ++ ")"
    category := if signalType ≠ "metrics" then signalType else "traction"
    confidence := 6 / 10
    sourceReference := some ("Website: " ++ websiteUrl) }

/-- One claim for every signal, with the first of its keywords on the page. -/
def webClaims (websiteUrl htmlLower : String) : List ExtractedClaim :=
  socialSignals.filterMap fun signal =>
    (signal.2.find? (fun kw => isIn kw htmlLower)).map (webClaim websiteUrl signal.1)

/-- The main page of a website. -/
structure WebPage extends WebAnswers where
  html : String

def verifyWeb (tables : CaseTables) (a : WebPage) : Json :=
  if a.websiteUrl = "" then withoutClaims "skipped"
  else match a.raisedAfter with
    | some _ => withoutClaims "error"
    | none =>
      if a.status ≠ 200 then withoutClaims "error"
      else completed (webClaims a.websiteUrl (lower tables a.html))

/-- What the columns of a claim ask of the dict that it is made from. -/
structure FitsColumns (data : Dict) : Prop where
  claimText : ∃ s, find "text" data = some (.str s)
  category : ∃ s, categoryOf data = .str s ∧ s.length ≤ 100
  confidenceScore : ∃ q, CrossCheck.get "confidence" (.num (1 / 2)) data = .num q ∧ 0 ≤ q ∧ q ≤ 1
  sourceReference : ∃ s, CrossCheck.get "source_reference" (.str "") data = .str s ∧ s.length ≤ 500

/-- A claim as the first step of `_cross_check` leaves it. -/
def tagged (claim : ExtractedClaim) : Dict := set "source_task" (.str "completed") claim.dict

structure ExtractedClaim.Fits (claim : ExtractedClaim) : Prop where
  category : claim.category.length ≤ 100
  confidence : 0 ≤ claim.confidence ∧ claim.confidence ≤ 1
  sourceReference : (claim.sourceReference.getD "").length ≤ 500

theorem fits_mk (text : String) {category : String} {confidence : ℚ} {reference : Option String}
    (hcategory : category.length ≤ 100) (hconfidence : 0 ≤ confidence ∧ confidence ≤ 1)
    (hreference : (reference.getD "").length ≤ 500) :
    ExtractedClaim.Fits ⟨text, category, confidence, reference⟩ :=
  ⟨hcategory, hconfidence, hreference⟩

theorem get_tagged (claim : ExtractedClaim) :
    find "text" (tagged claim) = some (.str claim.text) ∧
      categoryOf (tagged claim) = .str claim.category ∧
      CrossCheck.get "confidence" (.num (1 / 2)) (tagged claim) = .num claim.confidence ∧
      CrossCheck.get "source_reference" (.str "") (tagged claim) =
        .str (claim.sourceReference.getD "") := by
  obtain ⟨text, category, confidence, sourceReference⟩ := claim
  cases sourceReference <;> exact ⟨rfl, rfl, rfl, rfl⟩

theorem fitsColumns_tagged (claim : ExtractedClaim) : FitsColumns (tagged claim) ↔ claim.Fits := by
  obtain ⟨htext, hcategory, hconfidence, hreference⟩ := get_tagged claim
  constructor
  · rintro ⟨_, ⟨category, hcat, hlen⟩, ⟨q, hq, hrange⟩, ⟨reference, href, hreflen⟩⟩
    rw [hcategory, Json.str.injEq] at hcat
    rw [hconfidence, Json.num.injEq] at hq
    rw [hreference, Json.str.injEq] at href
    subst hcat hq href
    exact ⟨hlen, hrange, hreflen⟩
  · intro h
    exact ⟨⟨_, htext⟩, ⟨_, hcategory, h.category⟩, ⟨_, hconfidence, h.confidence⟩,
      ⟨_, hreference, h.sourceReference⟩⟩

/-- The claims that the first step of `_cross_check` reads off a result. -/
def Yields (result : Json) (claims : List ExtractedClaim) : Prop :=
  claimsOf result = .ok (claims.map tagged)

theorem yields_withoutClaims (status : String) : Yields (withoutClaims status) [] := rfl

theorem yields_completed (claims : List ExtractedClaim) : Yields (completed claims) claims := by
  have htags : (claims.map (fun c => Json.obj c.dict)).mapM (tagClaim (.str "completed")) =
      .ok (claims.map tagged) := by
    rw [forall₂_of_mapM, List.forall₂_map_left_iff, List.forall₂_map_right_iff]
    exact List.forall₂_same.2 fun c _ => rfl
  exact htags

theorem yields_github (a : GithubPages) : ∃ claims, Yields (analyzeGithub a) claims ∧
    ∀ c ∈ claims, c ∈ githubClaims a.repo ∨ c ∈ githubClaims a.cachedRepo := by
  rw [analyzeGithub]
  split
  · exact ⟨[], yields_withoutClaims _, by simp⟩
  · split
    · exact ⟨[], yields_withoutClaims _, by simp⟩
    · split
      · exact ⟨[], yields_withoutClaims _, by simp⟩
      · split
        · exact ⟨_, yields_completed _, fun c hc => .inr hc⟩
        · split
          · exact ⟨[], yields_withoutClaims _, by simp⟩
          · exact ⟨_, yields_completed _, fun c hc => .inl hc⟩

theorem yields_pitchDeck (tables : CaseTables) (a : PitchDeckAnswers) :
    ∃ claims, Yields (analyzePitchDeck tables a) claims ∧
      ∀ c ∈ claims, ∃ textLower, c ∈ deckClaims textLower := by
  rw [analyzePitchDeck]
  split
  · exact ⟨[], yields_withoutClaims _, by simp⟩
  · split
    · exact ⟨[], yields_withoutClaims _, by simp⟩
    · split
      · exact ⟨[], yields_withoutClaims _, by simp⟩
      · exact ⟨[], yields_withoutClaims _, by simp⟩
      · exact ⟨_, yields_completed _, fun c hc => ⟨_, hc⟩⟩

theorem yields_video (a : VideoAnswers) : ∃ claims, Yields (analyzeVideo a) claims ∧
    ∀ c ∈ claims, ∃ contentLength, c ∈ videoClaims a contentLength := by
  rw [analyzeVideo]
  split
  · exact ⟨[], yields_withoutClaims _, by simp⟩
  · split
    · exact ⟨[], yields_withoutClaims _, by simp⟩
    · exact ⟨[], yields_withoutClaims _, by simp⟩
    · exact ⟨[], yields_withoutClaims _, by simp⟩
    · exact ⟨_, yields_completed _, fun c hc => ⟨_, hc⟩⟩

/-- The page is fetched, and shows one of the keywords. -/
def ShowsSignal (tables : CaseTables) (a : WebPage) : Prop :=
  a.raisedAfter = none ∧ a.status = 200 ∧
    ∃ signal ∈ socialSignals, ∃ kw ∈ signal.2, isIn kw (lower tables a.html) = true

theorem mem_webClaims {websiteUrl htmlLower : String} {c : ExtractedClaim}
    (h : c ∈ webClaims websiteUrl htmlLower) : ∃ signal ∈ socialSignals, ∃ kw ∈ signal.2,
      isIn kw htmlLower = true ∧ c = webClaim websiteUrl signal.1 kw := by
  obtain ⟨signal, hsignal, hfound⟩ := List.mem_filterMap.1 h
  obtain ⟨kw, hkw, rfl⟩ := Option.map_eq_some_iff.1 hfound
  exact ⟨signal, hsignal, kw, List.mem_of_find?_eq_some hkw,
    List.find?_some (p := fun kw => isIn kw htmlLower) hkw, rfl⟩

theorem exists_webClaims {websiteUrl htmlLower : String} (h : ∃ signal ∈ socialSignals, ∃ kw ∈ signal.2,
    isIn kw htmlLower = true) : ∃ c, c ∈ webClaims websiteUrl htmlLower := by
  obtain ⟨signal, hsignal, kw, hkw, hin⟩ := h
  cases hfind : signal.2.find? (fun kw => isIn kw htmlLower) with
  | none => exact absurd hin (List.find?_eq_none.1 hfind kw hkw)
  | some found =>
    exact ⟨webClaim websiteUrl signal.1 found, List.mem_filterMap.2 ⟨signal, hsignal, by rw [hfind]; rfl⟩⟩

theorem yields_web (tables : CaseTables) (a : WebPage) : ∃ claims, Yields (verifyWeb tables a) claims ∧
    (∀ c ∈ claims, ∃ signal ∈ socialSignals, ∃ kw ∈ signal.2,
      c = webClaim a.websiteUrl signal.1 kw) ∧
    (claims ≠ [] ↔ a.websiteUrl ≠ "" ∧ ShowsSignal tables a) := by
  rw [verifyWeb, ShowsSignal]
  split
  next hurl => exact ⟨[], yields_withoutClaims _, by simp, by simp [hurl]⟩
  next hurl =>
    split
    next hraised => exact ⟨[], yields_withoutClaims _, by simp, by simp [hraised]⟩
    next hraised =>
      split
      next hstatus => exact ⟨[], yields_withoutClaims _, by simp, by simp [hstatus]⟩
      next hstatus =>
        refine ⟨_, yields_completed _, ?_, ?_⟩
        · intro c hc
          obtain ⟨signal, hsignal, kw, hkw, _, hc⟩ := mem_webClaims hc
          exact ⟨signal, hsignal, kw, hkw, hc⟩
        · constructor
          · intro hne
            obtain ⟨c, hc⟩ := List.exists_mem_of_ne_nil _ hne
            obtain ⟨signal, hsignal, kw, hkw, hin, _⟩ := mem_webClaims hc
            exact ⟨hurl, hraised, not_not.1 hstatus, signal, hsignal, kw, hkw, hin⟩
          · rintro ⟨_, _, _, hsignal⟩
            have hsome : ∃ c, c ∈ webClaims a.websiteUrl (lower tables a.html) := exists_webClaims hsignal
            obtain ⟨c, hc⟩ := hsome
            exact List.ne_nil_of_mem hc

theorem githubClaims_fit {repo : Repository} : ∀ c ∈ githubClaims repo, c.Fits := by
  intro c hc
  simp only [githubClaims, List.mem_cons, List.not_mem_nil, or_false] at hc
  obtain rfl | rfl | rfl := hc <;> exact fits_mk _ (by decide) (by norm_num) (by decide)

theorem deckClaims_fit {textLower : String} : ∀ c ∈ deckClaims textLower, c.Fits := by
  have hone : ∀ (p : Bool) (c : ExtractedClaim), c.Fits → ∀ d ∈ (if p then [c] else []), d.Fits := by
    intro p c hc d hd
    cases p with
    | true => exact List.mem_singleton.1 hd ▸ hc
    | false => cases hd
  intro c hc
  obtain hc | hc := List.mem_append.1 hc
  · obtain hc | hc := List.mem_append.1 hc
    · exact hone _ _ (fits_mk _ (by decide) (by norm_num) (by decide)) c hc
    · exact hone _ _ (fits_mk _ (by decide) (by norm_num) (by decide)) c hc
  · exact hone _ _ (fits_mk _ (by decide) (by norm_num) (by decide)) c hc

theorem videoClaims_fit {a : VideoAnswers} {contentLength : ℕ} :
    ∀ c ∈ videoClaims a contentLength, c.Fits := by
  intro c hc
  rw [videoClaims] at hc
  split at hc
  · obtain rfl := List.mem_singleton.1 hc
    exact fits_mk _ (by decide) (by norm_num) (by decide)
  · cases hc

/-- What a signal says fits. The reference repeats the address of the website
behind nine characters. -/
theorem webClaim_fits_iff {websiteUrl kw : String} {signal : String × List String}
    (h : signal ∈ socialSignals) :
    (webClaim websiteUrl signal.1 kw).Fits ↔ websiteUrl.length ≤ 491 := by
  have hcategory : ∀ signal ∈ socialSignals,
      (if signal.1 ≠ "metrics" then signal.1 else "traction").length ≤ 100 := by decide
  have hlength : ("Website: " ++ websiteUrl).length = 9 + websiteUrl.length := by
    rw [String.length_append]
    rfl
  constructor
  · intro hfits
    have hle : ("Website: " ++ websiteUrl).length ≤ 500 := hfits.sourceReference
    omega
  · intro hle
    have hle' : ("Website: " ++ websiteUrl).length ≤ 500 := by omega
    exact fits_mk _ (hcategory signal h) (by norm_num) hle'

/-- The results of the parallel analyses. -/
def analysisResults (tables : CaseTables) (github : GithubPages) (deck : PitchDeckAnswers)
    (video : VideoAnswers) (web : WebPage) : List Json :=
  [analyzeGithub github, analyzePitchDeck tables deck, analyzeVideo video, verifyWeb tables web]

theorem aggregate_yields {results : List Json} {claims : List (List ExtractedClaim)}
    (h : List.Forall₂ Yields results claims) :
    aggregate results = .ok (claims.flatten.map tagged) := by
  have hlists : results.mapM claimsOf = .ok (claims.map (List.map tagged)) := by
    rw [forall₂_of_mapM, List.forall₂_map_right_iff]
    exact h
  rw [aggregate, hlists, List.map_flatten]
  rfl

/-- What the text type of the database asks of a claim. -/
structure ExtractedClaim.NulFree (claim : ExtractedClaim) : Prop where
  text : textStorable claim.text = true
  category : textStorable claim.category = true
  sourceReference : textStorable (claim.sourceReference.getD "") = true

theorem newClaim_tagged (run : EvaluationRun) (claim : ExtractedClaim) :
    ∃ row, newClaim run (tagged claim) = .ok row ∧
      row.storable = (textStorable claim.text && varchar 100 claim.category &&
        varchar 500 (claim.sourceReference.getD "")) := by
  have hstatus : varchar 50 "unverified" = true := by decide
  have hevidence : dictStorable [("source_task", .str "completed")] = true := by decide
  obtain ⟨text, category, confidence, sourceReference⟩ := claim
  cases sourceReference with
  | none =>
    refine ⟨_, rfl, ?_⟩
    exact congrArg₂ (fun x y => textStorable text && varchar 100 category && varchar 500 "" && x && y)
      hstatus hevidence |>.trans (by simp)
  | some reference =>
    refine ⟨_, rfl, ?_⟩
    exact congrArg₂
      (fun x y => textStorable text && varchar 100 category && varchar 500 reference && x && y)
      hstatus hevidence |>.trans (by simp)

/-- The transaction of the second step goes through exactly when every claim fits. -/
theorem storeClaims_tagged (run : EvaluationRun) (db : Store) {claims : List ExtractedClaim}
    (hnul : ∀ c ∈ claims, c.NulFree) (hconf : ∀ c ∈ claims, 0 ≤ c.confidence ∧ c.confidence ≤ 1) :
    (∃ r, storeClaims run db (claims.map tagged) = .ok r) ↔ ∀ c ∈ claims, c.Fits := by
  have hrow : ∀ c ∈ claims, ∃ row, newClaim run (tagged c) = .ok row ∧
      (row.storable = true ↔ c.Fits) := by
    intro c hc
    obtain ⟨row, hnew, hstorable⟩ := newClaim_tagged run c
    obtain ⟨htext, hcategory, hreference⟩ := hnul c hc
    refine ⟨row, hnew, ?_⟩
    rw [hstorable, varchar, varchar, htext, hcategory, hreference]
    simp only [Bool.true_and, Bool.and_true, Bool.and_eq_true, decide_eq_true_eq]
    exact ⟨fun h => ⟨h.1, hconf c hc, h.2⟩, fun h => ⟨h.category, h.sourceReference⟩⟩
  constructor
  · rintro ⟨⟨db', stored⟩, hstored⟩ c hc
    obtain ⟨rows, hrows, hforall, _⟩ := storeClaims_ok hstored
    obtain ⟨row, hmem, hnew⟩ :=
      exists_of_forall₂ (forall₂_of_mapM.1 hrows) (tagged c) (List.mem_map_of_mem hc)
    obtain ⟨_, _, hstoredAs⟩ := exists_of_forall₂ hforall row hmem
    obtain ⟨row', hnew', hiff⟩ := hrow c hc
    rw [hnew] at hnew'
    cases hnew'
    exact hiff.1 hstoredAs.storable
  · intro hfits
    have hrows : ∀ d ∈ claims.map tagged, ∃ row, newClaim run d = .ok row ∧ row.storable = true := by
      intro d hd
      obtain ⟨c, hc, rfl⟩ := List.mem_map.1 hd
      obtain ⟨row, hnew, hiff⟩ := hrow c hc
      exact ⟨row, hnew, hiff.2 (hfits c hc)⟩
    obtain ⟨rows, hrows, hall⟩ := mapM_exists hrows
    exact storeClaims_exists hrows hall db

theorem nulFree_mk {text category : String} (confidence : ℚ) {reference : Option String}
    (htext : textStorable text = true) (hcategory : textStorable category = true)
    (hreference : textStorable (reference.getD "") = true) :
    ExtractedClaim.NulFree ⟨text, category, confidence, reference⟩ :=
  ⟨htext, hcategory, hreference⟩

theorem githubClaims_nulFree {repo : Repository} (h : textStorable (languageText repo) = true) :
    ∀ c ∈ githubClaims repo, c.NulFree := by
  have hstars : textStorable "Repository has " = true := by decide
  have hstars' : textStorable " stars" = true := by decide
  have hlanguage : textStorable "Primary language is " = true := by decide
  have hcontributors : textStorable " contributors active on the project" = true := by decide
  intro c hc
  simp only [githubClaims, List.mem_cons, List.not_mem_nil, or_false] at hc
  obtain rfl | rfl | rfl := hc
  · refine nulFree_mk _ ?_ (by decide) (by decide)
    simp only [textStorable_append, hstars, hstars', textStorable_toString_int, Bool.and_self]
  · refine nulFree_mk _ ?_ (by decide) (by decide)
    simp only [textStorable_append, hlanguage, h, Bool.and_self]
  · refine nulFree_mk _ ?_ (by decide) (by decide)
    simp only [textStorable_append, hcontributors, textStorable_toString, Bool.and_self]

theorem deckClaims_nulFree {textLower : String} : ∀ c ∈ deckClaims textLower, c.NulFree := by
  have hone : ∀ (p : Bool) (c : ExtractedClaim), c.NulFree →
      ∀ d ∈ (if p then [c] else []), d.NulFree := by
    intro p c hc d hd
    cases p with
    | true => exact List.mem_singleton.1 hd ▸ hc
    | false => cases hd
  intro c hc
  obtain hc | hc := List.mem_append.1 hc
  · obtain hc | hc := List.mem_append.1 hc
    · exact hone _ _ (nulFree_mk _ (by decide) (by decide) (by decide)) c hc
    · exact hone _ _ (nulFree_mk _ (by decide) (by decide) (by decide)) c hc
  · exact hone _ _ (nulFree_mk _ (by decide) (by decide) (by decide)) c hc

theorem videoClaims_nulFree {a : VideoAnswers} {contentLength : ℕ} :
    ∀ c ∈ videoClaims a contentLength, c.NulFree := by
  have hhead : textStorable "Video pitch is approximately " = true := by decide
  have htail : textStorable " seconds long" = true := by decide
  intro c hc
  rw [videoClaims] at hc
  split at hc
  · obtain rfl := List.mem_singleton.1 hc
    refine nulFree_mk _ ?_ (by decide) (by decide)
    simp only [textStorable_append, hhead, htail, textStorable_toString_int, Bool.and_self]
  · cases hc

theorem webClaim_nulFree {websiteUrl kw : String} {signal : String × List String}
    (hsignal : signal ∈ socialSignals) (hkw : kw ∈ signal.2) (h : textStorable websiteUrl = true) :
    (webClaim websiteUrl signal.1 kw).NulFree := by
  have hwords : ∀ signal ∈ socialSignals, textStorable signal.1 = true ∧
      textStorable (if signal.1 ≠ "metrics" then signal.1 else "traction") = true ∧
      ∀ kw ∈ signal.2, textStorable kw = true := by decide
  have hhead : textStorable "Website mentions " = true := by decide
  have hopen : textStorable " (" = true := by decide
  have hclose : textStorable ")" = true := by decide
  have hreference : textStorable "Website: " = true := by decide
  obtain ⟨htype, hcategory, hkeywords⟩ := hwords signal hsignal
  refine nulFree_mk _ ?_ hcategory ?_
  · simp only [textStorable_append, hhead, hopen, hclose, htype, hkeywords kw hkw, Bool.and_self]
  · simp only [Option.getD_some, textStorable_append, hreference, h, Bool.and_self]

/-- The claims of the parallel analyses. -/
structure Produced (tables : CaseTables) (github : GithubPages) (web : WebPage)
    (claims : List ExtractedClaim) : Prop where
  confidence : ∀ c ∈ claims, 0 ≤ c.confidence ∧ c.confidence ≤ 1
  fits_iff : (∀ c ∈ claims, c.Fits) ↔ web.websiteUrl.length ≤ 491 ∨ ¬ ShowsSignal tables web
  nulFree : textStorable web.websiteUrl = true → textStorable (languageText github.repo) = true →
    textStorable (languageText github.cachedRepo) = true → ∀ c ∈ claims, c.NulFree

theorem exists_produced (tables : CaseTables) (github : GithubPages) (deck : PitchDeckAnswers)
    (video : VideoAnswers) (web : WebPage) : ∃ claims,
      aggregate (analysisResults tables github deck video web) = .ok (claims.map tagged) ∧
        Produced tables github web claims := by
  obtain ⟨fromGithub, hgithub, hgithubMem⟩ := yields_github github
  obtain ⟨fromDeck, hdeck, hdeckMem⟩ := yields_pitchDeck tables deck
  obtain ⟨fromVideo, hvideo, hvideoMem⟩ := yields_video video
  obtain ⟨fromWeb, hweb, hwebMem, hwebSome⟩ := yields_web tables web
  refine ⟨_, aggregate_yields (.cons hgithub (.cons hdeck (.cons hvideo (.cons hweb .nil)))), ?_⟩
  have hgithubFits : ∀ c ∈ fromGithub, c.Fits :=
    fun c hc => (hgithubMem c hc).elim (githubClaims_fit c) (githubClaims_fit c)
  have hdeckFits : ∀ c ∈ fromDeck, c.Fits := by
    intro c hc
    obtain ⟨textLower, hc⟩ := hdeckMem c hc
    exact deckClaims_fit c hc
  have hvideoFits : ∀ c ∈ fromVideo, c.Fits := by
    intro c hc
    obtain ⟨contentLength, hc⟩ := hvideoMem c hc
    exact videoClaims_fit c hc
  have hwebFits : ∀ c ∈ fromWeb, (c.Fits ↔ web.websiteUrl.length ≤ 491) := by
    intro c hc
    obtain ⟨signal, hsignal, kw, _, rfl⟩ := hwebMem c hc
    exact webClaim_fits_iff hsignal
  have hmem : ∀ c, c ∈ [fromGithub, fromDeck, fromVideo, fromWeb].flatten ↔
      c ∈ fromGithub ∨ c ∈ fromDeck ∨ c ∈ fromVideo ∨ c ∈ fromWeb := by
    simp
  constructor
  · intro c hc
    obtain hc | hc | hc | hc := (hmem c).1 hc
    · exact (hgithubFits c hc).confidence
    · exact (hdeckFits c hc).confidence
    · exact (hvideoFits c hc).confidence
    · obtain ⟨signal, _, kw, _, rfl⟩ := hwebMem c hc
      have hrange : (0 : ℚ) ≤ 6 / 10 ∧ (6 / 10 : ℚ) ≤ 1 := by norm_num
      exact hrange
  · constructor
    · intro h
      by_cases hshows : ShowsSignal tables web
      · left
        by_cases hurl : web.websiteUrl = ""
        · rw [hurl]
          decide
        · obtain ⟨c, hc⟩ := List.exists_mem_of_ne_nil _ (hwebSome.2 ⟨hurl, hshows⟩)
          exact (hwebFits c hc).1 (h c ((hmem c).2 (.inr (.inr (.inr hc)))))
      · exact .inr hshows
    · intro h c hc
      obtain hc | hc | hc | hc := (hmem c).1 hc
      · exact hgithubFits c hc
      · exact hdeckFits c hc
      · exact hvideoFits c hc
      · obtain hlength | hshows := h
        · exact (hwebFits c hc).2 hlength
        · exact absurd (hwebSome.1 (List.ne_nil_of_mem hc)).2 hshows
  · intro hurl hrepo hcached c hc
    obtain hc | hc | hc | hc := (hmem c).1 hc
    · exact (hgithubMem c hc).elim (githubClaims_nulFree hrepo c) (githubClaims_nulFree hcached c)
    · obtain ⟨textLower, hc⟩ := hdeckMem c hc
      exact deckClaims_nulFree c hc
    · obtain ⟨contentLength, hc⟩ := hvideoMem c hc
      exact videoClaims_nulFree c hc
    · obtain ⟨signal, hsignal, kw, hkw, rfl⟩ := hwebMem c hc
      exact webClaim_nulFree hsignal hkw hurl

/-- Every claim of the analyses fits its columns exactly when the address of
the website has no more than 491 characters, or the website is not made claims
of. The same decides whether the transaction of `_cross_check` goes through. -/
theorem analysis_claims_fit (tables : CaseTables) (github : GithubPages) (deck : PitchDeckAnswers)
    (video : VideoAnswers) (web : WebPage) :
    ∃ claims, aggregate (analysisResults tables github deck video web) = .ok claims ∧
      ((∀ d ∈ claims, FitsColumns d) ↔
        web.websiteUrl.length ≤ 491 ∨ ¬ ShowsSignal tables web) ∧
      ∀ run db, textStorable web.websiteUrl = true → textStorable (languageText github.repo) = true →
        textStorable (languageText github.cachedRepo) = true →
        ((∃ r, storeClaims run db claims = .ok r) ↔
          web.websiteUrl.length ≤ 491 ∨ ¬ ShowsSignal tables web) := by
  obtain ⟨claims, haggregate, hproduced⟩ := exists_produced tables github deck video web
  refine ⟨_, haggregate, ?_, ?_⟩
  · rw [← hproduced.fits_iff, List.forall_mem_map]
    exact forall₂_congr fun c _ => fitsColumns_tagged c
  · intro run db hurl hrepo hcached
    rw [← hproduced.fits_iff]
    exact storeClaims_tagged run db (hproduced.nulFree hurl hrepo hcached) hproduced.confidence

def longPath : String := String.ofList (List.replicate 480 'a')

def longAddress : String := "https://acme.example/" ++ longPath

def praisingPage : WebPage := { websiteUrl := longAddress, html := "Trusted by 10 users" }

theorem length_longPath : longPath.length = 480 :=
  String.length_ofList.trans List.length_replicate

theorem length_longAddress : longAddress.length = 501 := by
  have hhead : "https://acme.example/".length = 21 := by decide
  have hsum : longAddress.length = "https://acme.example/".length + longPath.length :=
    String.length_append _ _
  simp only [hsum, hhead, length_longPath]

theorem praisingPage_showsSignal : ShowsSignal asciiCases praisingPage := by
  refine ⟨rfl, rfl, ("customers", ["customer", "client", "trusted by"]), by simp [socialSignals],
    "trusted by", by simp, ?_⟩
  decide +kernel

/-- A website with an accepted address makes a claim that no row can hold. -/
theorem long_address_does_not_fit : longAddress.length ≤ 2048 ∧
    ∃ claims, aggregate (analysisResults asciiCases { githubUrl := "", repo := {} }
        { pitchDeckUrl := "" } { videoUrl := "" } praisingPage) = .ok claims ∧
      ¬ ∀ d ∈ claims, FitsColumns d := by
  constructor
  · rw [length_longAddress]
    decide
  · obtain ⟨claims, haggregate, hproduced⟩ := exists_produced asciiCases
      { githubUrl := "", repo := {} } { pitchDeckUrl := "" } { videoUrl := "" } praisingPage
    refine ⟨_, haggregate, ?_⟩
    rw [List.forall_mem_map]
    intro hall
    have hfits := hproduced.fits_iff.1 fun c hc => (fitsColumns_tagged c).1 (hall c hc)
    obtain hlength | hshows := hfits
    · have hlong : praisingPage.websiteUrl.length = 501 := length_longAddress
      omega
    · exact hshows praisingPage_showsSignal

end EvalEngine.AnalysisClaims
