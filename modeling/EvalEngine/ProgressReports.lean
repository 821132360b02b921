import EvalEngine.TaskReports
import EvalEngine.Transitions

namespace EvalEngine.ProgressReports

open EvalEngine.ScaledProgress EvalEngine.TaskReports EvalEngine.Transitions

def workerTypes : List String :=
  ["github_analysis", "pitch_deck", "video_analysis", "web_verification", "cross_check",
    "fabrication_detection", "llm_judge", "finalize"]

/-- The progress hashes of a run within their hour, the executions under way with
the reports that they have still to make, and the tasks that have returned. -/
structure State where
  progress : String → Option ℤ := fun _ => none
  running : ℕ → Option (Execution × List ℤ) := fun _ => none
  returned : List String := []

/-- `get_run_progress`, of what Redis holds. -/
def getRunProgress (progress : String → Option ℤ) : ℤ × List (String × ℤ) :=
  let workers := workerTypes.map fun workerType => (workerType, (progress workerType).getD 0)
  ((workers.map Prod.snd).sum / workerTypes.length, workers)

def State.overallProgress (s : State) : ℤ := (getRunProgress s.progress).1

inductive Action
  | start (id : ℕ) (e : Execution)
  | report (id : ℕ) (stored : Bool)
  | finish (id : ℕ)
  | abandon (id : ℕ)

/-- `update_progress` is best effort: a report that Redis does not take is lost. -/
def step (fl : FloatRounding) (s : State) : Action → Option State
  | .start id e =>
    match s.running id with
    | none => some { s with running := Function.update s.running id (some (e, e.reports fl)) }
    | some _ => none
  | .report id stored =>
    match s.running id with
    | some (e, x :: rest) =>
      some { s with
        progress := if stored then Function.update s.progress e.workerType (some x) else s.progress
        running := Function.update s.running id (some (e, rest)) }
    | _ => none
  | .finish id =>
    match s.running id with
    | some (e, []) =>
      some { s with
        running := Function.update s.running id none
        returned := e.workerType :: s.returned }
    | _ => none
  | .abandon id => some { s with running := Function.update s.running id none }

def State.AllReturned (s : State) : Prop := ∀ workerType ∈ workerTypes, workerType ∈ s.returned

/-- What the overall progress says about the tasks of the run. -/
structure State.Honest (s : State) : Prop where
  bounded : 0 ≤ s.overallProgress ∧ s.overallProgress ≤ 100
  complete : s.AllReturned → s.overallProgress = 100
  incomplete : ¬ s.AllReturned → s.overallProgress < 100

/-- The reports that are stored and those that are still to come are within the ceilings. -/
structure Inv (s : State) : Prop where
  stored : ∀ workerType, ∀ x ∈ s.progress workerType, 0 ≤ x ∧ x ≤ ceiling workerType
  pending : ∀ id e l, s.running id = some (e, l) → ∀ x ∈ l, 0 ≤ x ∧ x ≤ ceiling e.workerType

variable {fl : FloatRounding} {s t : State}

theorem inv_start : Inv {} := by
  refine ⟨?_, ?_⟩
  · rintro workerType x ⟨⟩
  · rintro id e l ⟨⟩

/-- An execution that starts or goes on keeps within its ceiling what it has left to report. -/
theorem Inv.pending_update (hinv : Inv s) {id : ℕ} {p : Option (Execution × List ℤ)}
    (hp : ∀ e l, p = some (e, l) → ∀ x ∈ l, 0 ≤ x ∧ x ≤ ceiling e.workerType) (i : ℕ)
    (e : Execution) (l : List ℤ) (h : Function.update s.running id p i = some (e, l)) :
    ∀ x ∈ l, 0 ≤ x ∧ x ≤ ceiling e.workerType := by
  obtain ⟨_, hnew⟩ | hold := entry_update h
  · exact hp e l hnew
  · exact hinv.pending i e l hold

theorem inv_report {id : ℕ} {stored : Bool} (hinv : Inv s)
    (h : step fl s (.report id stored) = some t) : Inv t := by
  simp only [step] at h
  split at h
  next e x rest hrunning =>
    cases h
    have hpending := hinv.pending id e (x :: rest) hrunning
    refine ⟨?_, hinv.pending_update ?_⟩
    · intro workerType y hy
      cases stored with
      | false => exact hinv.stored workerType y hy
      | true =>
        obtain ⟨rfl, hnew⟩ | hold := entry_update (Option.mem_def.1 hy)
        · cases hnew
          exact hpending x List.mem_cons_self
        · exact hinv.stored workerType y hold
    · rintro e' l ⟨⟩
      exact fun y hy => hpending y (List.mem_cons_of_mem _ hy)
  next => cases h

theorem inv_step (s : State) (a : Action) (t : State) (hinv : Inv s) (_ : free s a)
    (h : step fl s a = some t) : Inv t := by
  cases a with
  | start id e =>
    simp only [step] at h
    split at h <;> cases h
    refine ⟨hinv.stored, hinv.pending_update ?_⟩
    rintro e' l ⟨⟩
    exact (climbs_reports e).mem
  | report id stored => exact inv_report hinv h
  | finish id =>
    simp only [step] at h
    split at h
    next e hrunning =>
      cases h
      exact ⟨hinv.stored, hinv.pending_update (by rintro e' l ⟨⟩)⟩
    next => cases h
  | abandon id =>
    cases h
    exact ⟨hinv.stored, hinv.pending_update (by rintro e' l ⟨⟩)⟩

theorem Inv.getD_mem (h : Inv s) {workerType : String} {top : ℤ} (htop : ceiling workerType = top)
    (hnonneg : 0 ≤ top) :
    0 ≤ (s.progress workerType).getD 0 ∧ (s.progress workerType).getD 0 ≤ top := by
  subst htop
  cases hp : s.progress workerType with
  | none => exact ⟨le_refl 0, hnonneg⟩
  | some x => exact h.stored workerType x hp

/-- Four ceilings of 100 and the lower ones of the later stages leave 96 of 100. -/
theorem overallProgress_mem (h : Inv s) : 0 ≤ s.overallProgress ∧ s.overallProgress ≤ 96 := by
  have hgithub := @Inv.getD_mem s h "github_analysis" 100 (by decide) (by decide)
  have hpitch := @Inv.getD_mem s h "pitch_deck" 100 (by decide) (by decide)
  have hvideo := @Inv.getD_mem s h "video_analysis" 100 (by decide) (by decide)
  have hweb := @Inv.getD_mem s h "web_verification" 100 (by decide) (by decide)
  have hcross := @Inv.getD_mem s h "cross_check" 90 (by decide) (by decide)
  have hfabrication := @Inv.getD_mem s h "fabrication_detection" 95 (by decide) (by decide)
  have hjudge := @Inv.getD_mem s h "llm_judge" 90 (by decide) (by decide)
  have hfinalize := @Inv.getD_mem s h "finalize" 95 (by decide) (by decide)
  simp only [State.overallProgress, getRunProgress, workerTypes, List.map_cons, List.map_nil,
    List.sum_cons, List.sum_nil, List.length_cons, List.length_nil]
  omega

theorem progress_incomplete (h : Exec (step fl) free {} s) (hall : s.AllReturned) :
    ¬ s.Honest := by
  intro hhonest
  have hle := (overallProgress_mem (h.invariant inv_start inv_step)).2
  rw [hhonest.complete hall] at hle
  norm_num at hle

def store (e : Execution) (progress : String → Option ℤ) (x : ℤ) : String → Option ℤ :=
  Function.update progress e.workerType (some x)

/-- The state after an execution that nothing disturbs. -/
def State.complete (fl : FloatRounding) (s : State) (e : Execution) : State :=
  { s with
    progress := (e.reports fl).foldl (store e) s.progress
    returned := e.workerType :: s.returned }

theorem exec_reports {id : ℕ} {e : Execution} {l : List ℤ} (h : s.running id = some (e, l)) :
    Exec (step fl) free s { s with
      progress := l.foldl (store e) s.progress
      running := Function.update s.running id (some (e, [])) } := by
  induction l generalizing s with
  | nil =>
    rw [← h, Function.update_eq_self]
    exact Exec.refl s
  | cons x l ih =>
    have hstep : step fl s (.report id true) = some { s with
        progress := store e s.progress x
        running := Function.update s.running id (some (e, l)) } := by
      simp [step, h, store]
    have hrest := ih (s := { s with
      progress := store e s.progress x
      running := Function.update s.running id (some (e, l)) }) (Function.update_self _ _ _)
    simp only [Function.update_idem] at hrest
    exact (Exec.single trivial hstep).trans hrest

theorem exec_complete {id : ℕ} (h : s.running id = none) (e : Execution) :
    Exec (step fl) free s (s.complete fl e) := by
  have hstart : step fl s (.start id e) =
      some { s with running := Function.update s.running id (some (e, e.reports fl)) } := by
    simp [step, h]
  have hreports := @exec_reports fl
    { s with running := Function.update s.running id (some (e, e.reports fl)) } id e _
    (Function.update_self id _ s.running)
  simp only [Function.update_idem] at hreports
  have hidle : Function.update s.running id none = s.running := by
    rw [← h, Function.update_eq_self]
  refine ((Exec.single trivial hstart).trans hreports).tail (a := .finish id) trivial ?_
  simp [step, State.complete, hidle]

/-- Any executions, one after the other, make a run. -/
theorem exec_completions (es : List Execution) (h : s.running 0 = none) :
    Exec (step fl) free s (es.foldl (State.complete fl) s) := by
  induction es generalizing s with
  | nil => exact Exec.refl s
  | cons e es ih => exact (exec_complete h e).trans (ih h)

section Sample

def exactFloats : FloatRounding := ⟨id, monotone_id, fun _ _ => rfl⟩

/-- A submission without links: the analyses are skipped, there are no claims to
compare, and the judge and the finalizer do their work. -/
def skippedAnalyses : List Execution :=
  [.githubAnalysis false { githubUrl := "" }, .pitchDeck false { pitchDeckUrl := "" },
    .videoAnalysis false { videoUrl := "" }, .webVerification false { websiteUrl := "" },
    .crossCheck [], .fabrication [],
    .llmJudge ⟨.ok (.null, {}), .ok (.null, {}), []⟩, .finalize false false]

def skippedRun : State := skippedAnalyses.foldl (State.complete exactFloats) {}

theorem skippedRun_allReturned : skippedRun.AllReturned := by
  intro workerType h
  simp only [workerTypes, List.mem_cons, List.not_mem_nil, or_false] at h
  obtain rfl | rfl | rfl | rfl | rfl | rfl | rfl | rfl := h <;>
    simp [skippedRun, skippedAnalyses, State.complete, Execution.workerType]

/-- All eight tasks have returned, and the run is said to be at 75 of 100. -/
theorem progress_incomplete_skipped : Exec (step exactFloats) free {} skippedRun ∧
    skippedRun.AllReturned ∧ ¬ skippedRun.Honest :=
  ⟨exec_completions skippedAnalyses rfl, skippedRun_allReturned,
    progress_incomplete (exec_completions skippedAnalyses rfl) skippedRun_allReturned⟩

theorem progress_incomplete_at_75 : ¬ ∀ (fl : FloatRounding) (s : State),
    Exec (step fl) free {} s → s.AllReturned → s.overallProgress = 100 := by
  intro h
  have hall := h exactFloats skippedRun (exec_completions skippedAnalyses rfl) skippedRun_allReturned
  have hvalue : skippedRun.overallProgress = 75 := by decide +kernel
  rw [hvalue] at hall
  norm_num at hall

end Sample

end EvalEngine.ProgressReports
