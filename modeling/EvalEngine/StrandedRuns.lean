import EvalEngine.PipelineMessages

namespace EvalEngine.StrandedRuns

open EvalEngine.RunModel EvalEngine.TaskObjects EvalEngine.PipelineMessages EvalEngine.Transitions
open EvalEngine.Orchestrator (maxRetries)

/-- What can still bring the run to its end. -/
inductive Carrier
  | orchestrator (i : Nat)
  | pipeline (k : Nat)

def alive : Pipeline → Prop
  | .gathering headers broken => headers ≠ [] ∧ broken = false
  | .chaining _ => True
  | .ended => False

def settled : Pipeline → Prop
  | .gathering headers _ => headers = []
  | .chaining _ => False
  | .ended => True

def Carries (s : State) : Carrier → Prop
  | .orchestrator i => ∃ d, s.orchestrator i = some d ∧ d.progress ≠ .dispatched
  | .pipeline k => ∃ p, s.pipeline k = some p ∧ alive p

def Closed (s : State) : Prop := s.status.isTerminal = true

instance (s : State) : Decidable (Closed s) := inferInstanceAs (Decidable (_ = true))

/-- The run does not depend on the carrier `c`. -/
def Spares (s : State) (c : Carrier) : Prop := Closed s ∨ ∃ c', c' ≠ c ∧ Carries s c'

/-- A task fails for good only on a run that does not depend on it. -/
def Spared (s : State) : Action → Prop
  | .orchestratorFails i failRunCommits => failRunCommits = true ∨
      (∃ d, s.orchestrator i = some d ∧ d.retries < maxRetries) ∨ Spares s (.orchestrator i)
  | .headerFails k _ | .stageFails k => Spares s (.pipeline k)
  | _ => True

def Inv (s : State) : Prop := Closed s ∨ ∃ c, Carries s c

/-- No message for the run is left in flight. -/
def Quiescent (s : State) : Prop :=
  (∀ i, s.orchestrator i = none) ∧ ∀ k p, s.pipeline k = some p → settled p

theorem not_carries_of_quiescent {s : State} (h : Quiescent s) (c : Carrier) : ¬ Carries s c := by
  cases c with
  | orchestrator i =>
    rintro ⟨d, hd, _⟩
    rw [h.1 i] at hd
    cases hd
  | pipeline k =>
    rintro ⟨p, hp, halive⟩
    have hsettled := h.2 k p hp
    cases p with
    | gathering headers broken => exact halive.1 hsettled
    | chaining stage => exact hsettled
    | ended => exact halive

theorem closed_close {s : State} {status : RunStatus} (h : status.isTerminal = true) :
    Closed (s.close status) := by
  simp only [Closed, State.close]
  split
  · assumption
  · exact h

/-- Another carrier than the one that a step works on is still one after it. -/
theorem carries_setOrchestrator {s : State} {i : Nat} {d : Option Delivery} {c : Carrier}
    (hne : c ≠ .orchestrator i) (h : Carries s c) : Carries (s.setOrchestrator i d) c := by
  cases c with
  | orchestrator j =>
    have hj : j ≠ i := fun hji => hne (hji ▸ rfl)
    simpa [Carries, State.setOrchestrator, Function.update_of_ne hj] using h
  | pipeline k => exact h

theorem carries_setPipeline {s : State} {k : Nat} {p : Pipeline} {c : Carrier}
    (hne : c ≠ .pipeline k) (h : Carries s c) : Carries (s.setPipeline k p) c := by
  cases c with
  | orchestrator i => exact h
  | pipeline j =>
    have hj : j ≠ k := fun hjk => hne (hjk ▸ rfl)
    simpa [Carries, State.setPipeline, Function.update_of_ne hj] using h

theorem orchestrator_carries (s : State) (i : Nat) {d : Delivery} (h : d.progress ≠ .dispatched) :
    Carries (s.setOrchestrator i (some d)) (.orchestrator i) :=
  ⟨d, by simp [State.setOrchestrator], h⟩

theorem pipeline_carries (s : State) (k : Nat) {p : Pipeline} (h : alive p) :
    Carries (s.setPipeline k p) (.pipeline k) :=
  ⟨p, by simp [State.setPipeline], h⟩

/-- A carrier may be given up when the run does not depend on it. -/
theorem inv_setOrchestrator {s : State} {i : Nat} {d : Option Delivery}
    (h : Spares s (.orchestrator i)) : Inv (s.setOrchestrator i d) := by
  obtain hc | ⟨c, hne, hc⟩ := h
  · exact .inl hc
  · exact .inr ⟨c, carries_setOrchestrator hne hc⟩

theorem inv_setPipeline {s : State} {k : Nat} {p : Pipeline} (h : Spares s (.pipeline k)) :
    Inv (s.setPipeline k p) := by
  obtain hc | ⟨c, hne, hc⟩ := h
  · exact .inl hc
  · exact .inr ⟨c, carries_setPipeline hne hc⟩

/-- What carries nothing is not what the run depends on. -/
theorem Inv.spares {s : State} (h : Inv s) {c : Carrier} (hc : ¬ Carries s c) : Spares s c := by
  obtain hcl | ⟨c', hc'⟩ := h
  · exact .inl hcl
  · exact .inr ⟨c', fun heq => hc (heq ▸ hc'), hc'⟩

theorem alive_headerDone {headers : List Analysis} : alive (headerDone headers false) := by
  simp only [headerDone]
  split
  · trivial
  · rename_i h
    exact ⟨fun hnil => h ⟨hnil, trivial⟩, rfl⟩

theorem inv_prepareRun {s t : State} {i : Nat} (h : step s (.prepareRun i) = some t) : Inv t := by
  simp only [step] at h
  split at h
  · split at h <;> cases h
    exact .inr ⟨_, orchestrator_carries _ i (by simp)⟩
  · cases h

theorem inv_finish {s t : State} {i : Nat} (hinv : Inv s) (h : step s (.finish i) = some t) :
    Inv t := by
  simp only [step] at h
  split at h <;> cases h
  rename_i r hd
  refine inv_setOrchestrator (hinv.spares ?_)
  rintro ⟨d, hd', hne⟩
  rw [hd] at hd'
  cases hd'
  exact hne rfl

theorem inv_orchestratorFails {s t : State} {i : Nat} {failRunCommits : Bool}
    (hok : Spared s (.orchestratorFails i failRunCommits))
    (h : step s (.orchestratorFails i failRunCommits) = some t) : Inv t := by
  simp only [step, Option.map_eq_some_iff] at h
  obtain ⟨d, hd, rfl⟩ := h
  obtain rfl | ⟨d', hd', hr⟩ | hspares := hok
  · exact inv_setOrchestrator (.inl (by simpa using closed_close rfl))
  · rw [hd] at hd'
    cases hd'
    rw [if_pos hr]
    exact .inr ⟨_, orchestrator_carries _ i (by simp)⟩
  · refine inv_setOrchestrator ?_
    cases failRunCommits with
    | false => exact hspares
    | true => exact .inl (by simpa using closed_close rfl)

theorem inv_headerSucceeds {s t : State} {k : Nat} {a : Analysis} (hinv : Inv s)
    (h : step s (.headerSucceeds k a) = some t) : Inv t := by
  simp only [step] at h
  split at h
  · rename_i headers broken hp
    split at h <;> cases h
    cases broken with
    | false => exact .inr ⟨_, pipeline_carries s k alive_headerDone⟩
    | true =>
      -- a broken chord never carried the run
      refine inv_setPipeline (hinv.spares ?_)
      rintro ⟨p, hp', halive⟩
      rw [hp] at hp'
      cases hp'
      cases halive.2
  · cases h

theorem inv_stageSucceeds {s t : State} {k : Nat} (h : step s (.stageSucceeds k) = some t) :
    Inv t := by
  simp only [step] at h
  split at h
  · split at h <;> cases h
    exact .inl (by assumption)
  · rename_i stage hne _
    cases h
    refine .inr ⟨_, pipeline_carries s k ?_⟩
    cases stage with
    | crossCheck | fabricationDetection | llmJudge => trivial
    | finalizeAndNotify => exact absurd rfl hne
  · cases h

theorem inv_start (status : RunStatus) : Inv (start status) :=
  .inr ⟨.orchestrator 0, {}, rfl, by simp⟩

theorem inv_step (s : State) (a : Action) (t : State) (hinv : Inv s) (hok : Spared s a)
    (h : step s a = some t) : Inv t := by
  cases a with
  | prepareRun i => exact inv_prepareRun h
  | skip i =>
    simp only [step] at h
    split at h
    · split at h <;> cases h
      exact .inl (by assumption)
    · cases h
  | publish i k =>
    simp only [step] at h
    split at h <;> cases h
    exact .inr ⟨_, pipeline_carries _ k ⟨by simp [parallelTasks], rfl⟩⟩
  | finish i => exact inv_finish hinv h
  | orchestratorFails i failRunCommits => exact inv_orchestratorFails hok h
  | workerLost i =>
    simp only [step, Option.map_eq_some_iff] at h
    obtain ⟨d, hd, rfl⟩ := h
    exact .inr ⟨_, orchestrator_carries s i (by simp)⟩
  | headerSucceeds k a => exact inv_headerSucceeds hinv h
  | headerFails k a =>
    simp only [step] at h
    split at h
    · split at h <;> cases h
      exact inv_setPipeline hok
    · cases h
  | finalizeCommits k =>
    simp only [step] at h
    split at h <;> cases h
    exact .inl (closed_close rfl)
  | stageSucceeds k => exact inv_stageSucceeds h
  | stageFails k =>
    simp only [step] at h
    split at h <;> cases h
    exact inv_setPipeline hok
  | cancelEvaluationRun =>
    cases h
    exact .inl (closed_close rfl)
  | cleanupStaleRun =>
    cases h
    exact .inl (closed_close rfl)

/-- Whenever no message is left, the run is closed. -/
def NeverStranded (status : RunStatus) (ok : State → Action → Prop) : Prop :=
  ∀ s, Exec step ok (start status) s → Quiescent s → Closed s

theorem neverStranded_of_spared (status : RunStatus) : NeverStranded status Spared := by
  intro s h hq
  have hinv := h.invariant (inv_start status) inv_step
  obtain hc | ⟨c, hc⟩ := hinv
  · exact hc
  · exact absurd hc (not_carries_of_quiescent hq c)

theorem not_spares {s : State} {c : Carrier} (h : ¬ Spares s c) :
    ¬ Closed s ∧ ∀ c', Carries s c' → c' = c := by
  refine ⟨fun hc => h (.inl hc), fun c' hc' => ?_⟩
  by_contra hne
  exact h (.inr ⟨c', hne, hc'⟩)

theorem not_carries_setPipeline {s : State} {k : Nat} {p : Pipeline} (hp : ¬ alive p)
    (h : ∀ c, Carries s c → c = .pipeline k) (c : Carrier) : ¬ Carries (s.setPipeline k p) c := by
  intro hc
  by_cases heq : c = .pipeline k
  · subst heq
    obtain ⟨p', hp', halive⟩ := hc
    obtain rfl : p = p' := by simpa [State.setPipeline] using hp'
    exact hp halive
  · refine heq (h c ?_)
    cases c with
    | orchestrator i => exact hc
    | pipeline j =>
      have hj : j ≠ k := fun hjk => heq (hjk ▸ rfl)
      simpa [Carries, State.setPipeline, Function.update_of_ne hj] using hc

theorem not_carries_setOrchestrator {s : State} {i : Nat}
    (h : ∀ c, Carries s c → c = .orchestrator i) (c : Carrier) :
    ¬ Carries (s.setOrchestrator i none) c := by
  intro hc
  by_cases heq : c = .orchestrator i
  · subst heq
    obtain ⟨d, hd, _⟩ := hc
    simp [State.setOrchestrator] at hd
  · refine heq (h c ?_)
    cases c with
    | orchestrator j =>
      have hj : j ≠ i := fun hji => heq (hji ▸ rfl)
      simpa [Carries, State.setOrchestrator, Function.update_of_ne hj] using hc
    | pipeline k => exact hc

theorem not_alive_headerDone {headers : List Analysis} : ¬ alive (headerDone headers true) := by
  simp [headerDone, alive]

/-- The guard leaves out only failures after which the run is open and nothing
that is left in flight can close it. -/
theorem strands_of_not_spared {s t : State} {a : Action} (hok : ¬ Spared s a)
    (h : step s a = some t) : ¬ Closed t ∧ ∀ c, ¬ Carries t c := by
  cases a with
  | orchestratorFails i failRunCommits =>
    simp only [Spared, not_or, not_exists] at hok
    obtain ⟨hfail, hretry, hspares⟩ := hok
    obtain ⟨hopen, honly⟩ := not_spares hspares
    simp only [step, Option.map_eq_some_iff] at h
    obtain ⟨d, hd, rfl⟩ := h
    rw [if_neg (fun hr => hretry d ⟨hd, hr⟩), if_neg hfail]
    exact ⟨hopen, not_carries_setOrchestrator honly⟩
  | headerFails k a =>
    obtain ⟨hopen, honly⟩ := not_spares hok
    simp only [step] at h
    split at h
    · split at h <;> cases h
      exact ⟨hopen, not_carries_setPipeline not_alive_headerDone honly⟩
    · cases h
  | stageFails k =>
    obtain ⟨hopen, honly⟩ := not_spares hok
    simp only [step] at h
    split at h <;> cases h
    exact ⟨hopen, not_carries_setPipeline id honly⟩
  | prepareRun _ | skip _ | publish _ _ | finish _ | workerLost _ | headerSucceeds _ _
    | finalizeCommits _ | stageSucceeds _ | cancelEvaluationRun | cleanupStaleRun =>
    exact absurd trivial hok

/-- The orchestrator is lost and delivered again, so that a second pipeline is published. -/
def publishedTwice : List Action :=
  [.prepareRun 0, .publish 0 0, .workerLost 0, .prepareRun 0, .publish 0 1, .finish 0]

/-- What is left of the first pipeline, and the whole second one. -/
def bothEnd : List Action :=
  [.headerSucceeds 0 .analyzePitchDeck, .headerSucceeds 0 .analyzeVideo, .headerSucceeds 0 .verifyWeb,
    .headerSucceeds 1 .analyzeGithub, .headerSucceeds 1 .analyzePitchDeck,
    .headerSucceeds 1 .analyzeVideo, .headerSucceeds 1 .verifyWeb, .stageSucceeds 1, .stageSucceeds 1,
    .stageSucceeds 1, .finalizeCommits 1, .stageSucceeds 1]

/-- An analysis of the first pipeline fails for good, and the second pipeline closes the run. -/
def closedLate : State :=
  (runList step (start .pending) (publishedTwice ++ .headerFails 0 .analyzeGithub :: bothEnd)).get rfl

theorem second_pipeline_closes : closedLate.pipeline 0 = some (.gathering [] true) ∧
    Quiescent closedLate ∧ Closed closedLate := by
  have hpublished := (@Exec.refl _ _ step Spared (start .pending)).along
    (by simp [publishedTwice, Spared] : ∀ a ∈ publishedTwice, ∀ s, Spared s a) rfl
  have hfailed := hpublished.tail (a := Action.headerFails 0 .analyzeGithub)
    (.inr ⟨.pipeline 1, by simp, _, rfl, by decide, rfl⟩) rfl
  have hended : Exec step Spared (start .pending) closedLate :=
    hfailed.along (by simp [bothEnd, Spared] : ∀ a ∈ bothEnd, ∀ s, Spared s a) rfl
  have hquiescent : Quiescent closedLate := by
    constructor
    · intro i
      cases i <;> rfl
    · rintro (_ | _ | k) p ⟨⟩
      · rfl
      · trivial
  exact ⟨rfl, hquiescent, neverStranded_of_spared .pending closedLate hended hquiescent⟩

/-- The GitHub analysis fails for good; its three siblings succeed. -/
def brokenHeader : List Action :=
  [.prepareRun 0, .publish 0 0, .finish 0, .headerFails 0 .analyzeGithub,
    .headerSucceeds 0 .analyzePitchDeck, .headerSucceeds 0 .analyzeVideo, .headerSucceeds 0 .verifyWeb]

theorem broken_header_strands : ¬ NeverStranded .pending free := by
  intro h
  have hs := exec_get step (start .pending) brokenHeader rfl
  refine absurd (h _ hs ⟨fun i => ?_, fun k p hp => ?_⟩) (by decide)
  · cases i <;> rfl
  · cases k with
    | zero => cases hp; rfl
    | succ k => cases hp

end EvalEngine.StrandedRuns
