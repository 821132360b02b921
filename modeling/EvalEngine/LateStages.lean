import EvalEngine.StageContracts
import EvalEngine.StageRedelivery
import EvalEngine.WorkerCounters

namespace EvalEngine.LateStages

open EvalEngine.JsonValues EvalEngine.Exceptions EvalEngine.RunModel EvalEngine.Transitions
open EvalEngine.KeyedRows EvalEngine.StageTables EvalEngine.StageContracts
open EvalEngine.TaskObjects (Analysis)
open EvalEngine.PipelineDispatch (written SameRow written_sameRow)
open EvalEngine.RunLifecycle (raceRequest)
open EvalEngine.RunWriters (TriggerRequest Writer)
open EvalEngine.WorkerCounters (Tally tally total marks)
open EvalEngine.CrossCheck (Finding crossCheck)
open EvalEngine.Fabrication (Risk riskOf flagged verdict riskEvidence flagClaim inRun)
open EvalEngine.LlmJudge (Answers runLlmJudge dimensionWeights)

/-- The stages behind the four analyses. -/
inductive Stage
  | crossCheck (parallelResults : List Json)
  | detectFabrication
  | runLlmJudge
  | finalize

/-- Where an execution of a stage stands between its transactions.
`_detect_fabrication` has one for each claim that it flags. -/
inductive Phase
  | crossChecking (parallelResults : List Json)
  | flagging (claims : List Claim)
  | judging
  | scored
  | counted (tallies : Analysis → Tally)
  | finalizing (version : Nat) (tallies : Analysis → Tally)

structure Execution where
  late : Bool
  phase : Phase

/-- The run with its analyses, the rows of the stages, and the executions of
the stages. What was started after a terminal status of the run had been committed is late. -/
structure State where
  workers : WorkerCounters.State
  store : Store
  closed : Bool := false
  late : Analysis → Nat → Bool := fun _ _ => false
  execution : Nat → Option Execution := fun _ => none

def State.run (s : State) : EvaluationRun := s.workers.run

/-- The tables as a stage finds them. -/
def State.db (s : State) : Store := { s.store with runs := [s.run] }

def start (req : TriggerRequest) (runId : UUID) (now : Time) (store : Store) : State where
  workers := WorkerCounters.start req runId now
  store

def State.goto (s : State) (i : Nat) (e : Option Execution) : State :=
  { s with execution := Function.update s.execution i e }

def State.rewrite (s : State) (run : EvaluationRun) : State :=
  { s with workers := { s.workers with run := run } }

/-- What a stage reads when it starts; a finalizer stops at a terminal run. -/
def State.begin (s : State) : Stage → Option Phase
  | .crossCheck parallelResults => some (.crossChecking parallelResults)
  | .detectFabrication => some (.flagging (s.store.claims.filter (inRun s.run.id)))
  | .runLlmJudge => some .judging
  | .finalize => if s.run.isTerminal then none else some .scored

def lateAfter (s : State) : WorkerCounters.Action → Analysis → Nat → Bool
  | .attempt a (.start i _) => Function.update s.late a (Function.update (s.late a) i s.closed)
  | _ => s.late

inductive Action
  | worker (act : WorkerCounters.Action)
  | start (i : Nat) (stage : Stage)
  | crossCheck (i : Nat)
  | flag (i : Nat) (now : Time)
  | judge (i : Nat) (answers : Answers)
  | countWorkers (i : Nat)
  | reread (i : Nat)
  | finalize (i : Nat) (finalScore : ℚ) (now : Time)
  | stop (i : Nat)

/-- The finalizers are executions of a stage here. -/
def ofFinalizer : WorkerCounters.Action → Bool
  | .countWorkers _ | .finalize _ _ _ _ => true
  | _ => false

/-- The end of a transaction that raises leaves the rows alone. -/
def State.store? (s : State) (r : Except PyException Store) : State :=
  match r with
  | .ok db => { s with store := db }
  | .error _ => s

def Execution.after {α : Type} (e : Execution) : Except PyException α → Option Execution
  | .ok _ => some e
  | .error _ => none

variable (detect : String → String → Option Finding) (assess : String → String → ℚ → Risk)

def move (s : State) : Action → Option State
  | .worker act =>
    if ofFinalizer act then none
    else (WorkerCounters.step s.workers act).map fun w =>
      { s with workers := w, late := lateAfter s act }
  | .start i stage =>
    match s.workers.published, s.execution i with
    | true, none => some (s.goto i ((s.begin stage).map fun phase => ⟨s.closed, phase⟩))
    | _, _ => none
  | .crossCheck i =>
    match s.execution i with
    | some ⟨_, .crossChecking results⟩ =>
      some ((s.store? ((CrossCheck.crossCheck detect s.db s.run.id results).map Prod.fst)).goto i none)
    | _ => none
  | .flag i now =>
    match s.execution i with
    | some ⟨late, .flagging (c :: claims)⟩ =>
      let r := flagClaim assess (fun _ => now) s.store c
      some ((s.store? r).goto i (Execution.after ⟨late, .flagging claims⟩ r))
    | _ => none
  | .judge i answers =>
    match s.execution i with
    | some ⟨_, .judging⟩ =>
      some ((s.store? ((LlmJudge.runLlmJudge s.db s.run.id answers).map Prod.fst)).goto i none)
    | _ => none
  | .countWorkers i =>
    match s.execution i with
    | some ⟨late, .scored⟩ =>
      some (s.goto i (some ⟨late, .counted fun a => tally (s.workers.task a).rows⟩))
    | _ => none
  | .reread i =>
    match s.execution i with
    | some ⟨late, .counted tallies⟩ =>
      some (s.goto i (if s.run.isTerminal then none else some ⟨late, .finalizing s.run.version tallies⟩))
    | _ => none
  | .finalize i finalScore now =>
    match s.execution i with
    | some ⟨_, .finalizing version tallies⟩ =>
      let w := Writer.finalize finalScore (total fun a => (tallies a).completed)
        (total fun a => (tallies a).failed) now
      some ((s.rewrite (written s.run.id version w s.run)).goto i none)
    | _ => none
  | .stop i => some (s.goto i none)

/-- A terminal status counts from its commit on. -/
def State.note (s : State) : State := { s with closed := s.closed || s.run.isTerminal }

def step (s : State) (a : Action) : Option State := (move detect assess s a).map State.note

/-- The invocation that takes a step of a task. -/
def invocation : BaseEvalTask.Action → Nat
  | .start i _ | .checkIdempotent i | .createRead i | .createWrite i | .execute i _ | .markCompleted i
  | .finish i | .fault i _ | .markFailed i | .markFailedError i | .crash i => i

/-- The step belongs to a stage that has been started late. -/
def isLate (s : State) : Action → Bool
  | .worker (.attempt _ (.start _ _)) | .start _ _ => s.closed
  | .worker (.attempt a act) => s.late a (invocation act)
  | .worker _ => false
  | .crossCheck i | .flag i _ | .judge i _ | .countWorkers i | .reread i | .finalize i _ _ | .stop i =>
    (s.execution i).any Execution.late

def statuses (runId : UUID) (claims : List Claim) : List (UUID × String) :=
  (claims.filter fun c => decide (c.evaluationRunId = runId)).map fun c => (c.id, c.verificationStatus)

/-- No row is inserted for the run, no status changed and no worker counted. -/
structure SameRecords (s t : State) : Prop where
  claims : statuses s.run.id t.store.claims = statuses s.run.id s.store.claims
  contradictions : (t.store.contradictions.filter fun c => decide (c.evaluationRunId = s.run.id)) =
    s.store.contradictions.filter fun c => decide (c.evaluationRunId = s.run.id)
  scores : (t.store.scores.filter fun score => decide (score.evaluationRunId = s.run.id)) =
    s.store.scores.filter fun score => decide (score.evaluationRunId = s.run.id)
  completedWorkers : t.run.completedWorkers = s.run.completedWorkers
  failedWorkers : t.run.failedWorkers = s.run.failedWorkers

def NoWriteAfterEnd (req : TriggerRequest) (runId : UUID) (now : Time) (store : Store)
    (ok : State → Action → Prop) : Prop :=
  ∀ s a t, Exec (step detect assess) ok (start req runId now store) s → ok s a →
    step detect assess s a = some t → isLate s a = true → SameRecords s t

/-- A loop that nobody interrupts flags what `_detect_fabrication` flags. -/
theorem exec_flagging {s : State} {i : Nat} {late : Bool} {clock : UUID → Time} {claims : List Claim}
    {db : Store}
    (hi : s.execution i = some ⟨late, .flagging claims⟩)
    (h : claims.foldlM (flagClaim assess clock) s.store = .ok db) :
    ∃ t, Exec (step detect assess) free s t ∧ t.store = db := by
  induction claims generalizing s with
  | nil =>
    cases h
    exact ⟨s, Exec.refl s, rfl⟩
  | cons c claims ih =>
    simp only [List.foldlM_cons, bind_eq_ok] at h
    obtain ⟨db₁, hr, hrest⟩ := h
    have hr' : flagClaim assess (fun _ => clock c.id) s.store c = .ok db₁ := hr
    have hstep : step detect assess s (.flag i (clock c.id)) =
        some ((s.store? (.ok db₁)).goto i (some ⟨late, .flagging claims⟩)).note := by
      simp only [step, move, hi, hr']
      rfl
    obtain ⟨t, hexec, ht⟩ := ih (s := ((s.store? (.ok db₁)).goto i (some ⟨late, .flagging claims⟩)).note)
      (by simp [State.note, State.goto]) hrest
    exact ⟨t, (Exec.single trivial hstep).trans hexec, ht⟩

theorem detectFabrication_alone {s : State} {i : Nat} {clock : UUID → Time} {result out : Dict}
    {db : Store}
    (hpublished : s.workers.published = true) (hi : s.execution i = none)
    (h : Fabrication.detectFabrication assess clock s.store s.run.id result = .ok (db, out)) :
    ∃ t, Exec (step detect assess) free s t ∧ t.store = db := by
  obtain ⟨out', heq⟩ := StageRedelivery.detectFabrication_eq assess clock s.store s.run.id result
  rw [heq] at h
  obtain ⟨db', hloop, hresult⟩ := map_eq_ok.1 h
  cases hresult
  let e : Execution := ⟨s.closed, .flagging (s.store.claims.filter (inRun s.run.id))⟩
  have hstart : step detect assess s (.start i .detectFabrication) = some (s.goto i (some e)).note := by
    simp only [step, move, hpublished, hi]
    rfl
  have hflagging : (s.goto i (some e)).note.execution i = some e := by
    simp [State.note, State.goto]
  obtain ⟨t, hexec, ht⟩ := exec_flagging detect assess hflagging hloop
  exact ⟨t, (Exec.single trivial hstart).trans hexec, ht⟩

/-- A loop over these claims finds each verdict that it comes to already set. -/
def Settled (rows : List Claim) : List Claim → Prop
  | [] => True
  | c :: claims =>
    if flagged assess c then
      dictStorable (riskEvidence assess c) = true →
        (∀ row ∈ rows, row.id = c.id → row.verificationStatus = verdict assess c) ∧ Settled rows claims
    else Settled rows claims

/-- The execution has nothing to write any more. -/
def QuietPhase (s : State) : Phase → Prop
  | .crossChecking results => ¬ Storable detect s.run results
  | .flagging claims => Settled assess s.store.claims claims
  | .judging => ∃ dimension ∈ dimensionWeights, s.store.scored s.run.id dimension.1 = true
  | .scored | .counted _ | .finalizing _ _ => True

/-- No analysis is started late, and no stage that still has something to write;
a late finalizer that finds the run open again counts what the run already says. -/
def Quiet (s : State) : Action → Prop
  | .worker (.attempt _ (.start _ _)) => s.closed = false
  | .start _ stage => s.closed = true → ∀ phase, s.begin stage = some phase →
      QuietPhase detect assess s phase
  | .finalize i _ _ => ∀ version tallies, s.execution i = some ⟨true, .finalizing version tallies⟩ →
      matchesVersion version s.run = true →
        (total fun a => (tallies a).completed) = s.run.completedWorkers ∧
          (total fun a => (tallies a).failed) = s.run.failedWorkers
  | _ => True

/-- What the stages may do to the rows that an execution has read. -/
structure Evolves (db db' : Store) : Prop where
  nextId : db.nextId ≤ db'.nextId
  claims : ∀ row' ∈ db'.claims, db.nextId ≤ row'.id ∨ ∃ row ∈ db.claims, row.id = row'.id ∧
    riskOf assess row' = riskOf assess row ∧
    (row'.verificationStatus = row.verificationStatus ∨ row'.verificationStatus = verdict assess row')
  scored : ∀ runId dimension, db.scored runId dimension = true → db'.scored runId dimension = true

variable {detect} {assess} {clock : UUID → Time}

theorem evolves_refl (db : Store) : Evolves assess db db :=
  ⟨Nat.le_refl _, fun row hrow => .inr ⟨row, hrow, rfl, rfl, .inl rfl⟩, fun _ _ h => h⟩

theorem verdict_congr {c c' : Claim} (h : riskOf assess c = riskOf assess c') :
    verdict assess c = verdict assess c' := by
  simp only [verdict, h]

theorem evolves_crossCheck {db db' : Store} {runId : UUID} {results : List Json} {out : Dict}
    (h : CrossCheck.crossCheck detect db runId results = .ok (db', out)) : Evolves assess db db' := by
  obtain rfl | ⟨run, _, _, hchecked⟩ := crossCheck_cases h
  · exact evolves_refl db'
  · obtain ⟨stored, _, hclaims, hstored, _⟩ := hchecked.claims
    refine ⟨hchecked.nextId, ?_, ?_⟩
    · intro row hrow
      rw [hclaims] at hrow
      obtain hold | hnew := List.mem_append.1 hrow
      · exact .inr ⟨row, hold, rfl, rfl, .inl rfl⟩
      · exact .inl (hstored row hnew).2.2.2
    · intro runId dimension hscored
      simpa only [Store.scored, hchecked.scores] using hscored

theorem evolves_flag {db db' : Store} {c : Claim}
    (hknown : ∀ row ∈ db.claims, row.id = c.id → riskOf assess row = riskOf assess c)
    (h : flagClaim assess clock db c = .ok db') : Evolves assess db db' := by
  obtain ⟨rfl, _⟩ | ⟨_, _, hclaims, hnext, _, hscores, _⟩ := flagClaim_cases h
  · exact evolves_refl db'
  · refine ⟨hnext ▸ Nat.le_refl _, ?_, ?_⟩
    · intro row' hrow'
      rw [hclaims] at hrow'
      obtain ⟨row, hrow, rfl⟩ := List.mem_map.1 hrow'
      refine .inr ⟨row, hrow, ?_⟩
      split
      next hid =>
        have hverdict : verdict assess c = verdict assess row := verdict_congr (hknown row hrow hid).symm
        exact ⟨rfl, rfl, .inr hverdict⟩
      next => exact ⟨rfl, rfl, .inl rfl⟩
    · intro runId dimension hscored
      simpa only [Store.scored, hscores] using hscored

theorem evolves_judge {db db' : Store} {runId : UUID} {answers : Answers} {out : Dict}
    (h : LlmJudge.runLlmJudge db runId answers = .ok (db', out)) : Evolves assess db db' := by
  obtain ⟨run, _, hjudged⟩ := runLlmJudge_ok h
  refine ⟨hjudged.nextId ▸ Nat.le_refl _, ?_, ?_⟩
  · intro row hrow
    rw [hjudged.claims] at hrow
    exact .inr ⟨row, hrow, rfl, rfl, .inl rfl⟩
  · intro runId dimension hscored
    obtain ⟨added, hscores, _⟩ := hjudged.scores
    simp only [Store.scored, hscores, List.any_append, Bool.or_eq_true] at hscored ⊢
    exact .inl hscored

theorem settled_tail {db db' : Store} {rows claims : List Claim} {c : Claim}
    (h : Settled assess rows (c :: claims)) (hr : flagClaim assess clock db c = .ok db') :
    Settled assess rows claims := by
  simp only [Settled] at h
  obtain ⟨_, hnot⟩ | ⟨hflagged, hstorable, _⟩ := flagClaim_cases hr
  · simpa [hnot] using h
  · rw [if_pos hflagged] at h
    exact (h hstorable).2

/-- A claim that an execution has read, against the rows as they are now. -/
def Known (assess : String → String → ℚ → Risk) (db : Store) (c : Claim) : Prop :=
  c.id < db.nextId ∧ ∀ row ∈ db.claims, row.id = c.id → riskOf assess row = riskOf assess c

theorem known_evolves {db db' : Store} {c : Claim} (h : Evolves assess db db')
    (hknown : Known assess db c) : Known assess db' c := by
  refine ⟨Nat.lt_of_lt_of_le hknown.1 h.nextId, fun row' hrow' hid => ?_⟩
  obtain hnew | ⟨row, hrow, hrowId, hrisk, _⟩ := h.claims row' hrow'
  · exact absurd (hid ▸ hnew) (Nat.not_le_of_lt hknown.1)
  · exact hrisk.trans (hknown.2 row hrow (hrowId.trans hid))

theorem settled_evolves {db db' : Store} {claims : List Claim} (h : Evolves assess db db')
    (hknown : ∀ c ∈ claims, Known assess db c) (hsettled : Settled assess db.claims claims) :
    Settled assess db'.claims claims := by
  induction claims with
  | nil => trivial
  | cons c claims ih =>
    have hrest := fun hs => ih (fun c' hc' => hknown c' (by simp [hc'])) hs
    simp only [Settled] at hsettled ⊢
    split at hsettled
    next hflagged =>
      rw [if_pos hflagged]
      intro hstorable
      obtain ⟨hset, hclaims⟩ := hsettled hstorable
      refine ⟨fun row' hrow' hid => ?_, hrest hclaims⟩
      have hrisk := (known_evolves h (hknown c (by simp))).2 row' hrow' hid
      obtain hnew | ⟨row, hrow, hrowId, _, hsame | hverdict⟩ := h.claims row' hrow'
      · exact absurd (hid ▸ hnew) (Nat.not_le_of_lt (hknown c (by simp)).1)
      · exact hsame.trans (hset row hrow (hrowId.trans hid))
      · exact hverdict.trans (verdict_congr hrisk)
    next hnot =>
      rw [if_neg hnot]
      exact hrest hsettled

theorem evolves_db {s : State} {db : Store} (h : Evolves assess s.db db) : Evolves assess s.store db :=
  ⟨h.nextId, h.claims, h.scored⟩

structure Moves (assess : String → String → ℚ → Risk) (s t : State) : Prop where
  row : SameRow s.run t.run
  store : Evolves assess s.store t.store

structure Inv (detect : String → String → Option Finding) (assess : String → String → ℚ → Risk)
    (s : State) : Prop where
  attempts : ∀ a i, s.late a i = false
  known : ∀ i late claims, s.execution i = some ⟨late, .flagging claims⟩ →
    ∀ c ∈ claims, Known assess s.store c
  quiet : ∀ i phase, s.execution i = some ⟨true, phase⟩ → QuietPhase detect assess s phase

theorem storable_congr {run run' : EvaluationRun} (h : SameRow run run') {results : List Json} :
    Storable detect run' results ↔ Storable detect run results := by
  have hnew : CrossCheck.newClaim run' = CrossCheck.newClaim run := by
    funext data
    simp only [CrossCheck.newClaim, h.id, h.submissionId, h.organizationId]
  simp only [Storable, unsavedClaims, hnew]

variable {s t : State}

theorem inv_moves (hinv : Inv detect assess s) (hmoves : Moves assess s t) (hlate : t.late = s.late)
    (hexecution : t.execution = s.execution) : Inv detect assess t := by
  refine ⟨?_, ?_, ?_⟩
  · rw [hlate]
    exact hinv.attempts
  · intro i late claims hi c hc
    rw [hexecution] at hi
    exact known_evolves hmoves.store (hinv.known i late claims hi c hc)
  · intro i phase hi
    rw [hexecution] at hi
    have hquiet := hinv.quiet i phase hi
    cases phase with
    | crossChecking results =>
      exact fun hstorable => hquiet ((storable_congr hmoves.row).1 hstorable)
    | flagging claims => exact settled_evolves hmoves.store (hinv.known i true claims hi) hquiet
    | judging =>
      obtain ⟨dimension, hdimension, hscored⟩ := hquiet
      refine ⟨dimension, hdimension, ?_⟩
      rw [hmoves.row.id]
      exact hmoves.store.scored _ _ hscored
    | scored | counted tallies | finalizing version tallies => trivial

theorem inv_goto {i : Nat} {e : Option Execution} (hinv : Inv detect assess s)
    (hknown : ∀ late claims, e = some ⟨late, .flagging claims⟩ → ∀ c ∈ claims, Known assess s.store c)
    (hquiet : ∀ phase, e = some ⟨true, phase⟩ → QuietPhase detect assess s phase) :
    Inv detect assess (s.goto i e) := by
  refine ⟨hinv.attempts, ?_, ?_⟩
  · intro j late claims hj
    obtain ⟨_, hnew⟩ | hold := entry_update hj
    · exact hknown late claims hnew
    · exact hinv.known j late claims hold
  · intro j phase hj
    obtain ⟨_, hnew⟩ | hold := entry_update hj
    · exact hquiet phase hnew
    · exact hinv.quiet j phase hold

theorem inv_stop {i : Nat} (hinv : Inv detect assess s) : Inv detect assess (s.goto i none) :=
  inv_goto hinv (by rintro _ _ ⟨⟩) (by rintro _ ⟨⟩)

theorem inv_note (hinv : Inv detect assess s) : Inv detect assess s.note :=
  inv_moves hinv ⟨SameRow.refl s.run, evolves_refl s.store⟩ rfl rfl

theorem moves_store {r : Except PyException Store}
    (h : ∀ db, r = .ok db → Evolves assess s.store db) : Moves assess s (s.store? r) := by
  cases r with
  | ok db => exact ⟨SameRow.refl s.run, h db rfl⟩
  | error e => exact ⟨SameRow.refl s.run, evolves_refl s.store⟩

theorem inv_store {r : Except PyException Store} (hinv : Inv detect assess s)
    (h : ∀ db, r = .ok db → Evolves assess s.store db) : Inv detect assess (s.store? r) := by
  apply inv_moves hinv (moves_store h)
  · cases r <;> rfl
  · cases r <;> rfl

theorem known_read (assess : String → String → ℚ → Risk) {db : Store} {c : Claim}
    (hc : c ∈ db.claims) : Known assess db c := by
  refine ⟨db.fresh c hc, fun row hrow hid => ?_⟩
  rw [List.inj_on_of_nodup_map db.keys hrow hc hid]

theorem inv_start (detect : String → String → Option Finding) (assess : String → String → ℚ → Risk)
    (req : TriggerRequest) (runId : UUID) (now : Time) (store : Store) :
    Inv detect assess (start req runId now store) := by
  refine ⟨fun _ _ => rfl, ?_, ?_⟩
  · rintro i late claims ⟨⟩
  · rintro i phase ⟨⟩

/-- No invocation of a worker starts late. -/
theorem lateAfter_eq {act : WorkerCounters.Action} (hinv : Inv detect assess s)
    (hok : Quiet detect assess s (.worker act)) : lateAfter s act = s.late := by
  cases act with
  | attempt a act =>
    cases act with
    | start i req =>
      have hclosed : s.closed = false := hok
      funext b j
      by_cases hb : b = a
      · subst hb
        by_cases hj : j = i
        · subst hj
          simp [lateAfter, hclosed, hinv.attempts]
        · simp [lateAfter, hj]
      · simp [lateAfter, hb]
    | _ => rfl
  | _ => rfl

theorem inv_worker {act : WorkerCounters.Action} (hinv : Inv detect assess s)
    (hok : Quiet detect assess s (.worker act)) (h : move detect assess s (.worker act) = some t) :
    Inv detect assess t := by
  simp only [move] at h
  split at h
  · cases h
  · obtain ⟨w, hw, rfl⟩ := Option.map_eq_some_iff.1 h
    have hmoves : Moves assess s { s with workers := w, late := lateAfter s act } :=
      ⟨WorkerCounters.step_sameRow hw, evolves_refl s.store⟩
    exact inv_moves hinv hmoves (lateAfter_eq hinv hok) rfl

/-- A stage that starts knows the claims that it has read. -/
theorem inv_begin {i : Nat} {stage : Stage} (hinv : Inv detect assess s)
    (hok : Quiet detect assess s (.start i stage))
    (h : move detect assess s (.start i stage) = some t) : Inv detect assess t := by
  simp only [move] at h
  split at h
  next =>
    cases h
    apply inv_goto hinv
    · intro late claims he c hc
      obtain ⟨phase, hphase, he⟩ := Option.map_eq_some_iff.1 he
      cases he
      cases stage with
      | detectFabrication =>
        cases hphase
        exact known_read assess (List.mem_filter.1 hc).1
      | crossCheck results => cases hphase
      | runLlmJudge => cases hphase
      | finalize =>
        simp only [State.begin] at hphase
        split at hphase <;> cases hphase
    · intro phase he
      obtain ⟨phase, hphase, he⟩ := Option.map_eq_some_iff.1 he
      simp only [Execution.mk.injEq] at he
      obtain ⟨hclosed, rfl⟩ := he
      exact hok hclosed phase hphase
  next => cases h

theorem inv_flag {i : Nat} {now : Time} (hinv : Inv detect assess s)
    (h : move detect assess s (.flag i now) = some t) : Inv detect assess t := by
  simp only [move] at h
  split at h
  next late c claims hi =>
    cases h
    have hknown := hinv.known i late (c :: claims) hi
    have hevolves : ∀ db, flagClaim assess (fun _ => now) s.store c = .ok db → Evolves assess s.store db :=
      fun db hdb => evolves_flag (hknown c (by simp)).2 hdb
    cases hr : flagClaim assess (fun _ => now) s.store c with
    | error e => exact inv_stop hinv
    | ok db =>
      have hstore := inv_store hinv (r := .ok db) (by rintro _ ⟨⟩; exact hevolves db hr)
      apply inv_goto hstore
      · rintro _ _ ⟨⟩ c' hc'
        exact known_evolves (hevolves db hr) (hknown c' (by simp [hc']))
      · rintro _ ⟨⟩
        have hsettled : Settled assess s.store.claims (c :: claims) := hinv.quiet i _ hi
        apply settled_evolves (hevolves db hr) fun c' hc' => hknown c' (by simp [hc'])
        exact settled_tail hsettled hr
  next => cases h

theorem inv_move {a : Action} (hinv : Inv detect assess s) (hok : Quiet detect assess s a)
    (h : move detect assess s a = some t) : Inv detect assess t := by
  cases a with
  | worker act => exact inv_worker hinv hok h
  | start i stage => exact inv_begin hinv hok h
  | flag i now => exact inv_flag hinv h
  | crossCheck i =>
    simp only [move] at h
    split at h
    next =>
      cases h
      apply inv_stop
      apply inv_store hinv
      intro db hdb
      obtain ⟨⟨db', out⟩, hr, rfl⟩ := map_eq_ok.1 hdb
      exact evolves_db (evolves_crossCheck hr)
    next => cases h
  | judge i answers =>
    simp only [move] at h
    split at h
    next =>
      cases h
      apply inv_stop
      apply inv_store hinv
      intro db hdb
      obtain ⟨⟨db', out⟩, hr, rfl⟩ := map_eq_ok.1 hdb
      exact evolves_db (evolves_judge hr)
    next => cases h
  | countWorkers i =>
    simp only [move] at h
    split at h
    next =>
      cases h
      apply inv_goto hinv
      · rintro _ _ ⟨⟩
      · rintro _ ⟨⟩
        trivial
    next => cases h
  | reread i =>
    simp only [move] at h
    split at h
    next =>
      cases h
      split
      · exact inv_stop hinv
      · apply inv_goto hinv
        · rintro _ _ ⟨⟩
        · rintro _ ⟨⟩
          trivial
    next => cases h
  | finalize i finalScore now =>
    simp only [move] at h
    split at h
    next =>
      cases h
      apply inv_stop
      exact inv_moves hinv ⟨written_sameRow _ _ _ _, evolves_refl s.store⟩ rfl rfl
    next => cases h
  | stop i =>
    cases h
    exact inv_stop hinv

theorem inv_step (s : State) (a : Action) (t : State) (hinv : Inv detect assess s)
    (hok : Quiet detect assess s a) (h : step detect assess s a = some t) : Inv detect assess t := by
  obtain ⟨u, hu, rfl⟩ := Option.map_eq_some_iff.1 h
  exact inv_note (inv_move hinv hok hu)

theorem sameRecords_store {s : State} {r : Except PyException Store} {i : Nat} {e : Option Execution}
    (hclaims : ∀ db, r = .ok db → statuses s.run.id db.claims = statuses s.run.id s.store.claims)
    (hcontra : ∀ db, r = .ok db → db.contradictions = s.store.contradictions)
    (hscores : ∀ db, r = .ok db → db.scores = s.store.scores) :
    SameRecords s ((s.store? r).goto i e).note := by
  cases r with
  | error _ => exact ⟨rfl, rfl, rfl, rfl, rfl⟩
  | ok db =>
    refine ⟨hclaims db rfl, congrArg _ (hcontra db rfl), congrArg _ (hscores db rfl), rfl, rfl⟩

theorem storeScores_free {runId : UUID} {run : EvaluationRun} {scores : Dict}
    {usage : LlmJudge.TokenUsage} {model : String} {dimensions : List (String × ℚ)} {db db' : Store}
    (h : LlmJudge.storeScores runId run scores usage model db dimensions = .ok db') :
    ∀ dimension ∈ dimensions, db.scored runId dimension.1 = false := by
  induction dimensions generalizing db with
  | nil => simp
  | cons d dimensions ih =>
    simp only [LlmJudge.storeScores, bind_eq_ok] at h
    obtain ⟨score, hscore, db₁, hinsert, hrest⟩ := h
    intro dimension hdimension
    obtain rfl | hdimension := List.mem_cons.1 hdimension
    · obtain ⟨hrun, hname, _⟩ := StageRedelivery.newScore_fields hscore
      rw [← hrun, ← hname]
      exact (insertScore_ok hinsert).1
    · have hfree := ih hrest dimension hdimension
      by_contra hscored
      rw [Bool.not_eq_false] at hscored
      rw [StageRedelivery.insertScore_scored hinsert runId dimension.1 hscored] at hfree
      cases hfree

theorem judge_free {runId : UUID} {answers : Answers} {db : Store} {r : Store × Dict}
    (h : LlmJudge.runLlmJudge db runId answers = .ok r) :
    ∀ dimension ∈ dimensionWeights, db.scored runId dimension.1 = false := by
  simp only [LlmJudge.runLlmJudge, bind_eq_ok] at h
  obtain ⟨run, _, scores, _, db₁, hstore, _⟩ := h
  exact storeScores_free hstore

theorem statuses_update (runId id : UUID) (status : String) (evidence : Dict) (now : Time)
    (rows : List Claim) : statuses runId (update Claim.id id (Claim.assessed status evidence now) rows) =
      (rows.filter fun c => decide (c.evaluationRunId = runId)).map fun c =>
        (c.id, if c.id = id then status else c.verificationStatus) := by
  rw [statuses, update, List.filter_map, List.map_map]
  have hfilter : rows.filter ((fun c : Claim => decide (c.evaluationRunId = runId)) ∘ fun row =>
      if row.id = id then row.assessed status evidence now else row) =
      rows.filter fun c => decide (c.evaluationRunId = runId) := by
    apply List.filter_congr
    intro row _
    simp only [Function.comp_apply]
    split <;> rfl
  rw [hfilter]
  apply List.map_congr_left
  intro row _
  simp only [Function.comp_apply]
  split <;> rfl

/-- A verdict that is already set is written over itself. -/
theorem statuses_settled {db db' : Store} {c : Claim} {claims : List Claim} (runId : UUID)
    (hsettled : Settled assess db.claims (c :: claims)) (h : flagClaim assess clock db c = .ok db') :
    statuses runId db'.claims = statuses runId db.claims := by
  obtain ⟨rfl, _⟩ | ⟨hflagged, hstorable, hclaims, _⟩ := flagClaim_cases h
  · rfl
  · simp only [Settled, if_pos hflagged] at hsettled
    have hset := (hsettled hstorable).1
    rw [hclaims, statuses_update, statuses]
    apply List.map_congr_left
    intro row hrow
    split
    next hid => rw [hset row (List.mem_filter.1 hrow).1 hid]
    next => rfl

/-- A worker that is late has started late, which the condition excludes. -/
theorem not_late_worker {act : WorkerCounters.Action} (hinv : Inv detect assess s)
    (hok : Quiet detect assess s (.worker act)) : isLate s (.worker act) = false := by
  cases act with
  | attempt a act =>
    cases act with
    | start i req => exact hok
    | _ => exact hinv.attempts a _
  | _ => rfl

theorem sameRecords_crossCheck {i : Nat} (hinv : Inv detect assess s)
    (hu : move detect assess s (.crossCheck i) = some t) (hlate : isLate s (.crossCheck i) = true) :
    SameRecords s t.note := by
  simp only [move] at hu
  split at hu <;> cases hu
  next late results hi =>
    simp only [isLate, hi, Option.any_some] at hlate
    subst hlate
    have hquiet : ¬ Storable detect s.run results := hinv.quiet i _ hi
    have hsame : ∀ db, (CrossCheck.crossCheck detect s.db s.run.id results).map Prod.fst = .ok db →
        db = s.db := by
      intro db hdb
      obtain ⟨⟨db', out⟩, hr, rfl⟩ := map_eq_ok.1 hdb
      obtain hsame | ⟨run, hrun, hstorable, _⟩ := crossCheck_cases hr
      · exact hsame
      · have hself : run = s.run := List.mem_singleton.1 (scalarOne_filter hrun).1
        exact absurd (hself ▸ hstorable) hquiet
    apply sameRecords_store
    · intro db hdb
      rw [hsame db hdb]
      rfl
    · intro db hdb
      rw [hsame db hdb]
      rfl
    · intro db hdb
      rw [hsame db hdb]
      rfl

theorem sameRecords_flag {i : Nat} {now : Time} (hinv : Inv detect assess s)
    (hu : move detect assess s (.flag i now) = some t) (hlate : isLate s (.flag i now) = true) :
    SameRecords s t.note := by
  simp only [move] at hu
  split at hu <;> cases hu
  next late c claims hi =>
    simp only [isLate, hi, Option.any_some] at hlate
    subst hlate
    have hsettled : Settled assess s.store.claims (c :: claims) := hinv.quiet i _ hi
    apply sameRecords_store
    · exact fun db hdb => statuses_settled s.run.id hsettled hdb
    · intro db hdb
      obtain ⟨rfl, _⟩ | ⟨_, _, _, _, hcontra, _⟩ := flagClaim_cases hdb
      · rfl
      · exact hcontra
    · intro db hdb
      obtain ⟨rfl, _⟩ | ⟨_, _, _, _, _, hscores, _⟩ := flagClaim_cases hdb
      · rfl
      · exact hscores

/-- A judge that is late finds a dimension scored already, and stores nothing. -/
theorem sameRecords_judge {i : Nat} {answers : Answers} (hinv : Inv detect assess s)
    (hu : move detect assess s (.judge i answers) = some t)
    (hlate : isLate s (.judge i answers) = true) : SameRecords s t.note := by
  simp only [move] at hu
  split at hu <;> cases hu
  next late hi =>
    simp only [isLate, hi, Option.any_some] at hlate
    subst hlate
    obtain ⟨dimension, hdimension, hscored⟩ : QuietPhase detect assess s .judging := hinv.quiet i _ hi
    cases hr : LlmJudge.runLlmJudge s.db s.run.id answers with
    | error e => exact ⟨rfl, rfl, rfl, rfl, rfl⟩
    | ok r =>
      have hfree : s.store.scored s.run.id dimension.1 = false := judge_free hr dimension hdimension
      rw [hscored] at hfree
      cases hfree

theorem sameRecords_finalize {i : Nat} {finalScore : ℚ} {now : Time}
    (hok : Quiet detect assess s (.finalize i finalScore now))
    (hu : move detect assess s (.finalize i finalScore now) = some t)
    (hlate : isLate s (.finalize i finalScore now) = true) : SameRecords s t.note := by
  simp only [move] at hu
  split at hu <;> cases hu
  next late version tallies hi =>
    simp only [isLate, hi, Option.any_some] at hlate
    subst hlate
    obtain ⟨_, hcounters⟩ := WorkerCounters.written_finalize s.run.id version finalScore
      (total fun a => (tallies a).completed) (total fun a => (tallies a).failed) now s.run
    cases hm : matchesVersion version s.run with
    | true =>
      obtain ⟨hcompleted, hfailed⟩ := hok version tallies hi hm
      rw [hm, if_pos rfl, Prod.mk.injEq] at hcounters
      exact ⟨rfl, rfl, rfl, hcounters.1.trans hcompleted, hcounters.2.trans hfailed⟩
    | false =>
      rw [hm, if_neg (by decide), Prod.mk.injEq] at hcounters
      exact ⟨rfl, rfl, rfl, hcounters.1, hcounters.2⟩

theorem sameRecords_of_inv {a : Action} (hinv : Inv detect assess s) (hok : Quiet detect assess s a)
    (h : step detect assess s a = some t) (hlate : isLate s a = true) : SameRecords s t := by
  obtain ⟨u, hu, rfl⟩ := Option.map_eq_some_iff.1 h
  cases a with
  | worker act =>
    rw [not_late_worker hinv hok] at hlate
    cases hlate
  | crossCheck i => exact sameRecords_crossCheck hinv hu hlate
  | flag i now => exact sameRecords_flag hinv hu hlate
  | judge i answers => exact sameRecords_judge hinv hu hlate
  | finalize i finalScore now => exact sameRecords_finalize hok hu hlate
  | start i stage =>
    simp only [move] at hu
    split at hu <;> cases hu
    exact ⟨rfl, rfl, rfl, rfl, rfl⟩
  | countWorkers i | reread i =>
    simp only [move] at hu
    split at hu <;> cases hu
    exact ⟨rfl, rfl, rfl, rfl, rfl⟩
  | stop i =>
    cases hu
    exact ⟨rfl, rfl, rfl, rfl, rfl⟩

theorem noWriteAfterEnd_of_quiet (detect : String → String → Option Finding)
    (assess : String → String → ℚ → Risk) (req : TriggerRequest) (runId : UUID) (now : Time)
    (store : Store) : NoWriteAfterEnd detect assess req runId now store (Quiet detect assess) := by
  intro s a t hreach hok hstep hlate
  have hinv := hreach.invariant (inv_start detect assess req runId now store) inv_step
  exact sameRecords_of_inv hinv hok hstep hlate

theorem scalarOne_self (s : State) :
    QueryResults.scalarOne (s.db.runs.filter fun run => decide (run.id = s.run.id)) = .ok s.run := by
  simp [State.db, QueryResults.scalarOne]

theorem statuses_append (runId : UUID) (claims stored : List Claim) :
    statuses runId (claims ++ stored) = statuses runId claims ++ statuses runId stored := by
  simp only [statuses, List.filter_append, List.map_append]

/-- A cross check that has something to store inserts rows for the run. -/
theorem crossCheck_records {i : Nat} {late : Bool} {results : List Json}
    (hi : s.execution i = some ⟨late, .crossChecking results⟩) (h : Storable detect s.run results) :
    ∃ t, step detect assess s (.crossCheck i) = some t ∧ ¬ SameRecords s t := by
  obtain ⟨⟨db, out⟩, hr⟩ := crossCheck_exists (scalarOne_self s) h
  have hstep : step detect assess s (.crossCheck i) = some ((s.store? (.ok db)).goto i none).note := by
    simp only [step, move, hi, hr]
    rfl
  refine ⟨_, hstep, fun hsame => ?_⟩
  obtain ⟨unsaved, hunsaved, hmany, _⟩ := h
  obtain ⟨claims, haggregate, hnew⟩ := bind_eq_ok.1 hunsaved
  have hnotFew : ¬ StageRedelivery.fewClaims results := by
    rintro ⟨claims', haggregate', hfew⟩
    rw [haggregate] at haggregate'
    cases haggregate'
    have hlength : unsaved.length = claims.length := mapM_length hnew
    omega
  have hgrows : s.db.claims.length < db.claims.length :=
    StageRedelivery.crossCheck_grows detect hnotFew hr
  obtain rfl | ⟨run, hrun, _, hchecked⟩ := crossCheck_cases hr
  · exact Nat.lt_irrefl _ hgrows
  · obtain rfl : run = s.run := List.mem_singleton.1 (scalarOne_filter hrun).1
    obtain ⟨stored, hstored, hclaims, howner, _⟩ := hchecked.claims
    have hsame' : statuses s.run.id db.claims = statuses s.run.id s.db.claims := hsame.claims
    rw [hclaims, statuses_append, List.append_right_eq_self] at hsame'
    obtain ⟨c, hc⟩ := List.exists_mem_of_ne_nil stored hstored
    have hmem : (c.id, c.verificationStatus) ∈ statuses s.run.id stored :=
      List.mem_map_of_mem (List.mem_filter.2 ⟨hc, decide_eq_true (howner c hc).1⟩)
    rw [hsame'] at hmem
    cases hmem

section Sample

def emptyStore : Store :=
  { runs := [], claims := [], contradictions := [], scores := [], nextId := 1
    keys := List.nodup_nil, fresh := fresh_nil }

def analysisClaims (claims : List (String × String)) : List Json :=
  [.obj [("status", .str "completed"),
    ("claims", .arr (claims.map fun c => .obj [("text", .str c.1), ("category", .str c.2)]))]]

/-- Two claims that are never compared. -/
def lateClaims : List Json := analysisClaims [("a team of four", "team"), ("launched in May", "traction")]

theorem lateClaims_storable (detect : String → String → Option Finding) (run : EvaluationRun) :
    Storable detect run lateClaims := by
  refine ⟨_, rfl, Nat.le_refl 2, ?_, ?_⟩
  · simp only [List.mem_reverse, List.mem_cons, List.not_mem_nil, or_false, forall_eq_or_imp, forall_eq,
      Claim.storable]
    exact ⟨by decide +kernel, by decide +kernel⟩
  · intro found hfound
    simp [CrossCheck.findContradictions, CrossCheck.findPair] at hfound

/-- The user cancels a run that is under way; the cross check starts after that. -/
def cancelled : List Action :=
  [.worker (.write 1 (.prepareRun 11)), .worker (.write 2 (.cancelEvaluationRun 3 12)),
    .start 0 (.crossCheck lateClaims)]

theorem cancelled_still_written :
    ¬ ∃ detect assess, NoWriteAfterEnd detect assess raceRequest 1 10 emptyStore free := by
  rintro ⟨detect, assess, h⟩
  let s := (runList (step detect assess) (start raceRequest 1 10 emptyStore) cancelled).get rfl
  have hexec : Exec (step detect assess) free (start raceRequest 1 10 emptyStore) s := exec_get _ _ _ rfl
  obtain ⟨t, hstep, hwrites⟩ : ∃ t, step detect assess s (.crossCheck 0) = some t ∧
      ¬ SameRecords s t := crossCheck_records rfl (lateClaims_storable detect s.run)
  exact hwrites (h s (.crossCheck 0) t hexec trivial hstep rfl)

/-- A cross check that was under way stores its claims after the cancellation,
and a later one has a single claim to look at. -/
theorem single_claim_after_end : ∃ s t : State, s.closed = true ∧ s.store.claims.length = 2 ∧
    isLate s (.crossCheck 1) = true ∧ SameRecords s t := by
  let detect : String → String → Option Finding := fun _ _ => none
  let assess : String → String → ℚ → Risk := fun _ _ _ => ⟨0, []⟩
  have hrunning := (@Exec.refl _ _ (step detect assess) (Quiet detect assess)
    (start raceRequest 1 10 emptyStore)).tail (a := Action.worker (.write 1 (.prepareRun 11))) trivial rfl
  have hchecking := hrunning.tail (a := Action.start 0 (.crossCheck lateClaims))
    (fun hclosed => by cases hclosed) rfl
  have hcancelled := hchecking.tail (a := Action.worker (.write 2 (.cancelEvaluationRun 3 12))) trivial rfl
  have hstored := hcancelled.tail (a := Action.crossCheck 0) trivial rfl
  have hlate := hstored.tail (a := Action.start 1 (.crossCheck (analysisClaims [("4 people", "team")])))
    (fun _ phase hphase => by
      cases hphase
      rintro ⟨claims, hclaims, hmany, _⟩
      cases hclaims
      exact absurd hmany (by decide)) rfl
  exact ⟨_, _, rfl, rfl, rfl, noWriteAfterEnd_of_quiet detect assess raceRequest 1 10 emptyStore _
    (.crossCheck 1) _ hlate trivial rfl rfl⟩

end Sample

end EvalEngine.LateStages
