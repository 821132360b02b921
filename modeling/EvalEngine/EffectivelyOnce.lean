import EvalEngine.BaseEvalTask

namespace EvalEngine.EffectivelyOnce

open EvalEngine.JsonValues EvalEngine.Exceptions EvalEngine.QueryResults EvalEngine.BaseEvalTask
open EvalEngine.Transitions

def Unfinished (rows : List WorkerResult) : Prop := ∀ wr ∈ rows, wr.status ≠ .completed

def holdsRow : Phase → Bool
  | .creating (some _) | .executing | .completing _ | .completed _ => true
  | _ => false

/-- Neither of the writes that are about to commit meets a row that another
delivery has inserted or completed in the meantime. -/
def Undisturbed (s : State) : Action → Prop
  | .createWrite i => match s.phase i with
    | .creating none => s.rows = []
    | .creating (some loaded) => loaded.status = .running ∨ Unfinished s.rows
    | _ => True
  | .markCompleted _ | .markFailed _ => Unfinished s.rows
  | _ => True

/-- The rows and the counter before and after one undisturbed step. -/
inductive Change : List WorkerResult → Nat → List WorkerResult → Nat → Prop
  | kept {rows : List WorkerResult} {n : Nat} : Change rows n rows n
  | inserted {wr : WorkerResult} {n : Nat} (h : wr.status = .running) : Change [] n [wr] n
  | refreshed {rows : List WorkerResult} {n : Nat} (f : WorkerResult → WorkerResult)
      (hid : ∀ wr, (f wr).id = wr.id)
      (hf : ∀ wr, (f wr).status = wr.status ∧ (f wr).outputData = wr.outputData) :
      Change rows n (rows.map f) n
  | reopened {rows : List WorkerResult} {n : Nat} (f : WorkerResult → WorkerResult)
      (hid : ∀ wr, (f wr).id = wr.id) (hu : Unfinished rows)
      (hf : ∀ wr, wr.status ≠ .completed → (f wr).status ≠ .completed) :
      Change rows n (rows.map f) n
  | completed {rows : List WorkerResult} {n : Nat} (f : WorkerResult → WorkerResult)
      (hid : ∀ wr, (f wr).id = wr.id) (hu : Unfinished rows) (hne : rows ≠ [])
      (hf : ∀ wr, (f wr).status = .completed) : Change rows n (rows.map f) (n + 1)

/-- How one invocation moves on, and what it has seen of the rows. -/
inductive Advance (rows rows' : List WorkerResult) : Phase → Phase → Prop
  | start : Advance rows rows' .idle .started
  | skip {output : Dict} (h : checkIdempotent rows = .ok (some output)) :
      Advance rows rows' .started (.returned output)
  | proceed (h : checkIdempotent rows = .ok none) : Advance rows rows' .started .checked
  | read {existing : Option WorkerResult} (h : scalarOneOrNone rows = .ok existing) :
      Advance rows rows' .checked (.creating existing)
  | insert (h : rows = []) (h' : rows' ≠ []) : Advance rows rows' (.creating none) .executing
  | update {loaded : WorkerResult} (h : loaded.status = .running ∨ Unfinished rows) :
      Advance rows rows' (.creating (some loaded)) .executing
  | execute {output : Dict} : Advance rows rows' .executing (.completing output)
  | mark {output : Dict} : Advance rows rows' (.completing output) (.completed output)
  | finish {output : Dict} : Advance rows rows' (.completed output) (.returned output)
  | fail {p : Phase} {error : String} : Advance rows rows' p (.failing error)
  | raise {error : String} : Advance rows rows' (.failing error) .raised
  | die {p : Phase} : Advance rows rows' p .dead

theorem flushed_eq {α : Type} [DecidableEq α] (loaded new current : α) :
    flushed loaded new current = new ∨ flushed loaded new current = current := by
  simp only [flushed]
  split
  · exact .inr rfl
  · exact .inl rfl

theorem flushRow_id (loaded : WorkerResult) (req : Request) (wr : WorkerResult) :
    (flushRow loaded req wr).id = wr.id := by
  simp only [flushRow]
  split <;> rfl

theorem flushRow_output (loaded : WorkerResult) (req : Request) (wr : WorkerResult) :
    (flushRow loaded req wr).outputData = wr.outputData := by
  simp only [flushRow]
  split <;> rfl

theorem flushRow_status {loaded : WorkerResult} (req : Request) (wr : WorkerResult)
    (h : loaded.status = .running) : (flushRow loaded req wr).status = wr.status := by
  simp only [flushRow]
  split
  · simp [flushed, h]
  · rfl

theorem flushRow_unfinished (loaded : WorkerResult) (req : Request) (wr : WorkerResult)
    (h : wr.status ≠ .completed) : (flushRow loaded req wr).status ≠ .completed := by
  simp only [flushRow]
  split
  · obtain h' | h' := flushed_eq loaded.status .running wr.status
    · simp [h']
    · simpa [h'] using h
  · exact h

theorem goto_phase (s : State) (i j : Nat) (p : Phase) :
    (s.goto i p).phase j = if j = i then p else s.phase j := by
  simp [State.goto, Function.update_apply]

@[simp] theorem goto_rows (s : State) (i : Nat) (p : Phase) : (s.goto i p).rows = s.rows := rfl

@[simp] theorem goto_completedWorkers (s : State) (i : Nat) (p : Phase) :
    (s.goto i p).completedWorkers = s.completedWorkers := rfl

theorem createWrite_change {s : State} (req : Request) (existing : Option WorkerResult)
    (h : match existing with
      | none => s.rows = []
      | some loaded => loaded.status = .running ∨ Unfinished s.rows) :
    Change s.rows s.completedWorkers (createWrite s req existing).rows
      (createWrite s req existing).completedWorkers := by
  cases existing with
  | none =>
    simp only [createWrite]
    rw [h]
    exact .inserted rfl
  | some loaded =>
    obtain h | h := h
    · exact .refreshed (flushRow loaded req) (flushRow_id loaded req)
        (fun wr => ⟨flushRow_status req wr h, flushRow_output loaded req wr⟩)
    · exact .reopened (flushRow loaded req) (flushRow_id loaded req) h
        (flushRow_unfinished loaded req)

theorem goto_advance {s s' : State} {i : Nat} {p : Phase} (hs : s'.phase = s.phase)
    (h : Advance s.rows s'.rows (s.phase i) p) (j : Nat) :
    (s'.goto i p).phase j = s.phase j ∨
      Advance s.rows s'.rows (s.phase j) ((s'.goto i p).phase j) := by
  by_cases hj : j = i
  · subst hj
    exact .inr (by simpa [goto_phase] using h)
  · exact .inl (by simp [goto_phase, hj, hs])

/-- Everything that one undisturbed step can do. -/
structure StepSpec (s t : State) : Prop where
  change : Change s.rows s.completedWorkers t.rows t.completedWorkers
  advance : ∀ j, t.phase j = s.phase j ∨ Advance s.rows t.rows (s.phase j) (t.phase j)

theorem StepSpec.goto {s s' : State} {i : Nat} {p : Phase} (hs : s'.phase = s.phase)
    (hc : Change s.rows s.completedWorkers s'.rows s'.completedWorkers)
    (h : Advance s.rows s'.rows (s.phase i) p) : StepSpec s (s'.goto i p) :=
  ⟨by simpa using hc, goto_advance hs h⟩

theorem orFail_spec {s : State} {i : Nat} {α : Type} {k : α → Phase} {r : Except PyException α}
    (h : ∀ x, r = .ok x → Advance s.rows s.rows (s.phase i) (k x)) :
    StepSpec s (s.orFail i (fun x => s.goto i (k x)) r) := by
  cases r with
  | ok x => exact .goto rfl .kept (h x rfl)
  | error e => exact .goto rfl .kept .fail

theorem checkIdempotent_spec {s : State} {i : Nat} (hp : s.phase i = .started) :
    StepSpec s (s.orFail i (fun cached => match cached with
      | some output => s.goto i (.returned output)
      | none => s.goto i .checked) (BaseEvalTask.checkIdempotent s.rows)) := by
  cases hr : BaseEvalTask.checkIdempotent s.rows with
  | error e => exact .goto rfl .kept .fail
  | ok cached =>
    cases cached with
    | none => exact .goto rfl .kept (hp ▸ .proceed hr)
    | some output => exact .goto rfl .kept (hp ▸ .skip hr)

theorem createWrite_spec {s : State} {i : Nat} {existing : Option WorkerResult}
    (hp : s.phase i = .creating existing) (hok : Undisturbed s (.createWrite i)) :
    StepSpec s ((createWrite s (s.request i) existing).goto i .executing) := by
  simp only [Undisturbed, hp] at hok
  cases existing with
  | none => exact .goto rfl (createWrite_change _ none hok) (hp ▸ .insert hok (by simp [createWrite]))
  | some loaded => exact .goto rfl (createWrite_change _ (some loaded) hok) (hp ▸ .update hok)

theorem step_spec {s t : State} {a : Action} (hok : Undisturbed s a)
    (hrows : ∀ i, holdsRow (s.phase i) = true → s.rows ≠ []) (h : step s a = some t) :
    StepSpec s t := by
  cases a with
  | start i req =>
    simp only [step] at h
    split at h <;> cases h
    rename_i hp
    exact .goto rfl .kept (hp ▸ .start)
  | checkIdempotent i =>
    simp only [step] at h
    split at h <;> cases h
    rename_i hp
    exact checkIdempotent_spec hp
  | createRead i =>
    simp only [step] at h
    split at h <;> cases h
    rename_i hp
    exact orFail_spec (fun existing he => hp ▸ .read he)
  | createWrite i =>
    simp only [step] at h
    split at h <;> cases h
    rename_i hp
    exact createWrite_spec hp hok
  | execute i outcome =>
    simp only [step] at h
    split at h <;> cases h
    · rename_i hp
      exact .goto rfl .kept (hp ▸ .execute)
    · exact .goto rfl .kept .fail
  | markCompleted i =>
    simp only [step] at h
    split at h <;> cases h
    rename_i hp
    exact .goto rfl (.completed _ (fun _ => rfl) hok (hrows i (by rw [hp]; rfl)) (fun _ => rfl))
      (hp ▸ .mark)
  | finish i =>
    simp only [step] at h
    split at h <;> cases h
    rename_i hp
    exact .goto rfl .kept (hp ▸ .finish)
  | fault i error =>
    simp only [step] at h
    split at h <;> cases h
    exact .goto rfl .kept .fail
  | markFailed i =>
    simp only [step] at h
    split at h <;> cases h
    rename_i hp
    exact .goto rfl (.reopened _ (fun _ => rfl) hok (fun _ _ => by simp)) (hp ▸ .raise)
  | markFailedError i =>
    simp only [step] at h
    split at h <;> cases h
    rename_i hp
    exact .goto rfl .kept (hp ▸ .raise)
  | crash i =>
    simp only [step] at h
    cases h
    exact .goto rfl .kept .die

def doneCount (rows : List WorkerResult) : Nat :=
  rows.countP (fun wr => decide (wr.status = .completed))

theorem doneCount_unfinished {rows : List WorkerResult} (h : Unfinished rows) :
    doneCount rows = 0 :=
  List.countP_eq_zero.2 (fun wr hwr => by simpa using h wr hwr)

theorem doneCount_map {rows : List WorkerResult} {f : WorkerResult → WorkerResult}
    (h : ∀ wr, (f wr).status = wr.status) : doneCount (rows.map f) = doneCount rows := by
  simp only [doneCount, List.countP_map]
  exact List.countP_congr (fun wr _ => by simp [h wr])

theorem doneCount_map_completed {rows : List WorkerResult} {f : WorkerResult → WorkerResult}
    (h : ∀ wr, (f wr).status = .completed) : doneCount (rows.map f) = rows.length := by
  simp [doneCount, h]

theorem Unfinished.map {rows : List WorkerResult} {f : WorkerResult → WorkerResult}
    (hu : Unfinished rows) (hf : ∀ wr, wr.status ≠ .completed → (f wr).status ≠ .completed) :
    Unfinished (rows.map f) := by
  intro wr' hwr'
  obtain ⟨wr, hwr, rfl⟩ := List.mem_map.1 hwr'
  exact hf wr (hu wr hwr)

theorem Change.length_le {rows rows' : List WorkerResult} {n n' : Nat}
    (h : Change rows n rows' n') (hs : rows.length ≤ 1) : rows'.length ≤ 1 := by
  cases h with
  | kept => exact hs
  | inserted _ => simp
  | refreshed _ _ _ | reopened _ _ _ _ | completed _ _ _ _ _ => simpa using hs

theorem Change.ids {rows rows' : List WorkerResult} {n n' : Nat} (h : Change rows n rows' n')
    {wr : WorkerResult} (hr : rows = [wr]) : ∃ wr', rows' = [wr'] ∧ wr'.id = wr.id := by
  cases h with
  | kept => exact ⟨wr, hr, rfl⟩
  | inserted _ => cases hr
  | refreshed f hid _ | reopened f hid _ _ | completed f hid _ _ _ =>
    exact ⟨f wr, by simp [hr], hid wr⟩

theorem Change.ne_nil {rows rows' : List WorkerResult} {n n' : Nat} (h : Change rows n rows' n')
    (hr : rows ≠ []) : rows' ≠ [] := by
  cases h with
  | kept => exact hr
  | inserted _ => simp
  | refreshed _ _ _ | reopened _ _ _ _ | completed _ _ _ _ _ => simpa using hr

theorem Change.counted {rows rows' : List WorkerResult} {n n' base : Nat}
    (h : Change rows n rows' n') (hs : rows.length ≤ 1) (hc : n = base + doneCount rows) :
    n' = base + doneCount rows' := by
  cases h with
  | kept => exact hc
  | inserted hw => simpa [doneCount, hw] using hc
  | refreshed f _ hf => rw [doneCount_map (fun wr => (hf wr).1), hc]
  | reopened f _ hu hf => rw [doneCount_unfinished (hu.map hf), hc, doneCount_unfinished hu]
  | completed f _ hu hne hf =>
    have hone : rows.length = 1 := Nat.le_antisymm hs (List.length_pos_iff.2 hne)
    rw [doneCount_map_completed hf, hone, hc, doneCount_unfinished hu]

/-- A completed row is left alone by every undisturbed step. -/
theorem Change.done {rows rows' : List WorkerResult} {n n' : Nat} (h : Change rows n rows' n')
    {wr : WorkerResult} (hr : rows = [wr]) (hd : wr.status = .completed) :
    ∃ wr', rows' = [wr'] ∧ wr'.id = wr.id ∧ wr'.status = .completed ∧
      wr'.outputData = wr.outputData := by
  have hnot : ¬ Unfinished rows := fun hu => hu wr (by simp [hr]) hd
  cases h with
  | kept => exact ⟨wr, hr, rfl, hd, rfl⟩
  | inserted _ => cases hr
  | refreshed f hid hf => exact ⟨f wr, by simp [hr], hid wr, (hf wr).1.trans hd, (hf wr).2⟩
  | reopened _ _ hu _ | completed _ _ hu _ _ => exact absurd hu hnot

structure Inv (base : Nat) (s : State) : Prop where
  single : s.rows.length ≤ 1
  counted : s.completedWorkers = base + doneCount s.rows
  holding : ∀ i, holdsRow (s.phase i) = true → s.rows ≠ []
  loaded : ∀ i wr₀, s.phase i = .creating (some wr₀) → ∃ wr, s.rows = [wr] ∧ wr.id = wr₀.id

/-- An invocation comes to work on a row by having read it or inserted it. -/
theorem StepSpec.holding {s t : State} (h : StepSpec s t)
    (hs : ∀ i, holdsRow (s.phase i) = true → s.rows ≠ [])
    (i : Nat) (hi : holdsRow (t.phase i) = true) : t.rows ≠ [] := by
  obtain heq | hadv := h.advance i
  · exact h.change.ne_nil (hs i (heq ▸ hi))
  · generalize hp : s.phase i = p at hadv
    generalize t.phase i = q at hadv hi
    cases hadv with
    | read hr =>
      rename_i existing
      cases existing with
      | none => cases hi
      | some wr => exact h.change.ne_nil (by simp [scalarOneOrNone_some hr])
    | insert _ hne => exact hne
    | update _ | execute | mark => exact h.change.ne_nil (hs i (by rw [hp]; rfl))
    | start | skip _ | proceed _ | finish | fail | raise | die => cases hi

theorem StepSpec.loaded {s t : State} (h : StepSpec s t)
    (hs : ∀ i wr₀, s.phase i = .creating (some wr₀) → ∃ wr, s.rows = [wr] ∧ wr.id = wr₀.id)
    (i : Nat) (wr₀ : WorkerResult) (hi : t.phase i = .creating (some wr₀)) :
    ∃ wr, t.rows = [wr] ∧ wr.id = wr₀.id := by
  have hold : ∃ wr, s.rows = [wr] ∧ wr.id = wr₀.id := by
    obtain heq | hadv := h.advance i
    · exact hs i wr₀ (heq ▸ hi)
    · rw [hi] at hadv
      generalize s.phase i = p at hadv
      cases hadv with
      | read hr => exact ⟨wr₀, scalarOneOrNone_some hr, rfl⟩
  obtain ⟨wr, hr, hid⟩ := hold
  obtain ⟨wr', hr', hid'⟩ := h.change.ids hr
  exact ⟨wr', hr', hid'.trans hid⟩

theorem inv_start (org : UUID) (base failed : Nat) : Inv base (start org base failed) :=
  ⟨by simp [start], rfl, by rintro i ⟨⟩, by rintro i wr₀ ⟨⟩⟩

theorem inv_step {base : Nat} (s : State) (a : Action) (t : State) (hinv : Inv base s)
    (hok : Undisturbed s a) (h : step s a = some t) : Inv base t := by
  have hspec := step_spec hok hinv.holding h
  exact ⟨hspec.change.length_le hinv.single, hspec.change.counted hinv.single hinv.counted,
    hspec.holding hinv.holding, hspec.loaded hinv.loaded⟩

/-- Where an invocation can be that was started after the row was completed
with `output`: it has not executed, and what it returns is that output. Only an
empty output lets it past the idempotency check at all. -/
def Served (output : Dict) : Phase → Prop
  | .idle | .started | .failing _ | .raised | .dead => True
  | .returned o => o = output
  | .checked => output = []
  | .creating existing => output = [] ∧ ∃ wr, existing = some wr ∧ wr.status = .completed
  | .executing | .completing _ | .completed _ => False

theorem checkIdempotent_done {wr : WorkerResult} (hd : wr.status = .completed) :
    checkIdempotent [wr] =
      .ok (if wr.outputData.isEmpty then none else some wr.outputData) := by
  cases hwr : wr.outputData with
  | nil => simp [checkIdempotent, hd, hwr, scalarOneOrNone, Except.map, Option.filter]
  | cons x xs => simp [checkIdempotent, hd, hwr, scalarOneOrNone, Except.map, Option.filter]

theorem Served.advance {rows' : List WorkerResult} {wr : WorkerResult} {p q : Phase}
    (hd : wr.status = .completed) (hp : Served wr.outputData p) (h : Advance [wr] rows' p q) :
    Served wr.outputData q := by
  cases h with
  | start | fail | raise | die => trivial
  | skip hc =>
    rw [checkIdempotent_done hd] at hc
    split at hc
    · cases hc
    · cases hc; rfl
  | proceed hc =>
    rw [checkIdempotent_done hd] at hc
    split at hc
    · rename_i hempty
      exact List.isEmpty_iff.1 hempty
    · cases hc
  | read hr =>
    cases hr
    exact ⟨hp, wr, rfl, hd⟩
  | insert hnil _ => cases hnil
  | update hl =>
    obtain ⟨_, wr₀, hwr₀, hd₀⟩ := hp
    cases hwr₀
    obtain hr | hu := hl
    · rw [hd₀] at hr
      cases hr
    · exact absurd hd (hu wr (by simp))
  | execute | mark | finish => exact absurd hp id

/-- What the completion of the row in `s` promises for the later state `t`. -/
structure Settled (base : Nat) (wr : WorkerResult) (s t : State) : Prop where
  row : ∃ wr', t.rows = [wr'] ∧ wr'.id = wr.id ∧ wr'.status = .completed ∧
    wr'.outputData = wr.outputData
  grown : t.completedWorkers = base + 1
  served : ∀ i, s.phase i = .idle → Served wr.outputData (t.phase i)

def DeliveredOnce (org : UUID) (base failed : Nat) (ok : State → Action → Prop) : Prop :=
  ∀ s t, Exec step ok (start org base failed) s → Exec step ok s t →
    t.rows.length ≤ 1 ∧ ∀ wr ∈ s.rows, wr.status = .completed → Settled base wr s t

theorem Inv.done {base : Nat} {s : State} (hinv : Inv base s) {wr : WorkerResult}
    (hwr : wr ∈ s.rows) (hd : wr.status = .completed) :
    s.rows = [wr] ∧ s.completedWorkers = base + 1 := by
  have hsingle := hinv.single
  have hcount := hinv.counted
  cases hr : s.rows with
  | nil => simp [hr] at hwr
  | cons x xs =>
    cases xs with
    | nil =>
      obtain rfl : wr = x := by simpa [hr] using hwr
      exact ⟨rfl, by simpa [doneCount, hr, hd] using hcount⟩
    | cons y ys => simp [hr] at hsingle

theorem settled_step {base : Nat} {wr : WorkerResult} {s t u : State} {a : Action}
    (hinv : Inv base t) (hset : Settled base wr s t) (hok : Undisturbed t a)
    (h : step t a = some u) : Settled base wr s u := by
  have hspec := step_spec hok hinv.holding h
  obtain ⟨wr₁, hr₁, hid₁, hd₁, ho₁⟩ := hset.row
  obtain ⟨wr₂, hr₂, hid₂, hd₂, ho₂⟩ := hspec.change.done hr₁ hd₁
  have hinv' := inv_step t a u hinv hok h
  refine ⟨⟨wr₂, hr₂, hid₂.trans hid₁, hd₂, ho₂.trans ho₁⟩,
    (hinv'.done (by simp [hr₂]) hd₂).2, fun i hi => ?_⟩
  obtain heq | hadv := hspec.advance i
  · exact heq ▸ hset.served i hi
  · rw [hr₁] at hadv
    exact ho₁ ▸ Served.advance hd₁ (ho₁.symm ▸ hset.served i hi) hadv

theorem deliveredOnce_of_undisturbed (org : UUID) (base failed : Nat) :
    DeliveredOnce org base failed Undisturbed := by
  intro s t hs hst
  have hinv := hs.invariant (inv_start org base failed) inv_step
  refine ⟨((hs.trans hst).invariant (inv_start org base failed) inv_step).single, ?_⟩
  intro wr hwr hd
  obtain ⟨hrow, hgrown⟩ := hinv.done hwr hd
  have hself : Settled base wr s s :=
    ⟨⟨wr, hrow, rfl, hd, rfl⟩, hgrown, fun i hi => by rw [hi]; trivial⟩
  exact hst.history hinv hself inv_step
    (fun _ _ _ hP hR hok hstep => settled_step hP hR hok hstep)

theorem exists_done_of_not_unfinished {rows : List WorkerResult} (h : ¬ Unfinished rows) :
    ∃ wr ∈ rows, wr.status = .completed := by
  simpa [Unfinished] using h

theorem flushRow_reopens {loaded wr : WorkerResult} (req : Request) (hid : wr.id = loaded.id)
    (h : loaded.status ≠ .running) : (flushRow loaded req wr).status = .running := by
  simp [flushRow, flushed, hid, h.symm]

/-- The guard leaves out only writes that duplicate the row, take a completed
row back, or count it twice. -/
theorem breaks_of_disturbed {base : Nat} {s t : State} {a : Action} (hinv : Inv base s)
    (hok : ¬ Undisturbed s a) (h : step s a = some t) :
    1 < t.rows.length ∨ base + 1 < t.completedWorkers ∨
      (¬ Unfinished s.rows ∧ Unfinished t.rows) := by
  cases a with
  | createWrite i =>
    simp only [step] at h
    split at h <;> cases h
    rename_i existing hp
    simp only [Undisturbed, hp] at hok
    cases existing with
    | none => exact .inl (by simp [createWrite, List.length_pos_iff.2 hok])
    | some loaded =>
      obtain ⟨hrun, hdone⟩ := not_or.1 hok
      obtain ⟨wr, hr, hid⟩ := hinv.loaded i loaded hp
      refine .inr (.inr ⟨hdone, ?_⟩)
      simp [createWrite, Unfinished, hr, flushRow_reopens _ hid hrun]
  | markCompleted i =>
    simp only [step] at h
    split at h <;> cases h
    obtain ⟨wr, hwr, hd⟩ := exists_done_of_not_unfinished hok
    have hgrown := (hinv.done hwr hd).2
    exact .inr (.inl (by simp [markCompleted, hgrown]))
  | markFailed i =>
    simp only [step] at h
    split at h <;> cases h
    exact .inr (.inr ⟨hok, by simp [markFailed, Unfinished]⟩)
  | start _ _ | checkIdempotent _ | createRead _ | execute _ _ | finish _ | fault _ _
    | markFailedError _ | crash _ => exact absurd trivial hok

def delivery : Request := { taskId := "task", hostname := "worker" }

/-- The first delivery fails, the second completes the row, and the third finds it completed. -/
theorem redelivery_settled : ∃ (wr : WorkerResult) (s t : State), wr.status = .completed ∧
    t.phase 2 = .returned [("score", .num 1)] ∧ Settled 0 wr s t := by
  have hread : ∀ i, ∀ a ∈ [Action.start i delivery, .checkIdempotent i, .createRead i],
      ∀ s, Undisturbed s a := by simp [Undisturbed]
  have hfirst := ((@Exec.refl _ _ step Undisturbed (start 3 0 0)).along (hread 0) rfl).tail
    (a := Action.createWrite 0) rfl rfl
  have hfailed := (hfirst.tail (a := Action.execute 0 (.error "lost")) trivial rfl).tail
    (a := Action.markFailed 0) (List.forall_mem_singleton.2 (by decide)) rfl
  have hsecond := (hfailed.along (hread 1) rfl).tail (a := Action.createWrite 1)
    (.inr (List.forall_mem_singleton.2 (by decide))) rfl
  have hcompleted := (hsecond.tail (a := Action.execute 1 (.ok [("score", .num 1)])) trivial rfl).tail
    (a := Action.markCompleted 1) (List.forall_mem_singleton.2 (by decide)) rfl
  have hkept := (deliveredOnce_of_undisturbed 3 0 0 _ _ hcompleted
    (.tail (.tail (.refl _) (a := Action.start 2 delivery) trivial rfl)
      (a := Action.checkIdempotent 2) trivial rfl)).2 _ (List.mem_singleton_self _) rfl
  exact ⟨_, _, _, rfl, rfl, hkept⟩

/-- Two deliveries both find no row before either of them inserts one. -/
def overlap : List Action :=
  [.start 0 delivery, .start 1 delivery, .checkIdempotent 0, .checkIdempotent 1, .createRead 0,
    .createRead 1, .createWrite 0, .createWrite 1]

theorem overlap_duplicates : ¬ DeliveredOnce 3 0 0 free := by
  intro h
  have hs := exec_get step (start 3 0 0) overlap rfl
  exact absurd (h _ _ hs (.refl _)).1 (by decide)

end EvalEngine.EffectivelyOnce
