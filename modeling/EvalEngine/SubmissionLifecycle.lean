import EvalEngine.BaseEvalTask
import EvalEngine.SubmissionService

namespace EvalEngine.SubmissionLifecycle

open EvalEngine.Exceptions EvalEngine.RunModel EvalEngine.SubmissionModel EvalEngine.Transitions
open EvalEngine.SubmissionService
open EvalEngine.BaseEvalTask (flushed)

/-- The lifecycle of the model's docstring, with the re-evaluation. -/
inductive Edge : SubmissionStatus → SubmissionStatus → Prop
  | submit : Edge .draft .submitted
  | review : Edge .submitted .underReview
  | evaluate : Edge .underReview .evaluated
  | reevaluate : Edge .evaluated .underReview
  | archive (status : SubmissionStatus) : Edge status .archived

inductive Kind
  | update
  | trigger
  | finalize
  | delete
  deriving DecidableEq, Repr

/-- A committed write of the submission, with the status before and after. -/
structure Change where
  kind : Kind
  before : SubmissionStatus
  after : SubmissionStatus
  deriving DecidableEq, Repr

/-- The status moves along the lifecycle; a trigger takes a draft over two
edges at once, and it alone starts a re-evaluation. -/
structure Change.Allowed (c : Change) : Prop where
  edge : c.after = c.before ∨ Edge c.before c.after ∨
    (c.kind = .trigger ∧ ∃ mid, Edge c.before mid ∧ Edge mid c.after)
  evaluated : c.after = .evaluated → c.before ≠ .evaluated → c.kind = .finalize
  reevaluated : c.before = .evaluated → c.after = .underReview → c.kind = .trigger
  archived : c.before = .archived → c.after = .archived

/-- A request that has loaded the submission and has still to flush it. -/
inductive Pending
  | update (snapshot : Submission) (updates : SubmissionUpdate)
  | trigger (snapshot : Submission)
  | delete (snapshot : Submission)

def Pending.kind : Pending → Kind
  | .update _ _ => .update
  | .trigger _ => .trigger
  | .delete _ => .delete

/-- The object that the request flushes, and the one that it has loaded. -/
def Pending.objects (now : Time) : Pending → Submission × Submission
  | .update snapshot updates => (snapshot, updates.apply snapshot)
  | .trigger snapshot => (snapshot, underReview now snapshot)
  | .delete snapshot => (snapshot, softDeleteSubmission now snapshot)

/-- The ORM sends the attributes that differ from the loaded ones. -/
def flush (now : Time) (loaded new row : Submission) : Submission :=
  { row with
    startupName := flushed loaded.startupName new.startupName row.startupName
    description := flushed loaded.description new.description row.description
    websiteUrl := flushed loaded.websiteUrl new.websiteUrl row.websiteUrl
    pitchDeckUrl := flushed loaded.pitchDeckUrl new.pitchDeckUrl row.pitchDeckUrl
    status := flushed loaded.status new.status row.status
    deletedAt := flushed loaded.deletedAt new.deletedAt row.deletedAt
    updatedAt :=
      if isModified loaded new || loaded.deletedAt != new.deletedAt then now else row.updatedAt }

structure State where
  row : Submission
  pending : Nat → Option Pending := fun _ => none
  runs : List UUID := []
  changes : List Change := []

/-- `create_submission` commits a draft. -/
def start (now : Time) (id orgId userId : UUID) (body : SubmissionCreate) : State where
  row := newSubmission now id orgId userId body

def State.wait (s : State) (tx : Nat) (p : Option Pending) : State :=
  { s with pending := Function.update s.pending tx p }

def State.write (s : State) (kind : Kind) (row : Submission) : State :=
  { s with row, changes := s.changes ++ [⟨kind, s.row.status, row.status⟩] }

inductive Action
  | update (tx : Nat) (updates : SubmissionUpdate)
  | trigger (tx : Nat)
  | delete (tx : Nat)
  | commit (tx : Nat) (runId : UUID) (now : Time)
  | rollback (tx : Nat)
  | finalize (runId : UUID)

/-- The run that a committed request leaves behind. -/
def Pending.started (runId : UUID) : Pending → List UUID
  | .trigger _ => [runId]
  | _ => []

def step (s : State) : Action → Option State
  | .update tx updates =>
    match s.pending tx, s.row.deletedAt with
    | none, none => some (s.wait tx (some (.update s.row updates)))
    | _, _ => none
  | .trigger tx =>
    match s.pending tx, s.row.deletedAt with
    | none, none =>
      if s.row.status = .archived then none else some (s.wait tx (some (.trigger s.row)))
    | _, _ => none
  | .delete tx =>
    match s.pending tx, s.row.deletedAt with
    | none, none => some (s.wait tx (some (.delete s.row)))
    | _, _ => none
  | .commit tx runId now =>
    (s.pending tx).map fun p =>
      { (s.write p.kind (flush now (p.objects now).1 (p.objects now).2 s.row)).wait tx none with
        runs := s.runs ++ p.started runId }
  | .rollback tx => some (s.wait tx none)
  | .finalize runId =>
    if runId ∈ s.runs then some (s.write .finalize { s.row with status := .evaluated }) else none

def FollowsLifecycle (now : Time) (id orgId userId : UUID) (body : SubmissionCreate)
    (ok : State → Action → Prop) : Prop :=
  ∀ s, Exec step ok (start now id orgId userId body) s → ∀ c ∈ s.changes, c.Allowed

/-- What a user may set a status to. -/
def Settable (current new : SubmissionStatus) : Prop :=
  new = current ∨ new = .archived ∨ (current = .draft ∧ new = .submitted) ∨
    (current = .submitted ∧ new = .underReview)

/-- A body sets a status only along the lifecycle, and a trigger meets no
submission that has been archived since it was loaded. -/
def Pending.InOrder (current : SubmissionStatus) : Pending → Prop
  | .update snapshot updates => ∀ status ∈ updates.status, status ≠ snapshot.status →
      Settable current status
  | .trigger snapshot => snapshot.status ≠ .underReview → current ≠ .archived
  | .delete _ => True

/-- Moreover, a finalizer meets a submission under review or evaluated. -/
def InOrder (s : State) : Action → Prop
  | .commit tx _ _ => ∀ p, s.pending tx = some p → p.InOrder s.row.status
  | .finalize _ => s.row.status = .underReview ∨ s.row.status = .evaluated
  | _ => True

theorem flushed_self {α : Type} [DecidableEq α] (loaded new : α) : flushed loaded new loaded = new := by
  unfold flushed
  split
  · symm
    assumption
  · rfl

/-- Without a write in between, the flush of an update is the update of the service. -/
theorem flush_update (now : Time) (updates : SubmissionUpdate) (submission : Submission) :
    flush now submission (updates.apply submission) submission = updatedRow now updates submission := by
  simp only [flush, flushed_self, updatedRow, stamp]
  cases hmodified : isModified submission (updates.apply submission) <;>
    simp [SubmissionUpdate.apply]

theorem flush_trigger (now : Time) (submission : Submission) :
    flush now submission (underReview now submission) submission = underReview now submission := by
  simp only [flush, flushed_self]
  unfold underReview
  cases hstatus : submission.status with
  | draft | submitted | evaluated => simp [isModified, hstatus]
  | underReview | archived =>
    simp only [isModified, bne_self_eq_false, Bool.or_self, Bool.false_eq_true, if_false]

theorem status_update (now : Time) (snapshot row : Submission) (updates : SubmissionUpdate) :
    (flush now snapshot (updates.apply snapshot) row).status =
      flushed snapshot.status (updates.status.getD snapshot.status) row.status := rfl

theorem status_trigger (now : Time) {snapshot : Submission} (row : Submission)
    (h : snapshot.status ≠ .archived) :
    (flush now snapshot (underReview now snapshot) row).status =
      if snapshot.status = .underReview then row.status else .underReview := by
  simp only [flush, underReview]
  cases hs : snapshot.status <;> simp_all [flushed]

theorem allowed_same {kind : Kind} {status : SubmissionStatus} :
    Change.Allowed ⟨kind, status, status⟩ := by
  refine ⟨.inl rfl, fun h hne => absurd h hne, ?_, id⟩
  intro hbefore hafter
  rw [show status = .evaluated from hbefore] at hafter
  cases hafter

theorem allowed_of_settable {before after : SubmissionStatus} (h : Settable before after) :
    Change.Allowed ⟨.update, before, after⟩ := by
  obtain rfl | rfl | ⟨rfl, rfl⟩ | ⟨rfl, rfl⟩ := h
  · exact allowed_same
  · exact ⟨.inr (.inl (.archive before)), by rintro ⟨⟩, by rintro _ ⟨⟩, fun _ => rfl⟩
  · exact ⟨.inr (.inl .submit), by rintro ⟨⟩, by rintro ⟨⟩, by rintro ⟨⟩⟩
  · exact ⟨.inr (.inl .review), by rintro ⟨⟩, by rintro ⟨⟩, by rintro ⟨⟩⟩

theorem settable_of_allowed {before after : SubmissionStatus}
    (h : Change.Allowed ⟨.update, before, after⟩) : Settable before after := by
  obtain heq | hedge | ⟨htrigger, _⟩ := h.edge
  · exact .inl heq
  · change Edge before after at hedge
    cases hedge with
    | submit => exact .inr (.inr (.inl ⟨rfl, rfl⟩))
    | review => exact .inr (.inr (.inr ⟨rfl, rfl⟩))
    | evaluate => cases h.evaluated rfl (by decide)
    | reevaluate => cases h.reevaluated rfl rfl
    | archive => exact .inr (.inl rfl)
  · cases htrigger

theorem allowed_trigger {before : SubmissionStatus} (h : before ≠ .archived) :
    Change.Allowed ⟨.trigger, before, .underReview⟩ := by
  cases before with
  | draft =>
    exact ⟨.inr (.inr ⟨rfl, .submitted, .submit, .review⟩), by rintro ⟨⟩, by rintro ⟨⟩, by rintro ⟨⟩⟩
  | submitted => exact ⟨.inr (.inl .review), by rintro ⟨⟩, by rintro ⟨⟩, by rintro ⟨⟩⟩
  | underReview => exact allowed_same
  | evaluated => exact ⟨.inr (.inl .reevaluate), by rintro ⟨⟩, fun _ _ => rfl, by rintro ⟨⟩⟩
  | archived => exact absurd rfl h

theorem allowed_finalize_iff {before : SubmissionStatus} :
    Change.Allowed ⟨.finalize, before, .evaluated⟩ ↔ before = .underReview ∨ before = .evaluated := by
  constructor
  · intro h
    obtain heq | hedge | ⟨htrigger, _⟩ := h.edge
    · exact .inr heq.symm
    · change Edge before .evaluated at hedge
      cases hedge
      exact .inl rfl
    · cases htrigger
  · rintro (rfl | rfl)
    · exact ⟨.inr (.inl .evaluate), fun _ _ => rfl, by rintro ⟨⟩, by rintro ⟨⟩⟩
    · exact allowed_same

/-- No open trigger has loaded an archived submission. -/
def Loaded (s : State) : Prop :=
  ∀ tx snapshot, s.pending tx = some (.trigger snapshot) → snapshot.status ≠ .archived

structure Inv (s : State) : Prop where
  allowed : ∀ c ∈ s.changes, c.Allowed
  loaded : Loaded s

theorem allowed_update_iff {now : Time} {snapshot row : Submission} {updates : SubmissionUpdate} :
    Change.Allowed ⟨.update, row.status, (flush now snapshot (updates.apply snapshot) row).status⟩ ↔
      ∀ status ∈ updates.status, status ≠ snapshot.status → Settable row.status status := by
  rw [status_update]
  cases hstatus : updates.status with
  | none => simp [flushed, allowed_same]
  | some status =>
    by_cases hsame : status = snapshot.status
    · simp [flushed, hsame, allowed_same]
    · have hsettable : Change.Allowed ⟨.update, row.status, status⟩ ↔ Settable row.status status :=
        ⟨settable_of_allowed, allowed_of_settable⟩
      simpa [flushed, hsame] using hsettable

theorem allowed_trigger_iff {now : Time} {snapshot row : Submission}
    (h : snapshot.status ≠ .archived) :
    Change.Allowed ⟨.trigger, row.status, (flush now snapshot (underReview now snapshot) row).status⟩ ↔
      (snapshot.status ≠ .underReview → row.status ≠ .archived) := by
  rw [status_trigger now row h]
  by_cases hunder : snapshot.status = .underReview
  · simp [hunder, allowed_same]
  · simp only [hunder, if_false, ne_eq, not_false_eq_true, forall_const]
    refine ⟨fun hallowed harchived => ?_, allowed_trigger⟩
    cases hallowed.archived harchived

/-- The guard asks of a commit what the lifecycle asks of its change. -/
theorem allowed_commit_iff {s : State} {tx : Nat} {now : Time} {p : Pending} (hloaded : Loaded s)
    (hp : s.pending tx = some p) :
    Change.Allowed
        ⟨p.kind, s.row.status, (flush now (p.objects now).1 (p.objects now).2 s.row).status⟩ ↔
      p.InOrder s.row.status := by
  cases p with
  | update snapshot updates => exact allowed_update_iff
  | trigger snapshot => exact allowed_trigger_iff (hloaded tx snapshot hp)
  | delete snapshot =>
    have hkept : (flush now snapshot (softDeleteSubmission now snapshot) s.row).status =
        s.row.status := by simp [flush, flushed, softDeleteSubmission]
    simp only [Pending.objects, Pending.kind, hkept]
    exact iff_of_true allowed_same trivial

theorem inv_start (now : Time) (id orgId userId : UUID) (body : SubmissionCreate) :
    Inv (start now id orgId userId body) := by
  refine ⟨?_, ?_⟩
  · rintro c ⟨⟩
  · rintro tx snapshot ⟨⟩

theorem loaded_wait {s : State} {tx : Nat} {p : Option Pending} (hloaded : Loaded s)
    (hp : ∀ snapshot, p = some (.trigger snapshot) → snapshot.status ≠ .archived) :
    Loaded (s.wait tx p) := by
  intro tx' snapshot h
  obtain ⟨_, hnew⟩ | hold := entry_update h
  · exact hp snapshot hnew
  · exact hloaded tx' snapshot hold

theorem step_loaded {s t : State} {a : Action} (hloaded : Loaded s) (h : step s a = some t) :
    Loaded t := by
  cases a with
  | update tx updates =>
    simp only [step] at h
    split at h <;> cases h
    exact loaded_wait hloaded (by rintro snapshot ⟨⟩)
  | trigger tx =>
    simp only [step] at h
    split at h
    · split at h
      · cases h
      next hopen =>
        cases h
        refine loaded_wait hloaded ?_
        rintro snapshot ⟨⟩
        exact hopen
    · cases h
  | delete tx =>
    simp only [step] at h
    split at h <;> cases h
    exact loaded_wait hloaded (by rintro snapshot ⟨⟩)
  | commit tx runId now =>
    obtain ⟨p, _, rfl⟩ := Option.map_eq_some_iff.1 h
    exact loaded_wait (s := s.write _ _) hloaded (by rintro snapshot ⟨⟩)
  | rollback tx =>
    cases h
    exact loaded_wait hloaded (by rintro snapshot ⟨⟩)
  | finalize runId =>
    simp only [step] at h
    split at h <;> cases h
    exact hloaded

theorem inv_write {s t : State} {c : Change} (hinv : Inv s) (hchanges : t.changes = s.changes ++ [c])
    (hc : c.Allowed) : ∀ c' ∈ t.changes, c'.Allowed := by
  intro c' hc'
  rw [hchanges] at hc'
  obtain hold | hnew := List.mem_append.1 hc'
  · exact hinv.allowed c' hold
  · rw [List.mem_singleton.1 hnew]
    exact hc

theorem inv_step (s : State) (a : Action) (t : State) (hinv : Inv s) (hok : InOrder s a)
    (h : step s a = some t) : Inv t := by
  refine ⟨?_, step_loaded hinv.loaded h⟩
  cases a with
  | update tx updates =>
    simp only [step] at h
    split at h <;> cases h
    exact hinv.allowed
  | trigger tx =>
    simp only [step] at h
    split at h
    · split at h <;> cases h
      exact hinv.allowed
    · cases h
  | delete tx =>
    simp only [step] at h
    split at h <;> cases h
    exact hinv.allowed
  | commit tx runId now =>
    obtain ⟨p, hp, rfl⟩ := Option.map_eq_some_iff.1 h
    exact inv_write hinv rfl ((allowed_commit_iff hinv.loaded hp).2 (hok p hp))
  | rollback tx =>
    cases h
    exact hinv.allowed
  | finalize runId =>
    simp only [step] at h
    split at h <;> cases h
    exact inv_write hinv rfl (allowed_finalize_iff.2 hok)

theorem followsLifecycle_of_inOrder (now : Time) (id orgId userId : UUID) (body : SubmissionCreate) :
    FollowsLifecycle now id orgId userId body InOrder := by
  intro s h
  exact (h.invariant (inv_start now id orgId userId body) inv_step).allowed

/-- Every step that the guard leaves out commits a change off the lifecycle. -/
theorem off_lifecycle_of_not_inOrder {now : Time} {id orgId userId : UUID} {body : SubmissionCreate}
    {s t : State} {a : Action} (hreach : Exec step free (start now id orgId userId body) s)
    (hok : ¬ InOrder s a) (h : step s a = some t) : ∃ c ∈ t.changes, ¬ c.Allowed := by
  have hloaded : Loaded s := hreach.invariant (inv_start now id orgId userId body).loaded
    fun _ _ _ hloaded _ hstep => step_loaded hloaded hstep
  cases a with
  | commit tx runId at_ =>
    simp only [InOrder, not_forall] at hok
    obtain ⟨p, hp, hnot⟩ := hok
    obtain ⟨q, hq, rfl⟩ := Option.map_eq_some_iff.1 h
    obtain rfl : p = q := by simpa [hp] using hq
    exact ⟨_, List.mem_append_right _ List.mem_cons_self,
      fun hallowed => hnot ((allowed_commit_iff hloaded hp).1 hallowed)⟩
  | finalize runId =>
    simp only [step] at h
    split at h <;> cases h
    exact ⟨_, List.mem_append_right _ List.mem_cons_self,
      fun hallowed => hok (allowed_finalize_iff.1 hallowed)⟩
  | update _ _ | trigger _ | delete _ | rollback _ => exact absurd trivial hok

section Sample

/-- A submission that is handed in, evaluated twice and archived. -/
theorem evaluated_twice : ∃ s : State, s.changes.map Change.after =
      [.submitted, .underReview, .evaluated, .underReview, .evaluated, .archived] ∧
    ∀ c ∈ s.changes, c.Allowed := by
  have hsubmitted := ((@Exec.refl _ _ step InOrder
    (start 10 1 1 1 { startupName := "Startup One" })).tail
    (a := Action.update 0 { status := some .submitted }) trivial rfl).tail (a := Action.commit 0 0 11)
    (by rintro p ⟨⟩ status ⟨⟩ _; exact .inr (.inr (.inl ⟨rfl, rfl⟩))) rfl
  have hreview := (hsubmitted.tail (a := Action.trigger 1) trivial rfl).tail (a := Action.commit 1 1 12)
    (by rintro p ⟨⟩ _ ⟨⟩) rfl
  have hevaluated := hreview.tail (a := Action.finalize 1) (.inl rfl) rfl
  have hagain := (hevaluated.tail (a := Action.trigger 2) trivial rfl).tail (a := Action.commit 2 2 13)
    (by rintro p ⟨⟩ _ ⟨⟩) rfl
  have hboth := hagain.tail (a := Action.finalize 2) (.inl rfl) rfl
  have harchived := (hboth.tail (a := Action.update 3 { status := some .archived }) trivial rfl).tail
    (a := Action.commit 3 0 14) (by rintro p ⟨⟩ status ⟨⟩ _; exact .inr (.inl rfl)) rfl
  exact ⟨_, rfl, followsLifecycle_of_inOrder 10 1 1 1 _ _ harchived⟩

/-- The submission is archived while its evaluation runs. -/
def archivedDuringRun : List Action :=
  [.trigger 0, .commit 0 1 11, .update 1 { status := some .archived }, .commit 1 0 12, .finalize 1]

theorem archived_evaluated :
    ¬ FollowsLifecycle 10 1 1 1 { startupName := "Startup One" } free := by
  intro h
  have hallowed := h _ (exec_get step _ archivedDuringRun rfl)
    ⟨.finalize, .archived, .evaluated⟩ (by decide)
  cases hallowed.archived rfl

end Sample

end EvalEngine.SubmissionLifecycle
