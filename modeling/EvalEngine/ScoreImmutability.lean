import EvalEngine.Rounding
import EvalEngine.StageTables
import EvalEngine.ThreeValued
import Mathlib.Data.List.ReduceOption

namespace EvalEngine.ScoreImmutability

open EvalEngine.JsonValues EvalEngine.Exceptions EvalEngine.RunModel EvalEngine.Rounding
open EvalEngine.StageTables
open EvalEngine.ThreeValued (ne holds holds_or holds_ne_some not_holds_ne)

/-- A row of the table, with the columns that the stages do not set. -/
structure ScoreRow extends Score where
  id : UUID
  createdAt : Time := 0
  updatedAt : Time := 0

def ScoreRow.live (row : ScoreRow) : Bool := row.deletedAt.isNone

def ScoreRow.inUnit (row : ScoreRow) : Bool :=
  decide (0 ≤ row.value ∧ row.value ≤ 1) && decide (0 ≤ row.weight ∧ row.weight ≤ 1)

/-- What `uq_scores_run_dimension_active` lets no two live rows share. -/
def ScoreRow.scored (row : ScoreRow) : UUID × String := (row.evaluationRunId, row.dimension)

/-- The constraints of the table. -/
def ValidRows (rows : List ScoreRow) : Prop :=
  (rows.map ScoreRow.id).Nodup ∧ ((rows.filter ScoreRow.live).map ScoreRow.scored).Nodup ∧
    ∀ row ∈ rows, (row.inUnit && row.storable) = true

instance (rows : List ScoreRow) : Decidable (ValidRows rows) :=
  inferInstanceAs (Decidable (_ ∧ _ ∧ _))

/-- The table, one slot for each row that was ever inserted; a deleted row
leaves its slot empty. -/
structure Scores where
  slots : List (Option ScoreRow)
  valid : ValidRows slots.reduceOption

def Scores.rows (t : Scores) : List ScoreRow := t.slots.reduceOption

def Scores.row? (t : Scores) (i : Nat) : Option ScoreRow := t.slots[i]?.join

/-- `prevent_score_update`: whether the trigger raises. -/
def preventScoreUpdate (old new : ScoreRow) : Bool :=
  holds (ThreeValued.or (ThreeValued.or (ThreeValued.or
    (ne (some new.value) (some old.value)) (ne (some new.dimension) (some old.dimension)))
    (ne (some new.weight) (some old.weight))) (ne new.rationale old.rationale))

def immutableScores : PyException :=
  .databaseError
    "scores are immutable after creation. Create a new evaluation run to re-score."

def write (slots : List (Option ScoreRow)) : Except PyException Scores :=
  if h : ValidRows slots.reduceOption then .ok ⟨slots, h⟩
  else .error (.databaseError "scores: a constraint is violated")

/-- A row after an UPDATE that assigns to the rows that its WHERE clause matches. -/
def updated (now : Time) (assign : ScoreRow → Option ScoreRow) (row : ScoreRow) : ScoreRow :=
  match assign row with
  | some new => { new with updatedAt := now }
  | none => row

def update (now : Time) (assign : ScoreRow → Option ScoreRow) (t : Scores) : Except PyException Scores :=
  if t.rows.any (fun row => (assign row).any (preventScoreUpdate row)) then .error immutableScores
  else write (t.slots.map (Option.map (updated now assign)))

def delete (where_ : ScoreRow → Bool) (t : Scores) : Except PyException Scores :=
  write (t.slots.map (Option.filter (fun row => !where_ row)))

def insert (rows : List ScoreRow) (t : Scores) : Except PyException Scores :=
  write (t.slots ++ rows.map some)

/-- The methods of `ScoreRepository` that write, its own and the inherited ones. -/
inductive RepositoryCall
  | createScore (score : ScoreRow)
  | bulkCreateScores (scores : List ScoreRow)
  | create (score : ScoreRow)
  | createMany (scores : List ScoreRow)
  | softDelete (id : UUID)
  | hardDeleteExpired (cutoff : Time)

/-- `_find_by_run_and_dimension`. -/
def findByRunAndDimension (runId : UUID) (dimension : String) (orgId : UUID) (t : Scores) :
    Option ScoreRow :=
  t.rows.find? (fun row => decide (row.evaluationRunId = runId) && decide (row.dimension = dimension) &&
    decide (row.organizationId = orgId) && row.live)

def scoreExists (score : ScoreRow) : PyException :=
  .conflict ("Score for dimension '" ++ score.dimension ++ "' already exists in run " ++
    uuidText score.evaluationRunId ++ ". Scores are immutable.")

def expired (cutoff : Time) (row : ScoreRow) : Bool :=
  row.deletedAt.any (fun at_ => decide (at_ < cutoff))

def RepositoryCall.run : RepositoryCall → Scores → Except PyException Scores
  | .createScore score, t =>
    match findByRunAndDimension score.evaluationRunId score.dimension score.organizationId t with
    | some _ => .error (scoreExists score)
    | none => insert [score] t
  | .bulkCreateScores scores, t =>
    if (scores.map fun score => score.dimension).Nodup then insert scores t
    else .error (.conflict "Duplicate dimensions in score batch")
  | .create score, t => insert [score] t
  | .createMany scores, t => insert scores t
  | .softDelete _, _ => .error (.conflict
      "Scores are immutable and cannot be deleted. Create a new evaluation run to re-score.")
  | .hardDeleteExpired cutoff, t => delete (expired cutoff) t

/-- The scores that a call hands to the repository. -/
def RepositoryCall.scores : RepositoryCall → List ScoreRow
  | .createScore score | .create score => [score]
  | .bulkCreateScores scores | .createMany scores => scores
  | .softDelete _ | .hardDeleteExpired _ => []

inductive Statement
  | update (now : Time) (assign : ScoreRow → Option ScoreRow)
  | delete (where_ : ScoreRow → Bool)
  | call (c : RepositoryCall)

def Statement.run : Statement → Scores → Except PyException Scores
  | .update now assign, t => ScoreImmutability.update now assign t
  | .delete where_, t => ScoreImmutability.delete where_ t
  | .call c, t => c.run t

/-- The table after a statement; one that is refused leaves it as it is. -/
def after (t : Scores) (r : Except PyException Scores) : Scores :=
  match r with
  | .ok t' => t'
  | .error _ => t

def runAll (statements : List Statement) (t : Scores) : Scores :=
  statements.foldl (fun t statement => after t (statement.run t)) t

/-- The rows that `compute_weighted_average` reads. -/
def counts (runId orgId : UUID) (row : ScoreRow) : Bool :=
  decide (row.evaluationRunId = runId) && decide (row.organizationId = orgId) && row.live

/-- `compute_weighted_average`, with sums of exact numbers. -/
def computeWeightedAverage (runId orgId : UUID) (t : Scores) : Option ℚ :=
  let rows := t.rows.filter (counts runId orgId)
  let totalWeight := (rows.map fun row => row.weight).sum
  if totalWeight = 0 then none
  else some (roundTo 4 ((rows.map fun row => row.value * row.weight).sum / totalWeight))

/-- The columns that the claim of immutability is about. -/
structure SameScore (row row' : ScoreRow) : Prop where
  evaluationRunId : row'.evaluationRunId = row.evaluationRunId
  organizationId : row'.organizationId = row.organizationId
  dimension : row'.dimension = row.dimension
  value : row'.value = row.value
  weight : row'.weight = row.weight
  rationale : row'.rationale = row.rationale
  breakdown : row'.breakdown = row.breakdown

/-- Immutability as the docstring of the model has it. -/
def Immutable : Prop :=
  ∀ (t : Scores) (i : Nat) (row : ScoreRow) (statements : List Statement),
    t.row? i = some row → row.live = true →
      ∃ row', (runAll statements t).row? i = some row' ∧ row'.live = true ∧ SameScore row row'

/-- What the trigger protects. -/
structure Protected (row row' : ScoreRow) : Prop where
  dimension : row'.dimension = row.dimension
  value : row'.value = row.value
  weight : row'.weight = row.weight

theorem preventScoreUpdate_false {old new : ScoreRow} (h : preventScoreUpdate old new = false) :
    Protected old new ∧ ∀ a ∈ old.rationale, ∀ b ∈ new.rationale, b = a := by
  simp only [preventScoreUpdate, holds_or, holds_ne_some, Bool.or_eq_false_iff, decide_eq_false_iff_not,
    ne_eq, not_not] at h
  obtain ⟨⟨⟨hvalue, hdimension⟩, hweight⟩, hrationale⟩ := h
  refine ⟨⟨hdimension, hvalue, hweight⟩, fun a ha b hb => ?_⟩
  exact not_holds_ne hrationale b hb a ha

variable {t t' : Scores} {row : ScoreRow}

theorem write_slots {slots : List (Option ScoreRow)} (h : write slots = .ok t) : t.slots = slots := by
  unfold write at h
  split at h <;> cases h
  rfl

theorem lt_of_row? {i : Nat} (h : t.row? i = some row) : i < t.slots.length := by
  by_contra hge
  simp [Scores.row?, List.getElem?_eq_none (not_lt.1 hge)] at h

/-- Each slot keeps its row, up to what `R` allows, or loses it for good. -/
def Keeps (R : ScoreRow → ScoreRow → Prop) (t t' : Scores) : Prop :=
  ∀ i, i < t.slots.length → i < t'.slots.length ∧
    ∀ row', t'.row? i = some row' → ∃ row, t.row? i = some row ∧ R row row'

theorem keeps_refl {R : ScoreRow → ScoreRow → Prop} (hR : ∀ row, R row row) (t : Scores) :
    Keeps R t t := fun _ hi => ⟨hi, fun row' h => ⟨row', h, hR row'⟩⟩

theorem keeps_trans {R : ScoreRow → ScoreRow → Prop} (hR : ∀ a b c, R a b → R b c → R a c)
    {t'' : Scores} (h : Keeps R t t') (h' : Keeps R t' t'') : Keeps R t t'' := by
  intro i hi
  obtain ⟨hi', hback⟩ := h i hi
  obtain ⟨hi'', hback'⟩ := h' i hi'
  refine ⟨hi'', fun row'' hrow'' => ?_⟩
  obtain ⟨row', hrow', hR'⟩ := hback' row'' hrow''
  obtain ⟨row, hrow, hR''⟩ := hback row' hrow'
  exact ⟨row, hrow, hR row row' row'' hR'' hR'⟩

/-- A statement that works slot by slot. -/
theorem keeps_map {R : ScoreRow → ScoreRow → Prop} {f : Option ScoreRow → Option ScoreRow}
    (ht : t'.slots = t.slots.map f)
    (hf : ∀ slot ∈ t.slots, ∀ row', f slot = some row' → ∃ row, slot = some row ∧ R row row') :
    Keeps R t t' := by
  intro i hi
  refine ⟨by rw [ht, List.length_map]; exact hi, fun row' hrow' => ?_⟩
  simp only [Scores.row?, ht, List.getElem?_map, List.getElem?_eq_getElem hi, Option.map_some,
    Option.join_some] at hrow' ⊢
  exact hf _ (List.getElem_mem hi) row' hrow'

theorem keeps_append {R : ScoreRow → ScoreRow → Prop} (hR : ∀ row, R row row)
    {slots : List (Option ScoreRow)} (ht : t'.slots = t.slots ++ slots) : Keeps R t t' := by
  intro i hi
  refine ⟨by rw [ht, List.length_append]; omega, fun row' hrow' => ⟨row', ?_, hR row'⟩⟩
  simpa only [Scores.row?, ht, List.getElem?_append_left hi] using hrow'

/-- What one accepted statement leaves of a row. -/
def Spared (row row' : ScoreRow) : Prop :=
  Protected row row' ∧ ∀ a ∈ row.rationale, ∀ b ∈ row'.rationale, b = a

theorem spared_refl (row : ScoreRow) : Spared row row := by
  refine ⟨⟨rfl, rfl, rfl⟩, fun a ha b hb => ?_⟩
  rw [Option.mem_def.1 ha] at hb
  exact (Option.some.inj hb).symm

theorem keeps_update {now : Time} {assign : ScoreRow → Option ScoreRow}
    (h : update now assign t = .ok t') : Keeps Spared t t' := by
  unfold update at h
  split at h
  · cases h
  next haccepted =>
    apply keeps_map (write_slots h)
    intro slot hslot row' hrow'
    obtain ⟨row, rfl, rfl⟩ := Option.map_eq_some_iff.1 hrow'
    refine ⟨row, rfl, ?_⟩
    unfold updated
    split
    next new hnew =>
      have hrow : row ∈ t.rows := List.reduceOption_mem_iff.2 hslot
      have hpass : preventScoreUpdate row new = false := by
        by_contra hraise
        apply haccepted
        refine List.any_eq_true.2 ⟨row, hrow, ?_⟩
        rw [hnew]
        exact Bool.not_eq_false _ ▸ hraise
      obtain ⟨hprotected, htext⟩ := preventScoreUpdate_false hpass
      exact ⟨⟨hprotected.dimension, hprotected.value, hprotected.weight⟩, htext⟩
    next => exact spared_refl row

theorem keeps_delete {where_ : ScoreRow → Bool} (h : delete where_ t = .ok t') :
    Keeps Spared t t' := by
  apply keeps_map (write_slots h)
  intro slot _ row' hrow'
  obtain ⟨hslot, _⟩ := Option.filter_eq_some_iff.1 hrow'
  exact ⟨row', hslot, spared_refl row'⟩

theorem keeps_insert {rows : List ScoreRow} (h : insert rows t = .ok t') : Keeps Spared t t' :=
  keeps_append spared_refl (write_slots h)

/-- A call that is accepted has inserted its scores, or deleted expired rows. -/
theorem call_cases {c : RepositoryCall} (h : c.run t = .ok t') :
    insert c.scores t = .ok t' ∨ ∃ cutoff, delete (expired cutoff) t = .ok t' := by
  cases c with
  | createScore score =>
    simp only [RepositoryCall.run] at h
    split at h
    · cases h
    · exact .inl h
  | bulkCreateScores scores =>
    simp only [RepositoryCall.run] at h
    split at h
    · exact .inl h
    · cases h
  | create score => exact .inl h
  | createMany scores => exact .inl h
  | softDelete id => cases h
  | hardDeleteExpired cutoff => exact .inr ⟨cutoff, h⟩

theorem keeps_run {statement : Statement} (h : statement.run t = .ok t') : Keeps Spared t t' := by
  cases statement with
  | update now assign => exact keeps_update h
  | delete where_ => exact keeps_delete h
  | call c =>
    obtain hinsert | ⟨cutoff, hdelete⟩ := call_cases h
    · exact keeps_insert hinsert
    · exact keeps_delete hdelete

theorem keeps_mono {R R' : ScoreRow → ScoreRow → Prop} (hR : ∀ a b, R a b → R' a b)
    (h : Keeps R t t') : Keeps R' t t' := by
  intro i hi
  obtain ⟨hi', hback⟩ := h i hi
  refine ⟨hi', fun row' hrow' => ?_⟩
  obtain ⟨row, hrow, hrel⟩ := hback row' hrow'
  exact ⟨row, hrow, hR row row' hrel⟩

theorem protected_runAll (statements : List Statement) (t : Scores) :
    Keeps Protected t (runAll statements t) := by
  induction statements generalizing t with
  | nil => exact keeps_refl (fun _ => ⟨rfl, rfl, rfl⟩) t
  | cons statement statements ih =>
    have hstep : Keeps Protected t (after t (statement.run t)) := by
      cases hrun : statement.run t with
      | ok t' => exact keeps_mono (fun _ _ h => h.1) (keeps_run hrun)
      | error e => exact keeps_refl (fun _ => ⟨rfl, rfl, rfl⟩) t
    refine keeps_trans ?_ hstep (ih _)
    intro a b c hab hbc
    exact ⟨hbc.dimension.trans hab.dimension, hbc.value.trans hab.value, hbc.weight.trans hab.weight⟩

theorem row?_insert {rows : List ScoreRow} (h : insert rows t = .ok t') {i : Nat}
    (hrow : t.row? i = some row) : t'.row? i = some row := by
  rwa [Scores.row?, write_slots h, List.getElem?_append_left (lt_of_row? hrow)]

theorem not_expired {cutoff : Time} (hlive : row.live = true) : expired cutoff row = false := by
  simp only [ScoreRow.live, Option.isNone_iff_eq_none] at hlive
  simp [expired, hlive]

theorem row?_expire {cutoff : Time} (h : delete (expired cutoff) t = .ok t') {i : Nat}
    (hrow : t.row? i = some row) (hlive : row.live = true) : t'.row? i = some row := by
  rw [Scores.row?, write_slots h, List.getElem?_map, Option.join_eq_some_iff.1 hrow]
  simp [Option.filter, not_expired hlive]

theorem row?_call {c : RepositoryCall} {i : Nat} (hrow : t.row? i = some row)
    (hlive : row.live = true) : (after t (c.run t)).row? i = some row := by
  cases hrun : c.run t with
  | error e => exact hrow
  | ok t' =>
    obtain hinsert | ⟨cutoff, hdelete⟩ := call_cases hrun
    · exact row?_insert hinsert hrow
    · exact row?_expire hdelete hrow hlive

/-- The repository alone keeps a live row as it is. -/
theorem row?_calls (calls : List RepositoryCall) {t : Scores} {i : Nat} (hrow : t.row? i = some row)
    (hlive : row.live = true) : (runAll (calls.map .call) t).row? i = some row := by
  induction calls generalizing t with
  | nil => exact hrow
  | cons c calls ih => exact ih (row?_call hrow hlive)

/-- What holds of every statement that is accepted, and of the table that it meets. -/
def Each (p : Scores → Statement → Prop) : List Statement → Scores → Prop
  | [], _ => True
  | statement :: statements, t =>
    ((∃ t', statement.run t = .ok t') → p t statement) ∧
      Each p statements (after t (statement.run t))

/-- The statement neither marks the row as deleted nor deletes it. -/
def Statement.Spares (i : Nat) (t : Scores) : Statement → Prop
  | .update _ assign => ∀ row, t.row? i = some row → ∀ new ∈ assign row, new.live = true
  | .delete where_ => ∀ row, t.row? i = some row → where_ row = false
  | .call _ => True

/-- A live row and what is left of it. -/
def LiveAndProtected (row row' : ScoreRow) : Prop := row'.live = true ∧ Protected row row'

theorem row?_statement {statement : Statement} {i : Nat}
    (hspares : (∃ t', statement.run t = .ok t') → statement.Spares i t)
    (hrow : t.row? i = some row) (hlive : row.live = true) :
    ∃ row', (after t (statement.run t)).row? i = some row' ∧ LiveAndProtected row row' := by
  cases hrun : statement.run t with
  | error e => exact ⟨row, hrow, hlive, rfl, rfl, rfl⟩
  | ok t' =>
    have hspares := hspares ⟨t', hrun⟩
    cases statement with
    | call c =>
      have hsame := row?_call (c := c) hrow hlive
      rw [show c.run t = .ok t' from hrun] at hsame
      exact ⟨row, hsame, hlive, rfl, rfl, rfl⟩
    | delete where_ =>
      have hkept : where_ row = false := hspares row hrow
      have hslots := write_slots (show write _ = .ok t' from hrun)
      refine ⟨row, ?_, hlive, rfl, rfl, rfl⟩
      rw [after, Scores.row?, hslots, List.getElem?_map, Option.join_eq_some_iff.1 hrow]
      simp [Option.filter, hkept]
    | update now assign =>
      have hslot := Option.join_eq_some_iff.1 hrow
      have hrow' : t'.row? i = some (updated now assign row) := by
        simp only [Statement.run, update] at hrun
        split at hrun
        · cases hrun
        · rw [Scores.row?, write_slots hrun, List.getElem?_map, hslot]
          rfl
      obtain ⟨_, hback⟩ := keeps_update hrun i (lt_of_row? hrow)
      obtain ⟨old, hold, hprotected, _⟩ := hback _ hrow'
      obtain rfl : row = old := Option.some.inj (hrow.symm.trans hold)
      refine ⟨_, hrow', ?_, hprotected⟩
      unfold updated
      split
      next new hnew => exact hspares row hrow new hnew
      next => exact hlive

theorem row?_statements (statements : List Statement) {t : Scores} {i : Nat}
    (hspares : Each (fun t s => s.Spares i t) statements t) (hrow : t.row? i = some row)
    (hlive : row.live = true) :
    ∃ row', (runAll statements t).row? i = some row' ∧ LiveAndProtected row row' := by
  induction statements generalizing t row with
  | nil => exact ⟨row, hrow, hlive, rfl, rfl, rfl⟩
  | cons statement statements ih =>
    obtain ⟨row₁, hrow₁, hlive₁, h₁⟩ := row?_statement hspares.1 hrow hlive
    obtain ⟨row', hrow', hlive', h'⟩ := ih hspares.2 hrow₁ hlive₁
    exact ⟨row', hrow', hlive', h'.dimension.trans h₁.dimension, h'.value.trans h₁.value,
      h'.weight.trans h₁.weight⟩

/-- Each dimension for which scores of the run are created has a live one. -/
def FullyScored (dimensions : List String) (runId : UUID) (t : Scores) : Prop :=
  ∀ dimension ∈ dimensions, ∃ row ∈ t.rows, row.live = true ∧ row.scored = (runId, dimension)

/-- A statement that leaves the set of the run's live scores to the unique index:
an UPDATE takes no row of the table into the run or out of it and keeps the organization of the run's
rows and whether they are live, a DELETE matches none of its live rows, and a call creates scores of
the run's dimensions only. -/
def Statement.Within (dimensions : List String) (runId : UUID) (t : Scores) : Statement → Prop
  | .update _ assign => ∀ row ∈ t.rows, ∀ new ∈ assign row,
      (row.evaluationRunId = runId ∨ new.evaluationRunId = runId) →
        new.evaluationRunId = row.evaluationRunId ∧ new.organizationId = row.organizationId ∧
          new.live = row.live
  | .delete where_ => ∀ row ∈ t.rows, row.evaluationRunId = runId → row.live = true →
      where_ row = false
  | .call c => ∀ score ∈ c.scores, score.evaluationRunId = runId → score.dimension ∈ dimensions

/-- What the weighted average reads of a row. -/
def measured (row : ScoreRow) : ℚ × ℚ := (row.value, row.weight)

def measurements (runId orgId : UUID) (rows : List ScoreRow) : List (ℚ × ℚ) :=
  (rows.filter (counts runId orgId)).map measured

theorem computeWeightedAverage_congr {runId orgId : UUID}
    (h : measurements runId orgId t'.rows = measurements runId orgId t.rows) :
    computeWeightedAverage runId orgId t' = computeWeightedAverage runId orgId t := by
  have hweights := congrArg (List.map Prod.snd) h
  have hproducts := congrArg (List.map fun m : ℚ × ℚ => m.1 * m.2) h
  simp only [measurements, measured, List.map_map, Function.comp_def] at hweights hproducts
  simp only [computeWeightedAverage, hweights, hproducts]

section Lists

variable {α : Type*}

theorem reduceOption_map_filter (p : α → Bool) (slots : List (Option α)) :
    (slots.map (Option.filter p)).reduceOption = slots.reduceOption.filter p := by
  induction slots with
  | nil => rfl
  | cons slot slots ih =>
    cases slot with
    | none =>
      simp only [List.map_cons, Option.filter_none, List.reduceOption_cons_of_none]
      exact ih
    | some a =>
      rw [List.map_cons, List.reduceOption_cons_of_some, List.filter_cons]
      by_cases hp : p a = true
      · rw [Option.filter_some_pos hp, List.reduceOption_cons_of_some, ih, if_pos hp]
      · rw [Option.filter_some_neg (Bool.not_eq_true _ ▸ hp), List.reduceOption_cons_of_none, ih, if_neg hp]

theorem reduceOption_map_some (rows : List α) : (rows.map some).reduceOption = rows := by
  induction rows with
  | nil => rfl
  | cons a rows ih => rw [List.map_cons, List.reduceOption_cons_of_some, ih]

end Lists

theorem rows_update {now : Time} {assign : ScoreRow → Option ScoreRow}
    (h : update now assign t = .ok t') : t'.rows = t.rows.map (updated now assign) := by
  unfold update at h
  split at h
  · cases h
  · rw [Scores.rows, write_slots h, List.reduceOption_map]
    rfl

theorem rows_delete {where_ : ScoreRow → Bool} (h : delete where_ t = .ok t') :
    t'.rows = t.rows.filter fun row => !where_ row := by
  rw [Scores.rows, write_slots h, reduceOption_map_filter]
  rfl

theorem rows_insert {rows : List ScoreRow} (h : insert rows t = .ok t') :
    t'.rows = t.rows ++ rows := by
  rw [Scores.rows, write_slots h, List.reduceOption_append, reduceOption_map_some]
  rfl

variable {dimensions : List String} {runId : UUID}

/-- An accepted UPDATE within the run leaves each of its rows as live, and as it is scored. -/
theorem updated_within {now : Time} {assign : ScoreRow → Option ScoreRow}
    (h : update now assign t = .ok t')
    (hwithin : (Statement.update now assign).Within dimensions runId t) (hrow : row ∈ t.rows) :
    (row.evaluationRunId = runId → (updated now assign row).live = row.live ∧
      (updated now assign row).scored = row.scored) ∧ measured (updated now assign row) = measured row ∧
      ∀ orgId, counts runId orgId (updated now assign row) = counts runId orgId row := by
  have hpass : (assign row).any (preventScoreUpdate row) = false := by
    unfold update at h
    split at h
    · cases h
    next haccepted =>
      by_contra hraise
      exact haccepted (List.any_eq_true.2 ⟨row, hrow, by simpa using hraise⟩)
  unfold updated
  split
  next new hnew =>
    rw [hnew] at hpass
    obtain ⟨hprotected, _⟩ := preventScoreUpdate_false hpass
    have hkeeps := hwithin row hrow new hnew
    refine ⟨fun hown => ?_, ?_, fun orgId => ?_⟩
    · obtain ⟨hrun, _, hlive⟩ := hkeeps (.inl hown)
      exact ⟨hlive, by simp only [ScoreRow.scored, hrun, hprotected.dimension]⟩
    · simp only [measured, hprotected.value, hprotected.weight]
    · by_cases hown : row.evaluationRunId = runId ∨ new.evaluationRunId = runId
      · obtain ⟨hrun, horg, hlive⟩ := hkeeps hown
        simp only [ScoreRow.live] at hlive
        simp only [counts, ScoreRow.live, hrun, horg, hlive]
      · obtain ⟨hbefore, hafter⟩ := not_or.1 hown
        simp only [counts, hbefore, hafter, decide_false, Bool.false_and]
  next => exact ⟨fun _ => ⟨rfl, rfl⟩, rfl, fun _ => rfl⟩

theorem measurements_map {f : ScoreRow → ScoreRow} {orgId : UUID} {rows : List ScoreRow}
    (hcounts : ∀ row ∈ rows, counts runId orgId (f row) = counts runId orgId row)
    (hmeasured : ∀ row ∈ rows, measured (f row) = measured row) :
    measurements runId orgId (rows.map f) = measurements runId orgId rows := by
  simp only [measurements, List.filter_map, List.map_map]
  have hfilter : rows.filter (counts runId orgId ∘ f) = rows.filter (counts runId orgId) :=
    List.filter_congr hcounts
  rw [hfilter]
  apply List.map_congr_left
  intro row hrow
  exact hmeasured row (List.mem_of_mem_filter hrow)

theorem measurements_filter {keep : ScoreRow → Bool} {orgId : UUID} {rows : List ScoreRow}
    (hkeep : ∀ row ∈ rows, row.evaluationRunId = runId → row.live = true → keep row = true) :
    measurements runId orgId (rows.filter keep) = measurements runId orgId rows := by
  simp only [measurements, List.filter_filter]
  congr 1
  apply List.filter_congr
  intro row hrow
  by_cases hlive : row.evaluationRunId = runId ∧ row.live = true
  · rw [hkeep row hrow hlive.1 hlive.2, Bool.and_true]
  · have hout : counts runId orgId row = false := by
      by_contra hcounts
      simp only [counts, Bool.not_eq_false, Bool.and_eq_true, decide_eq_true_eq] at hcounts
      exact hlive ⟨hcounts.1.1, hcounts.2⟩
    rw [hout, Bool.false_and]

/-- A live row of a fully scored run takes no other live row in beside it. -/
theorem not_counts_of_insert {rows : List ScoreRow} (h : insert rows t = .ok t')
    (hfull : FullyScored dimensions runId t)
    (hrows : ∀ score ∈ rows, score.evaluationRunId = runId → score.dimension ∈ dimensions)
    (orgId : UUID) : ∀ score ∈ rows, counts runId orgId score = false := by
  intro score hscore
  by_contra hcounts
  simp only [counts, Bool.not_eq_false, Bool.and_eq_true, decide_eq_true_eq] at hcounts
  obtain ⟨⟨hrun, _⟩, hlive⟩ := hcounts
  obtain ⟨row, hrow, hrowLive, hscored⟩ := hfull score.dimension (hrows score hscore hrun)
  have hnodup := t'.valid.2.1
  rw [show t'.slots.reduceOption = t.rows ++ rows from rows_insert h, List.filter_append,
    List.map_append, List.nodup_append] at hnodup
  refine hnodup.2.2 row.scored ?_ score.scored ?_ ?_
  · exact List.mem_map_of_mem (List.mem_filter.2 ⟨hrow, hrowLive⟩)
  · exact List.mem_map_of_mem (List.mem_filter.2 ⟨hscore, hlive⟩)
  · rw [hscored, ScoreRow.scored, hrun]

theorem measurements_insert {rows : List ScoreRow} (h : insert rows t = .ok t')
    (hfull : FullyScored dimensions runId t)
    (hrows : ∀ score ∈ rows, score.evaluationRunId = runId → score.dimension ∈ dimensions)
    (orgId : UUID) : measurements runId orgId t'.rows = measurements runId orgId t.rows := by
  have hnone : rows.filter (counts runId orgId) = [] := by
    rw [List.filter_eq_nil_iff]
    intro score hscore
    simp [not_counts_of_insert h hfull hrows orgId score hscore]
  rw [rows_insert h, measurements, List.filter_append, hnone, List.append_nil]
  rfl

/-- What a statement within the run does to the table. -/
theorem statement_cases {statement : Statement} (h : statement.run t = .ok t')
    (hwithin : statement.Within dimensions runId t) :
    (∃ f, t'.rows = t.rows.map f ∧ ∀ row ∈ t.rows,
      (row.evaluationRunId = runId → (f row).live = row.live ∧ (f row).scored = row.scored) ∧
      measured (f row) = measured row ∧
      ∀ orgId, counts runId orgId (f row) = counts runId orgId row) ∨
    (∃ keep, t'.rows = t.rows.filter keep ∧
      ∀ row ∈ t.rows, row.evaluationRunId = runId → row.live = true → keep row = true) ∨
    ∃ rows, insert rows t = .ok t' ∧
      ∀ score ∈ rows, score.evaluationRunId = runId → score.dimension ∈ dimensions := by
  cases statement with
  | update now assign => exact .inl ⟨_, rows_update h, fun row hrow => updated_within h hwithin hrow⟩
  | delete where_ =>
    refine .inr (.inl ⟨_, rows_delete h, fun row hrow hown hlive => ?_⟩)
    rw [hwithin row hrow hown hlive]
    rfl
  | call c =>
    obtain hinsert | ⟨cutoff, hdelete⟩ := call_cases h
    · exact .inr (.inr ⟨_, hinsert, hwithin⟩)
    · refine .inr (.inl ⟨_, rows_delete hdelete, fun row _ _ hlive => ?_⟩)
      rw [not_expired hlive]
      rfl

theorem fullyScored_statement {statement : Statement}
    (hwithin : (∃ t', statement.run t = .ok t') → statement.Within dimensions runId t)
    (hfull : FullyScored dimensions runId t) :
    FullyScored dimensions runId (after t (statement.run t)) := by
  cases hrun : statement.run t with
  | error e => exact hfull
  | ok t' =>
    intro dimension hdimension
    obtain ⟨row, hrow, hlive, hscored⟩ := hfull dimension hdimension
    have hown : row.evaluationRunId = runId := congrArg Prod.fst hscored
    obtain ⟨f, hrows, hf⟩ | ⟨keep, hrows, hkeep⟩ | ⟨rows, hinsert, _⟩ :=
      statement_cases hrun (hwithin ⟨t', hrun⟩)
    · obtain ⟨hflive, hfscored⟩ := (hf row hrow).1 hown
      refine ⟨f row, ?_, hflive.trans hlive, hfscored.trans hscored⟩
      rw [after, hrows]
      exact List.mem_map_of_mem hrow
    · refine ⟨row, ?_, hlive, hscored⟩
      rw [after, hrows]
      exact List.mem_filter.2 ⟨hrow, hkeep row hrow hown hlive⟩
    · refine ⟨row, ?_, hlive, hscored⟩
      rw [after, rows_insert hinsert]
      exact List.mem_append_left _ hrow

theorem measurements_statement {statement : Statement}
    (hwithin : (∃ t', statement.run t = .ok t') → statement.Within dimensions runId t)
    (hfull : FullyScored dimensions runId t) (orgId : UUID) :
    measurements runId orgId (after t (statement.run t)).rows = measurements runId orgId t.rows := by
  cases hrun : statement.run t with
  | error e => rfl
  | ok t' =>
    obtain ⟨f, hrows, hf⟩ | ⟨keep, hrows, hkeep⟩ | ⟨rows, hinsert, hscores⟩ :=
      statement_cases hrun (hwithin ⟨t', hrun⟩)
    · rw [after, hrows]
      apply measurements_map
      · exact fun row hrow => (hf row hrow).2.2 orgId
      · exact fun row hrow => (hf row hrow).2.1
    · rw [after, hrows]
      exact measurements_filter hkeep
    · exact measurements_insert hinsert hfull hscores orgId

theorem measurements_runAll (statements : List Statement) {t : Scores}
    (hwithin : Each (fun t s => s.Within dimensions runId t) statements t)
    (hfull : FullyScored dimensions runId t) (orgId : UUID) :
    measurements runId orgId (runAll statements t).rows = measurements runId orgId t.rows := by
  induction statements generalizing t with
  | nil => rfl
  | cons statement statements ih =>
    obtain ⟨hstep, hrest⟩ := hwithin
    exact (ih hrest (fullyScored_statement hstep hfull)).trans
      (measurements_statement hstep hfull orgId)

/-- What the trigger, the unique index and the repository guarantee of the rows of a table, whatever
statements follow. -/
structure Guaranteed (t : Scores) : Prop where
  /-- No accepted statement changes what the trigger compares in a row that is still there. -/
  protected_ : ∀ (statements : List Statement) (i : Nat) (row row' : ScoreRow), t.row? i = some row →
    (runAll statements t).row? i = some row' → Protected row row'
  /-- No accepted statement replaces one rationale by another. -/
  rationale : ∀ (statement : Statement) (i : Nat) (row row' : ScoreRow), t.row? i = some row →
    (after t (statement.run t)).row? i = some row' →
      ∀ a ∈ row.rationale, ∀ b ∈ row'.rationale, b = a
  /-- A live row stays until a statement deletes it or marks it as deleted. -/
  live : ∀ (statements : List Statement) (i : Nat) (row : ScoreRow),
    Each (fun t s => s.Spares i t) statements t → t.row? i = some row → row.live = true →
      ∃ row', (runAll statements t).row? i = some row' ∧ row'.live = true ∧ Protected row row'
  /-- The repository alone changes nothing of a live row. -/
  repository : ∀ (calls : List RepositoryCall) (i : Nat) (row : ScoreRow), t.row? i = some row →
    row.live = true → (runAll (calls.map .call) t).row? i = some row
  /-- The average is over the same values and weights. -/
  average : ∀ (statements : List Statement) (dimensions : List String) (runId orgId : UUID),
    Each (fun t s => s.Within dimensions runId t) statements t → FullyScored dimensions runId t →
      measurements runId orgId (runAll statements t).rows = measurements runId orgId t.rows ∧
      computeWeightedAverage runId orgId (runAll statements t) = computeWeightedAverage runId orgId t

theorem guaranteed (t : Scores) : Guaranteed t where
  protected_ statements i row row' hrow hrow' := by
    obtain ⟨_, hback⟩ := protected_runAll statements t i (lt_of_row? hrow)
    obtain ⟨old, hold, hprotected⟩ := hback row' hrow'
    obtain rfl : row = old := Option.some.inj (hrow.symm.trans hold)
    exact hprotected
  rationale statement i row row' hrow hrow' := by
    have hkeeps : Keeps Spared t (after t (statement.run t)) := by
      cases hrun : statement.run t with
      | ok t' => exact keeps_run hrun
      | error e => exact keeps_refl spared_refl t
    obtain ⟨old, hold, _, htext⟩ := (hkeeps i (lt_of_row? hrow)).2 row' hrow'
    obtain rfl : row = old := Option.some.inj (hrow.symm.trans hold)
    exact htext
  live statements i row hspares hrow hlive := row?_statements statements hspares hrow hlive
  repository calls i row hrow hlive := row?_calls calls hrow hlive
  average statements dimensions runId orgId hwithin hfull := by
    have hsame := measurements_runAll statements hwithin hfull orgId
    exact ⟨hsame, computeWeightedAverage_congr hsame⟩

section SoftDelete

def scored : ScoreRow :=
  { id := 1, organizationId := 7, evaluationRunId := 5, dimension := "traction", value := 4 / 5, weight := 1,
    rationale := none, breakdown := [] }

def scoreTable : Scores := ⟨[some scored], by decide +kernel⟩

def softDeletion (row : ScoreRow) : Option ScoreRow := some { row with deletedAt := some 9 }

/-- The trigger lets an UPDATE mark a score as deleted. -/
theorem softDeletion_accepted : ¬ Immutable := by
  intro h
  obtain ⟨row', hrow', hlive, _⟩ := h scoreTable 0 scored [.update 9 softDeletion] rfl rfl
  have hmarked : ((runAll [.update 9 softDeletion] scoreTable).row? 0).map ScoreRow.live = some false := by
    decide +kernel
  rw [hrow', Option.map_some, hlive] at hmarked
  cases hmarked

end SoftDelete

end EvalEngine.ScoreImmutability
