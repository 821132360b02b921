import EvalEngine.MetricService
import EvalEngine.Transitions

namespace EvalEngine.MetricNames

open EvalEngine.JsonValues EvalEngine.Exceptions EvalEngine.QueryResults EvalEngine.ConstrainedTables
open EvalEngine.ServiceTables EvalEngine.ServiceContracts EvalEngine.MetricService
open EvalEngine.Transitions
open Entity Stored

/-- What an existence check asks for. -/
inductive Slot
  | builtin (name : String)
  | custom (orgId : UUID) (name : String)

def isHolder : Slot → Metric → Bool
  | .builtin name, metric => decide (metric.name = name) && metric.isBuiltin && metric.deletedAt.isNone
  | .custom orgId name, metric => decide (metric.name = name) &&
      decide (metric.organizationId = some orgId) && metric.deletedAt.isNone

/-- The rows that an existence check finds. -/
def holders (slot : Slot) (tables : Tables) : List Metric := tables.metrics.rows.filter (isHolder slot)

/-- A startup between its look-ups, or a request that has found no metric of the
name. `again` marks a startup after another one has committed. -/
inductive Pending
  | seeding (again : Bool) (todo missing : List MetricDef)
  | creating (orgId : UUID) (body : MetricCreate)

/-- The committed tables and the open transactions, with what each committed
startup has created and what has been raised. -/
structure State where
  tables : Tables
  pending : Nat → Option Pending := fun _ => none
  seeded : Bool := false
  created : List (Bool × Nat) := []
  raised : List PyException := []

inductive Action
  | startup (tx : Nat)
  | lookUp (tx : Nat)
  | commitSeed (tx : Nat)
  | check (tx : Nat) (orgId : UUID) (body : MetricCreate)
  | commitCreate (tx : Nat)
  | rollback (tx : Nat)

def State.wait (s : State) (tx : Nat) (p : Option Pending) : State :=
  { s with pending := Function.update s.pending tx p }

/-- The transaction raises, and is rolled back. -/
def State.fail (s : State) (tx : Nat) (e : PyException) : State :=
  { s.wait tx none with raised := e :: s.raised }

/-- A database without metrics. -/
def start (tables : Tables) : State where
  tables := put (.empty : Table Metric) tables

/-- Every look-up sees what is committed, and what a transaction has inserted is
seen once it commits. -/
def step (s : State) : Action → Option State
  | .startup tx =>
    match s.pending tx with
    | none => some (s.wait tx (some (.seeding s.seeded builtinMetrics [])))
    | some _ => none
  | .lookUp tx =>
    match s.pending tx with
    | some (.seeding again (metricDef :: todo) missing) =>
      match scalarOneOrNone (holders (.builtin metricDef.name) s.tables) with
      | .error e => some (s.fail tx e)
      | .ok (some _) => some (s.wait tx (some (.seeding again todo missing)))
      | .ok none => some (s.wait tx (some (.seeding again todo (missing ++ [metricDef]))))
    | _ => none
  | .commitSeed tx =>
    match s.pending tx with
    | some (.seeding again [] missing) =>
      match insertMetrics missing s.tables with
      | .ok tables =>
        some { s.wait tx none with
          tables
          seeded := true
          created := (again, missing.length) :: s.created }
      | .error e => some (s.fail tx e)
    | _ => none
  | .check tx orgId body =>
    match s.pending tx with
    | none =>
      if textStorable body.name then
        match scalarOneOrNone (holders (.custom orgId body.name) s.tables) with
        | .error e => some (s.fail tx e)
        | .ok (some _) => some (s.fail tx (metricTaken body.name))
        | .ok none => some (s.wait tx (some (.creating orgId body)))
      else some (s.fail tx invalidEncoding)
    | some _ => none
  | .commitCreate tx =>
    match s.pending tx with
    | some (.creating orgId body) =>
      match insertRow (newMetric (table s.tables : Table Metric).freshKey orgId body) s.tables with
      | .ok tables => some { s.wait tx none with tables }
      | .error e => some (s.fail tx e)
    | _ => none
  | .rollback tx => (s.pending tx).map fun _ => s.wait tx none

/-- The names are unique, no check has found two rows, and no startup after
another one has created anything. -/
structure Unique (s : State) : Prop where
  unique : ∀ slot, (holders slot s.tables).length ≤ 1
  checked : PyException.multipleResultsFound ∉ s.raised
  idempotent : ∀ n, (true, n) ∈ s.created → n = 0

/-- Every state that is reached from these tables has unique names. -/
def NamesUnique (ok : State → Action → Prop) (tables : Tables) : Prop :=
  ∀ s, Exec step ok (start tables) s → Unique s

/-- What a transaction inserts is still missing when it commits: no other has
committed the name since the check. -/
def Unraced (s : State) : Action → Prop
  | .commitSeed tx => ∀ again missing, s.pending tx = some (.seeding again [] missing) →
      ∀ metricDef ∈ missing, holders (.builtin metricDef.name) s.tables = []
  | .commitCreate tx => ∀ orgId body, s.pending tx = some (.creating orgId body) →
      holders (.custom orgId body.name) s.tables = []
  | _ => True

theorem holders_builtin (name : String) (tables : Tables) :
    holders (.builtin name) tables = builtinRows name tables := rfl

theorem holders_custom (orgId : UUID) (name : String) (tables : Tables) :
    holders (.custom orgId name) tables = metricRows name orgId tables := rfl

section Insert

/-- The rows that a flush appends are live built-in metrics under the names of
their definitions. -/
structure AppendedFor (defs : List MetricDef) (added : List Metric) : Prop where
  names : added.map Metric.name = defs.map MetricDef.name
  builtin : ∀ metric ∈ added,
    metric.isBuiltin = true ∧ metric.organizationId = none ∧ metric.deletedAt = none

theorem insertMetrics_appends {defs : List MetricDef} {tables after : Tables}
    (h : insertMetrics defs tables = .ok after) : ∃ added,
      after.metrics.rows = tables.metrics.rows ++ added ∧ AppendedFor defs added := by
  induction defs generalizing tables with
  | nil =>
    cases h
    exact ⟨[], by simp, rfl, by rintro metric ⟨⟩⟩
  | cons metricDef rest ih =>
    rw [insertMetrics] at h
    obtain ⟨-, -, mid, hinsert, t, rfl, hrows⟩ | ⟨-, message, hinsert⟩ :=
      insertRow_cases (builtinMetric (table tables : Table Metric).freshKey metricDef) tables rfl
        (by rintro v ⟨⟩)
    · rw [hinsert] at h
      obtain ⟨added, hafter, hnames, hbuiltin⟩ := ih h
      refine ⟨builtinMetric (table tables : Table Metric).freshKey metricDef :: added, ?_, ?_, ?_⟩
      · rw [hafter]
        exact (congrArg (· ++ added) hrows).trans (List.append_assoc _ _ _)
      · rw [List.map_cons, List.map_cons, hnames]
        rfl
      · intro metric hmetric
        obtain rfl | hmetric := List.mem_cons.1 hmetric
        · exact ⟨rfl, rfl, rfl⟩
        · exact hbuiltin metric hmetric
    · rw [hinsert] at h
      cases h

theorem insertMetrics_succeeds {defs : List MetricDef} (hdefs : ∀ d ∈ defs, d ∈ builtinMetrics)
    (tables : Tables) : ∃ after, insertMetrics defs tables = .ok after := by
  obtain ⟨t, added, h, -⟩ := insertMetrics_ok hdefs tables
  exact ⟨_, h⟩

/-- Definitions with different names fill a slot at most once. -/
theorem length_holders_added {defs : List MetricDef} {added : List Metric} (h : AppendedFor defs added)
    (hnodup : (defs.map MetricDef.name).Nodup) (slot : Slot) :
    (added.filter (isHolder slot)).length ≤ 1 := by
  cases slot with
  | builtin name =>
    have hcount : (added.map Metric.name).count name ≤ 1 := by
      rw [h.names]
      exact List.nodup_iff_count_le_one.1 hnodup name
    refine le_trans ?_ hcount
    rw [← List.countP_eq_length_filter, List.count, List.countP_map]
    apply List.countP_mono_left
    intro metric _ hholds
    simp only [isHolder, Bool.and_eq_true, decide_eq_true_eq] at hholds
    simp [hholds.1.1]
  | custom orgId name =>
    have hempty : added.filter (isHolder (.custom orgId name)) = [] := by
      refine List.filter_eq_nil_iff.2 fun metric hmetric hholds => ?_
      simp [isHolder, (h.builtin metric hmetric).2.1] at hholds
    simp [hempty]

theorem holders_added_ne_nil {defs : List MetricDef} {added : List Metric} (h : AppendedFor defs added)
    {d : MetricDef} (hd : d ∈ defs) : added.filter (isHolder (.builtin d.name)) ≠ [] := by
  have hname : d.name ∈ added.map Metric.name := h.names ▸ List.mem_map_of_mem hd
  obtain ⟨metric, hmem, hmetric⟩ := List.mem_map.1 hname
  obtain ⟨hbuiltin, -, hlive⟩ := h.builtin metric hmem
  refine List.ne_nil_of_mem (List.mem_filter.2 ⟨hmem, ?_⟩)
  simp [isHolder, hmetric, hbuiltin, hlive]

end Insert

/-- What an open transaction knows. A row that it has found stays. -/
def Fine (s : State) : Pending → Prop
  | .seeding again todo missing => (missing ++ todo).Sublist builtinMetrics ∧
      (∀ d ∈ builtinMetrics, d ∈ todo ∨ d ∈ missing ∨ holders (.builtin d.name) s.tables ≠ []) ∧
      (again = true → missing = [] ∧ s.seeded = true)
  | .creating _ _ => True

structure Inv (s : State) : Prop extends Unique s where
  seeded : s.seeded = true → ∀ d ∈ builtinMetrics, holders (.builtin d.name) s.tables ≠ []
  pending : ∀ tx p, s.pending tx = some p → Fine s p

section Steps

variable {s t : State}

theorem inv_start (tables : Tables) : Inv (start tables) := by
  refine ⟨⟨fun slot => ?_, by rintro ⟨⟩, by rintro n ⟨⟩⟩, by rintro ⟨⟩, by rintro tx p ⟨⟩⟩
  change ([] : List Metric).length ≤ 1
  exact Nat.zero_le 1

theorem holders_append {slot : Slot} {tables after : Tables} {added : List Metric}
    (h : after.metrics.rows = tables.metrics.rows ++ added) :
    holders slot after = holders slot tables ++ added.filter (isHolder slot) := by
  rw [holders, h, List.filter_append, holders]

theorem fine_wait {tx : Nat} {p : Option Pending} {q : Pending} (h : Fine s q) : Fine (s.wait tx p) q := by
  cases q with
  | seeding again todo missing => exact h
  | creating orgId body => trivial

theorem inv_wait (hinv : Inv s) (tx : Nat) {p : Option Pending} (hp : ∀ q ∈ p, Fine s q) :
    Inv (s.wait tx p) := by
  refine ⟨⟨hinv.unique, hinv.checked, hinv.idempotent⟩, hinv.seeded, ?_⟩
  intro tx' q hq
  obtain ⟨-, hnew⟩ | hold := entry_update hq
  · exact fine_wait (hp q hnew)
  · exact fine_wait (hinv.pending tx' q hold)

theorem inv_fail (hinv : Inv s) (tx : Nat) {e : PyException} (he : e ≠ .multipleResultsFound) :
    Inv (s.fail tx e) := by
  have hwait := inv_wait hinv tx (p := none) (by rintro q ⟨⟩)
  refine ⟨⟨hwait.unique, ?_, hwait.idempotent⟩, hwait.seeded, ?_⟩
  · intro hmem
    obtain heq | hold := List.mem_cons.1 hmem
    · exact he heq.symm
    · exact hinv.checked hold
  · intro tx' q hq
    have hfine := hwait.pending tx' q hq
    cases q with
    | seeding again todo missing => exact hfine
    | creating orgId body => trivial

/-- Rows come in, none goes. -/
theorem inv_grow (hinv : Inv s) {after : Tables} {added : List Metric}
    (hrows : after.metrics.rows = s.tables.metrics.rows ++ added)
    (hunique : ∀ slot, (holders slot after).length ≤ 1) : Inv { s with tables := after } := by
  have hkept : ∀ slot, holders slot s.tables ≠ [] → holders slot after ≠ [] := by
    intro slot hne hnil
    rw [holders_append hrows] at hnil
    exact hne (List.append_eq_nil_iff.1 hnil).1
  refine ⟨⟨hunique, hinv.checked, hinv.idempotent⟩, fun hs d hd => hkept _ (hinv.seeded hs d hd), ?_⟩
  intro tx q hq
  have hfine := hinv.pending tx q hq
  cases q with
  | seeding again todo missing =>
    obtain ⟨hsub, hcover, hagain⟩ := hfine
    exact ⟨hsub, fun d hd => (hcover d hd).imp_right (Or.imp_right (hkept _)), hagain⟩
  | creating orgId body => trivial

/-- With unique names a check finds a row or none. -/
theorem scalarOneOrNone_of_le {α : Type} {rows : List α} (h : rows.length ≤ 1) :
    (rows = [] ∧ scalarOneOrNone rows = .ok none) ∨
      ∃ row, rows = [row] ∧ scalarOneOrNone rows = .ok (some row) := by
  obtain _ | ⟨row, _ | ⟨row', rest⟩⟩ := rows
  · exact .inl ⟨rfl, rfl⟩
  · exact .inr ⟨row, rfl, rfl⟩
  · simp at h

theorem scalarOneOrNone_of_two {α : Type} {rows : List α} (h : 2 ≤ rows.length) :
    scalarOneOrNone rows = .error .multipleResultsFound := by
  obtain _ | ⟨row, _ | ⟨row', rest⟩⟩ := rows
  · simp at h
  · simp at h
  · rfl

theorem inv_lookUp (hinv : Inv s) {tx : Nat} {again : Bool} {d : MetricDef} {todo missing : List MetricDef}
    (htx : s.pending tx = some (.seeding again (d :: todo) missing))
    (h : step s (.lookUp tx) = some t) : Inv t := by
  obtain ⟨hsub, hcover, hagain⟩ := hinv.pending tx _ htx
  simp only [step, htx] at h
  obtain ⟨hnone, hscalar⟩ | ⟨row, hrow, hscalar⟩ := scalarOneOrNone_of_le (hinv.unique (.builtin d.name))
  · rw [hscalar] at h
    cases h
    refine inv_wait hinv tx ?_
    rintro q ⟨⟩
    refine ⟨by simpa using hsub, ?_, ?_⟩
    · intro d' hd'
      obtain htodo | hmissing | hheld := hcover d' hd'
      · obtain rfl | htodo := List.mem_cons.1 htodo
        · exact .inr (.inl (by simp))
        · exact .inl htodo
      · exact .inr (.inl (List.mem_append_left _ hmissing))
      · exact .inr (.inr hheld)
    · intro htrue
      have hd : d ∈ builtinMetrics := hsub.subset (by simp)
      exact absurd hnone (hinv.seeded (hagain htrue).2 d hd)
  · rw [hscalar] at h
    cases h
    refine inv_wait hinv tx ?_
    rintro q ⟨⟩
    refine ⟨(List.Sublist.append_left (List.sublist_cons_self d todo) missing).trans hsub, ?_, hagain⟩
    intro d' hd'
    obtain htodo | hrest := hcover d' hd'
    · obtain rfl | htodo := List.mem_cons.1 htodo
      · exact .inr (.inr (by rw [hrow]; exact List.cons_ne_nil _ _))
      · exact .inl htodo
    · exact .inr hrest

theorem nodup_builtinNames : (builtinMetrics.map MetricDef.name).Nodup := by decide

theorem step_commitSeed (tx : Nat) {again : Bool} {missing : List MetricDef} {after : Tables}
    (htx : s.pending tx = some (.seeding again [] missing))
    (hinsert : insertMetrics missing s.tables = .ok after) :
    step s (.commitSeed tx) = some { s.wait tx none with
      tables := after
      seeded := true
      created := (again, missing.length) :: s.created } := by
  simp only [step, htx, hinsert]

theorem step_commitSeed_error (tx : Nat) {again : Bool} {missing : List MetricDef} {e : PyException}
    (htx : s.pending tx = some (.seeding again [] missing))
    (hinsert : insertMetrics missing s.tables = .error e) :
    step s (.commitSeed tx) = some (s.fail tx e) := by
  simp only [step, htx, hinsert]

theorem inv_commitSeed (hinv : Inv s) {tx : Nat} {again : Bool} {missing : List MetricDef}
    (htx : s.pending tx = some (.seeding again [] missing))
    (hok : ∀ d ∈ missing, holders (.builtin d.name) s.tables = [])
    (h : step s (.commitSeed tx) = some t) : Inv t := by
  obtain ⟨hsub, hcover, hagain⟩ := hinv.pending tx _ htx
  rw [List.append_nil] at hsub
  obtain ⟨after, hinsert⟩ := insertMetrics_succeeds (fun d hd => hsub.subset hd) s.tables
  obtain ⟨added, hrows, hadded⟩ := insertMetrics_appends hinsert
  rw [step_commitSeed tx htx hinsert] at h
  cases h
  have hlength := length_holders_added hadded (nodup_builtinNames.sublist (hsub.map _))
  have hunique : ∀ slot, (holders slot after).length ≤ 1 := by
    intro slot
    rw [holders_append hrows, List.length_append]
    by_cases hempty : added.filter (isHolder slot) = []
    · rw [hempty]
      exact hinv.unique slot
    · -- the slot belongs to a definition that was still missing
      obtain ⟨metric, hmetric⟩ := List.exists_mem_of_ne_nil _ hempty
      obtain ⟨hmem, hholds⟩ := List.mem_filter.1 hmetric
      cases slot with
      | builtin name =>
        have hname : metric.name ∈ missing.map MetricDef.name := hadded.names ▸ List.mem_map_of_mem hmem
        obtain ⟨d, hd, hdname⟩ := List.mem_map.1 hname
        simp only [isHolder, Bool.and_eq_true, decide_eq_true_eq] at hholds
        rw [← hholds.1.1, ← hdname, hok d hd]
        simpa using hlength (.builtin d.name)
      | custom orgId name => simp [isHolder, (hadded.builtin metric hmem).2.1] at hholds
  have hgrow := inv_wait (inv_grow hinv hrows hunique) tx (p := none) (by rintro q ⟨⟩)
  have hfilled : ∀ d ∈ builtinMetrics, holders (.builtin d.name) after ≠ [] := by
    intro d hd
    rw [holders_append hrows]
    obtain htodo | hmissing | hheld := hcover d hd
    · exact absurd htodo List.not_mem_nil
    · exact List.append_ne_nil_of_right_ne_nil _ (holders_added_ne_nil hadded hmissing)
    · exact List.append_ne_nil_of_left_ne_nil hheld _
  refine ⟨⟨hgrow.unique, hgrow.checked, ?_⟩, fun _ => hfilled, ?_⟩
  · intro n hn
    obtain heq | hold := List.mem_cons.1 hn
    · injection heq with htrue hcount
      rw [hcount, (hagain htrue.symm).1, List.length_nil]
    · exact hinv.idempotent n hold
  · intro tx' q hq
    have hfine := hgrow.pending tx' q hq
    cases q with
    | seeding again' todo' missing' => exact ⟨hfine.1, hfine.2.1, fun h => ⟨(hfine.2.2 h).1, rfl⟩⟩
    | creating orgId body => trivial

theorem inv_check (hinv : Inv s) {tx : Nat} {orgId : UUID} {body : MetricCreate}
    (h : step s (.check tx orgId body) = some t) : Inv t := by
  simp only [step] at h
  split at h
  · split at h
    · obtain ⟨-, hscalar⟩ | ⟨row, -, hscalar⟩ :=
        scalarOneOrNone_of_le (hinv.unique (.custom orgId body.name))
      · rw [hscalar] at h
        cases h
        exact inv_wait hinv tx (by rintro q ⟨⟩; trivial)
      · rw [hscalar] at h
        cases h
        exact inv_fail hinv tx (by rintro ⟨⟩)
    · cases h
      exact inv_fail hinv tx (by rintro ⟨⟩)
  · cases h

theorem step_commitCreate (tx : Nat) {orgId : UUID} {body : MetricCreate} {after : Tables}
    (htx : s.pending tx = some (.creating orgId body))
    (hinsert : insertRow (newMetric (table s.tables : Table Metric).freshKey orgId body) s.tables =
      .ok after) : step s (.commitCreate tx) = some { s.wait tx none with tables := after } := by
  simp only [step, htx, hinsert]

theorem step_commitCreate_error (tx : Nat) {orgId : UUID} {body : MetricCreate} {e : PyException}
    (htx : s.pending tx = some (.creating orgId body))
    (hinsert : insertRow (newMetric (table s.tables : Table Metric).freshKey orgId body) s.tables =
      .error e) : step s (.commitCreate tx) = some (s.fail tx e) := by
  simp only [step, htx, hinsert]

theorem inv_commitCreate (hinv : Inv s) {tx : Nat} {orgId : UUID} {body : MetricCreate}
    (htx : s.pending tx = some (.creating orgId body))
    (hok : holders (.custom orgId body.name) s.tables = [])
    (h : step s (.commitCreate tx) = some t) : Inv t := by
  obtain ⟨-, -, after, hinsert, t', rfl, hrows⟩ | ⟨-, message, hinsert⟩ :=
    insertRow_cases (newMetric (table s.tables : Table Metric).freshKey orgId body) s.tables rfl
      (by rintro v ⟨⟩)
  · rw [step_commitCreate tx htx hinsert] at h
    cases h
    have hgrow : Inv { s with tables := put t' s.tables } := inv_grow hinv hrows (fun slot => ?_)
    · exact inv_wait hgrow tx (by rintro q ⟨⟩)
    · rw [holders_append hrows, List.length_append]
      cases slot with
      | builtin name => simpa [isHolder, newMetric] using hinv.unique (.builtin name)
      | custom orgId' name =>
        by_cases hslot : body.name = name ∧ orgId = orgId'
        · obtain ⟨rfl, rfl⟩ := hslot
          rw [hok]
          exact (Nat.zero_add _).le.trans (List.length_filter_le _ _)
        · have hother : [newMetric (table s.tables : Table Metric).freshKey orgId body].filter
              (isHolder (.custom orgId' name)) = [] := by
            simpa [isHolder, newMetric] using hslot
          rw [hother]
          exact hinv.unique (.custom orgId' name)
  · rw [step_commitCreate_error tx htx hinsert] at h
    cases h
    exact inv_fail hinv tx (by rintro ⟨⟩)

/-- The step lemma of the invariant. -/
theorem inv_step (s : State) (a : Action) (t : State) (hinv : Inv s) (hok : Unraced s a)
    (h : step s a = some t) : Inv t := by
  cases a with
  | startup tx =>
    simp only [step] at h
    split at h <;> cases h
    refine inv_wait hinv tx ?_
    rintro q ⟨⟩
    exact ⟨List.Sublist.refl _, fun d hd => .inl hd, fun hs => ⟨rfl, hs⟩⟩
  | lookUp tx =>
    cases htx : s.pending tx with
    | none => simp [step, htx] at h
    | some p =>
      cases p with
      | creating orgId body => simp [step, htx] at h
      | seeding again todo missing =>
        cases todo with
        | nil => simp [step, htx] at h
        | cons d todo => exact inv_lookUp hinv htx h
  | commitSeed tx =>
    cases htx : s.pending tx with
    | none => simp [step, htx] at h
    | some p =>
      cases p with
      | creating orgId body => simp [step, htx] at h
      | seeding again todo missing =>
        cases todo with
        | nil => exact inv_commitSeed hinv htx (hok again missing htx) h
        | cons d todo => simp [step, htx] at h
  | check tx orgId body => exact inv_check hinv h
  | commitCreate tx =>
    cases htx : s.pending tx with
    | none => simp [step, htx] at h
    | some p =>
      cases p with
      | creating orgId body => exact inv_commitCreate hinv htx (hok orgId body htx) h
      | seeding again todo missing => simp [step, htx] at h
  | rollback tx =>
    obtain ⟨p, -, rfl⟩ := Option.map_eq_some_iff.1 h
    exact inv_wait hinv tx (by rintro q ⟨⟩)

end Steps

/-- As long as no two transactions commit one name between the other's check and
its commit, the names are unique. -/
theorem namesUnique_of_unraced (tables : Tables) : NamesUnique Unraced tables := fun _ h =>
  (h.invariant (inv_start tables) inv_step).toUnique

section Alone

open EvalEngine.Transactions EvalEngine.AuditService EvalEngine.RowOperations

variable {s : State} {tx : Nat} {db : Database}

theorem wait_of_pending {p : Option Pending} (h : s.pending tx = p) : s.wait tx p = s := by
  rw [State.wait, ← h, Function.update_eq_self]

theorem wait_wait (p q : Option Pending) : (s.wait tx p).wait tx q = s.wait tx q := by
  simp only [State.wait, Function.update_idem]

theorem wait_fail (p : Option Pending) (e : PyException) : (s.wait tx p).fail tx e = s.fail tx e := by
  simp only [State.fail, wait_wait]
  rfl

/-- The look-ups of a startup that nothing overlaps are the loop of the service. -/
theorem lookUps_alone {again : Bool} {todo missing : List MetricDef}
    (htx : s.pending tx = some (.seeding again todo missing)) (hdb : db.tables = s.tables) :
    (∃ found, (missingMetrics todo).run { state := db } = (.ok found, { state := db }) ∧
      Exec step free s (s.wait tx (some (.seeding again [] (missing ++ found))))) ∨
    ∃ e, (missingMetrics todo).run { state := db } = (.error e, { state := db }) ∧
      Exec step free s (s.fail tx e) := by
  induction todo generalizing s missing with
  | nil =>
    refine .inl ⟨[], rfl, ?_⟩
    rw [List.append_nil, wait_of_pending htx]
    exact .refl s
  | cons d rest ih =>
    have hselect := run_selectOne (builtinRows d.name) db
    rw [hdb, ← holders_builtin] at hselect
    cases hscalar : scalarOneOrNone (holders (.builtin d.name) s.tables) with
    | error e =>
      rw [hscalar] at hselect
      refine .inr ⟨e, ?_, .single (a := .lookUp tx) trivial ?_⟩
      · rw [missingMetrics, run_bind_error hselect]
      · simp only [step, htx, hscalar]
    | ok found =>
      rw [hscalar] at hselect
      have hnext : ∀ missing', step s (.lookUp tx) =
            some (s.wait tx (some (.seeding again rest missing'))) →
          (∃ found, (missingMetrics rest).run { state := db } = (.ok found, { state := db }) ∧
            Exec step free s (s.wait tx (some (.seeding again [] (missing' ++ found))))) ∨
          ∃ e, (missingMetrics rest).run { state := db } = (.error e, { state := db }) ∧
            Exec step free s (s.fail tx e) := by
        intro missing' hstep
        have hfirst : Exec step free s (s.wait tx (some (.seeding again rest missing'))) :=
          .single trivial hstep
        obtain ⟨found, hrun, hexec⟩ | ⟨e, hrun, hexec⟩ :=
          @ih (s.wait tx (some (.seeding again rest missing'))) missing' (Function.update_self ..) hdb
        · rw [wait_wait] at hexec
          exact .inl ⟨found, hrun, hfirst.trans hexec⟩
        · rw [wait_fail] at hexec
          exact .inr ⟨e, hrun, hfirst.trans hexec⟩
      rw [missingMetrics, run_bind_ok hselect]
      cases found with
      | some metric => exact hnext missing (by simp only [step, htx, hscalar])
      | none =>
        obtain ⟨found, hrun, hexec⟩ | ⟨e, hrun, hexec⟩ :=
          hnext (missing ++ [d]) (by simp only [step, htx, hscalar])
        · refine .inl ⟨d :: found, ?_, by simpa using hexec⟩
          simp only
          rw [run_bind_ok hrun, run_pure]
        · refine .inr ⟨e, ?_, hexec⟩
          simp only
          rw [run_bind_error hrun]

/-- The steps of a transaction that nothing overlaps leave the tables as the
service does, and raise what it raises. -/
def EndsLike {α : Type} (s : State) (m : Service α) (db : Database) : Prop :=
  ∃ t, Exec step free s t ∧ t.tables = (transact m db).2.tables ∧
    ∀ e, (transact m db).1 = .error e → t.raised = e :: s.raised

theorem endsLike_of_error {α : Type} {m : Service α} {e : PyException} {t : Transaction Database}
    (hexec : Exec step free s (s.fail tx e)) (hdb : db.tables = s.tables)
    (hrun : m.run { state := db } = (.error e, t)) : EndsLike s m db := by
  refine ⟨_, hexec, ?_⟩
  rw [transact_error hrun]
  refine ⟨hdb.symm, ?_⟩
  rintro e' ⟨⟩
  rfl

theorem startup_alone (hfree : s.pending tx = none) (hdb : db.tables = s.tables) :
    EndsLike s seedBuiltinMetrics db := by
  have hstart : Exec step free s (s.wait tx (some (.seeding s.seeded builtinMetrics []))) :=
    .single (a := .startup tx) trivial (by simp only [step, hfree])
  have hpending : (s.wait tx (some (.seeding s.seeded builtinMetrics []))).pending tx =
      some (.seeding s.seeded builtinMetrics []) := Function.update_self ..
  obtain ⟨found, hrun, hexec⟩ | ⟨e, hrun, hexec⟩ := lookUps_alone hpending hdb
  · rw [wait_wait, List.nil_append] at hexec
    have hlooked := hstart.trans hexec
    have hfound : (s.wait tx (some (.seeding s.seeded [] found))).pending tx =
        some (.seeding s.seeded [] found) := Function.update_self ..
    cases hinsert : insertMetrics found s.tables with
    | ok after =>
      refine ⟨_, hlooked.tail trivial (step_commitSeed tx hfound hinsert), ?_⟩
      rw [← hdb] at hinsert
      rw [transact_ok (by rw [seedBuiltinMetrics, run_bind_ok hrun, run_bind_ok (run_flush_ok hinsert),
        run_pure])]
      exact ⟨rfl, by rintro e ⟨⟩⟩
    | error e =>
      have hfail := step_commitSeed_error tx hfound hinsert
      rw [wait_fail] at hfail
      rw [← hdb] at hinsert
      exact endsLike_of_error (hlooked.tail trivial hfail) hdb
        (by rw [seedBuiltinMetrics, run_bind_ok hrun, run_bind_error (run_flush_error hinsert)])
  · rw [wait_fail] at hexec
    exact endsLike_of_error (hstart.trans hexec) hdb (by rw [seedBuiltinMetrics, run_bind_error hrun])

theorem EndsLike.of_wait {α : Type} {m m' : Service α} {p : Option Pending}
    (h : EndsLike (s.wait tx p) m db) (hexec : Exec step free s (s.wait tx p))
    (hrun : m'.run { state := db } = m.run { state := db }) : EndsLike s m' db := by
  obtain ⟨t, ht, hend⟩ := h
  refine ⟨t, hexec.trans ht, ?_⟩
  rw [transact, hrun]
  exact hend

/-- Where the audit row does not fit, the service stores nothing and the
transaction is rolled back. -/
theorem creation_alone {orgId : UUID} {body : MetricCreate}
    (hpending : s.pending tx = some (.creating orgId body)) (hdb : db.tables = s.tables) (ctx : Context)
    (userId : UUID) (ip : Option String) :
    EndsLike s (newKey Metric >>= fun metricId => storeRow ctx "CREATE"
      (metricReport metricId orgId userId ip) (newMetric metricId orgId body)) db := by
  cases hinsert : insertRow (newMetric (table s.tables : Table Metric).freshKey orgId body) s.tables with
  | error e =>
    have hfail := step_commitCreate_error tx hpending hinsert
    rw [← hdb] at hinsert
    exact endsLike_of_error (.single trivial hfail) hdb
      ((run_bind_ok (run_newKey db)).trans (run_storeRow_error _ _ _ _ _ hinsert))
  | ok after =>
    have hcommit := step_commitCreate tx hpending hinsert
    have hrollback : step s (.rollback tx) = some (s.wait tx none) := by simp only [step, hpending]; rfl
    rw [← hdb] at hinsert
    have hstore := run_storeRow ctx db
      (metricReport (table db.tables : Table Metric).freshKey orgId userId ip) _
      (by decide : AuditAction.ofName "CREATE" = some .create) hinsert
    unfold EndsLike
    rw [transact_ok ((run_bind_ok (run_newKey db)).trans hstore), logged]
    split
    · exact ⟨_, .single trivial hcommit, rfl, by rintro e ⟨⟩⟩
    · exact ⟨_, .single trivial hrollback, hdb.symm, by rintro e ⟨⟩⟩

theorem request_alone (hfree : s.pending tx = none) (hdb : db.tables = s.tables) (ctx : Context)
    (orgId userId : UUID) (body : MetricCreate) (ip : Option String) :
    EndsLike s (createCustomMetric ctx orgId userId body ip) db := by
  cases hname : textStorable body.name with
  | false =>
    have hcheck : step s (.check tx orgId body) = some (s.fail tx invalidEncoding) := by
      simp [step, hfree, hname]
    exact endsLike_of_error (.single trivial hcheck) hdb
      (by rw [createCustomMetric, refuseIfFound, run_bind_error (run_selectByText_nul hname _ db)])
  | true =>
    have hselect := (run_selectByText hname (metricRows body.name orgId) db).trans (run_selectOne _ db)
    rw [hdb, ← holders_custom] at hselect
    cases hscalar : scalarOneOrNone (holders (.custom orgId body.name) s.tables) with
    | error e =>
      rw [hscalar] at hselect
      have hcheck : step s (.check tx orgId body) = some (s.fail tx e) := by
        simp [step, hfree, hname, hscalar]
      exact endsLike_of_error (.single trivial hcheck) hdb
        (by rw [createCustomMetric, refuseIfFound, run_bind_error hselect])
    | ok found =>
      rw [hscalar] at hselect
      cases found with
      | some metric =>
        have hcheck : step s (.check tx orgId body) = some (s.fail tx (metricTaken body.name)) := by
          simp [step, hfree, hname, hscalar]
        exact endsLike_of_error (.single trivial hcheck) hdb
          (by rw [createCustomMetric, refuseIfFound, run_bind_ok hselect, run_raise])
      | none =>
        have hcheck : step s (.check tx orgId body) = some (s.wait tx (some (.creating orgId body))) := by
          simp [step, hfree, hname, hscalar]
        have hrest := creation_alone (s := s.wait tx (some (.creating orgId body)))
          (Function.update_self ..) hdb ctx userId ip
        refine hrest.of_wait (.single trivial hcheck) ?_
        rw [createCustomMetric, refuseIfFound, run_bind_ok hselect]

end Alone

/-- Once the first name is there twice, every startup raises. -/
theorem startup_raises {s : State} (tx : Nat) (htx : s.pending tx = none) {d : MetricDef}
    {todo : List MetricDef} (hd : builtinMetrics = d :: todo)
    (htwo : 2 ≤ (holders (.builtin d.name) s.tables).length) :
    ∃ t, Exec step free s t ∧ PyException.multipleResultsFound ∈ t.raised := by
  have hstart : step s (.startup tx) =
      some (s.wait tx (some (.seeding s.seeded (d :: todo) []))) := by
    simp only [step, htx, hd]
  have hlookUp : step (s.wait tx (some (.seeding s.seeded (d :: todo) []))) (.lookUp tx) =
      some ((s.wait tx (some (.seeding s.seeded (d :: todo) []))).fail tx .multipleResultsFound) := by
    have hscalar := scalarOneOrNone_of_two htwo
    simp only [step, State.wait, Function.update_self, hscalar]
  exact ⟨_, (Exec.single trivial hstart).tail trivial hlookUp, List.mem_cons_self⟩

section Sample

def lookUps (tx : Nat) : List Action := List.replicate 8 (.lookUp tx)

/-- Two workers start at once, and both look every name up. -/
def twoStartups : List Action := [.startup 0, .startup 1] ++ lookUps 0 ++ lookUps 1

def lookedUp : State := (runList step (start .empty) twoStartups).get rfl

/-- The second of two workers gives up when the first has committed, and starts again. -/
theorem second_worker_restarts : ∃ s : State, s.created = [(false, 8)] ∧
    s.pending 1 = some (.seeding true builtinMetrics []) ∧ Unique s := by
  have hlooked : Exec step Unraced (start .empty) lookedUp := (@Exec.refl _ _ step Unraced _).along
    (by simp [twoStartups, lookUps, Unraced] : ∀ a ∈ twoStartups, ∀ s, Unraced s a)
    (Option.some_get _).symm
  have hpending : lookedUp.pending 0 = some (.seeding false [] builtinMetrics) := rfl
  obtain ⟨after, hinsert⟩ := insertMetrics_succeeds (fun _ hd => hd) lookedUp.tables
  have hseeded := hlooked.tail (a := Action.commitSeed 0) (fun _ _ _ _ _ => rfl)
    (step_commitSeed 0 hpending hinsert)
  have hagain := (hseeded.tail (a := Action.rollback 1) trivial rfl).tail (a := Action.startup 1)
    trivial rfl
  exact ⟨_, rfl, rfl, namesUnique_of_unraced .empty _ hagain⟩

/-- Both workers seed every metric, and when a third one starts its first
look-up raises. -/
theorem startups_seed_twice : ¬ ∀ tables, NamesUnique free tables := by
  intro h
  have hrun : Exec step free (start .empty) lookedUp := exec_get _ _ _ rfl
  have hpending : lookedUp.pending 0 = some (.seeding false [] builtinMetrics) := rfl
  have hpending' : lookedUp.pending 1 = some (.seeding false [] builtinMetrics) := rfl
  obtain ⟨mid, hfirst⟩ := insertMetrics_succeeds (fun _ hd => hd) lookedUp.tables
  obtain ⟨after, hsecond⟩ := insertMetrics_succeeds (fun _ hd => hd) mid
  obtain ⟨added, hrows, hadded⟩ := insertMetrics_appends hfirst
  obtain ⟨added', hrows', hadded'⟩ := insertMetrics_appends hsecond
  obtain ⟨s, hcommits, hafter, hfree⟩ :
      ∃ s, Exec step free (start .empty) s ∧ s.tables = after ∧ s.pending 2 = none :=
    ⟨_, (hrun.tail trivial (step_commitSeed 0 hpending hfirst)).tail trivial
      (step_commitSeed 1 hpending' hsecond), rfl, rfl⟩
  obtain ⟨d, todo, hd⟩ : ∃ d todo, builtinMetrics = d :: todo := ⟨_, _, rfl⟩
  have hmem : d ∈ builtinMetrics := hd ▸ List.mem_cons_self
  have htwo : 2 ≤ (holders (.builtin d.name) s.tables).length := by
    have hone := List.length_pos_of_ne_nil (holders_added_ne_nil hadded hmem)
    have hother := List.length_pos_of_ne_nil (holders_added_ne_nil hadded' hmem)
    rw [hafter, holders_append hrows', holders_append hrows, List.length_append, List.length_append]
    omega
  obtain ⟨t, hthird, hraised⟩ := startup_raises 2 hfree hd htwo
  exact (h .empty t (hcommits.trans hthird)).checked hraised

end Sample

end EvalEngine.MetricNames
