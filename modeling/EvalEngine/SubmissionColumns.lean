import EvalEngine.ServiceRequests

namespace EvalEngine.SubmissionColumns

open EvalEngine.JsonValues EvalEngine.Exceptions EvalEngine.RunModel EvalEngine.SubmissionModel
open EvalEngine.ConstrainedTables EvalEngine.ServiceTables EvalEngine.Transactions
open EvalEngine.AuditService EvalEngine.ServiceContracts EvalEngine.RowOperations
open EvalEngine.SubmissionService
open EvalEngine.ServiceRequests (sampleContext)
open Entity Stored

inductive Column
  | id
  | organizationId
  | submittedById
  | startupName
  | description
  | websiteUrl
  | pitchDeckUrl
  | status
  | metadata
  | rawContent
  | createdAt
  | updatedAt
  | deletedAt
  deriving DecidableEq

/-- The two rows have the same value in the column. -/
def Column.Same : Column → Submission → Submission → Prop
  | .id, s, s' => s.id = s'.id
  | .organizationId, s, s' => s.organizationId = s'.organizationId
  | .submittedById, s, s' => s.submittedById = s'.submittedById
  | .startupName, s, s' => s.startupName = s'.startupName
  | .description, s, s' => s.description = s'.description
  | .websiteUrl, s, s' => s.websiteUrl = s'.websiteUrl
  | .pitchDeckUrl, s, s' => s.pitchDeckUrl = s'.pitchDeckUrl
  | .status, s, s' => s.status = s'.status
  | .metadata, s, s' => s.metadata = s'.metadata
  | .rawContent, s, s' => s.rawContent = s'.rawContent
  | .createdAt, s, s' => s.createdAt = s'.createdAt
  | .updatedAt, s, s' => s.updatedAt = s'.updatedAt
  | .deletedAt, s, s' => s.deletedAt = s'.deletedAt

/-- A field of the body that is not `None`. -/
inductive Field
  | startupName (value : String)
  | description (value : String)
  | websiteUrl (value : String)
  | pitchDeckUrl (value : String)
  | status (value : SubmissionStatus)
  | metadata (value : Dict)

def Field.column : Field → Column
  | .startupName _ => .startupName
  | .description _ => .description
  | .websiteUrl _ => .websiteUrl
  | .pitchDeckUrl _ => .pitchDeckUrl
  | .status _ => .status
  | .metadata _ => .metadata

/-- The row has the given value in the column of the field. -/
def Field.ShownBy (submission : Submission) : Field → Prop
  | .startupName value => submission.startupName = value
  | .description value => submission.description = some value
  | .websiteUrl value => submission.websiteUrl = some value
  | .pitchDeckUrl value => submission.pitchDeckUrl = some value
  | .status value => submission.status = value
  | .metadata value => submission.metadata = value

/-- What the loop over `body.model_dump(exclude_unset=True)` does not pass over. -/
def given (updates : SubmissionUpdate) : List Field :=
  (updates.startupName.map Field.startupName).toList ++
    ((updates.description.map Field.description).toList ++
    ((updates.websiteUrl.map Field.websiteUrl).toList ++
    ((updates.pitchDeckUrl.map Field.pitchDeckUrl).toList ++
    ((updates.status.map Field.status).toList ++ (updates.metadata.map Field.metadata).toList))))

/-- `setattr(submission, field, value)`. The class has an attribute of each of
these names, but `metadata` is the MetaData of the declarative base: the instance
gets an attribute of its own, and the column keeps its value. -/
def setattr (submission : Submission) : Field → Submission
  | .startupName value => { submission with startupName := value }
  | .description value => { submission with description := some value }
  | .websiteUrl value => { submission with websiteUrl := some value }
  | .pitchDeckUrl value => { submission with pitchDeckUrl := some value }
  | .status value => { submission with status := value }
  | .metadata _ => submission

/-- A text that is longer than its column by nothing but spaces. -/
def isPadded (n : ℕ) (s : String) : Bool :=
  decide (n < s.length) && (s.toList.drop n).all (· == ' ')

/-- What an assignment to `varchar(n)` makes of a text: the spaces beyond `n`
characters are cut off, and anything else there is refused. -/
def assigned (n : ℕ) (s : String) : String :=
  if isPadded n s then String.ofList (s.toList.take n) else s

def stored (submission : Submission) : Submission :=
  { submission with
    startupName := assigned 255 submission.startupName
    websiteUrl := submission.websiteUrl.map (assigned 2048)
    pitchDeckUrl := submission.pitchDeckUrl.map (assigned 2048) }

def updateSubmission (ctx : Context) (submissionId orgId userId : UUID) (updates : SubmissionUpdate)
    (ip : Option String) : Service Submission := do
  let submission ← getScoped Submission "Submission" submissionId orgId
  let changed := stamp ctx.now submission ((given updates).foldl setattr submission)
  flush (updateRow (stored changed))
  audit ctx "UPDATE" (submissionReport submission.id orgId userId ip)
  pure changed

def getSubmission (submissionId orgId : UUID) : Service Submission :=
  getScoped Submission "Submission" submissionId orgId

/-- The update did what it says. -/
structure Does (updates : SubmissionUpdate) (before after : Submission) : Prop where
  shown : ∀ field ∈ given updates, field.ShownBy after
  others : ∀ column, column ∉ (given updates).map Field.column → column ≠ .updatedAt →
    column.Same after before

/-- The body has no text that its column cuts off. -/
structure Uncut (updates : SubmissionUpdate) : Prop where
  startupName : ∀ value ∈ updates.startupName, isPadded 255 value = false
  websiteUrl : ∀ value ∈ updates.websiteUrl, isPadded 2048 value = false
  pitchDeckUrl : ∀ value ∈ updates.pitchDeckUrl, isPadded 2048 value = false

/-- The body has no other metadata than the row, and no text that is cut off. -/
structure Settable (updates : SubmissionUpdate) (before : Submission) : Prop extends Uncut updates where
  metadata : ∀ value ∈ updates.metadata, value = before.metadata

variable {updates : SubmissionUpdate} {before submission : Submission}

theorem foldl_setattr_eq : (given updates).foldl setattr submission = updates.apply submission := by
  obtain ⟨startupName, description, websiteUrl, pitchDeckUrl, status, metadata⟩ := updates
  simp only [given, List.foldl_append]
  cases startupName <;> cases description <;> cases websiteUrl <;> cases pitchDeckUrl <;>
    cases status <;> cases metadata <;> rfl

theorem assigned_eq {n : ℕ} {s : String} (h : isPadded n s = false) : assigned n s = s := by
  rw [assigned, h, if_neg Bool.false_ne_true]

theorem assigned_eq_iff {n : ℕ} {s : String} : assigned n s = s ↔ isPadded n s = false := by
  constructor
  · intro h
    rw [← Bool.not_eq_true]
    intro hpadded
    rw [assigned, if_pos hpadded] at h
    have hlength := congrArg String.length h
    have hlt : n < s.length := by
      simp only [isPadded, Bool.and_eq_true, decide_eq_true_eq] at hpadded
      exact hpadded.1
    rw [String.length_ofList, List.length_take, String.length_toList] at hlength
    omega
  · exact assigned_eq

theorem isPadded_of_varchar {n : ℕ} {s : String} (h : varchar n s = true) : isPadded n s = false := by
  have hle : s.length ≤ n := by
    simp only [varchar, Bool.and_eq_true, decide_eq_true_eq] at h
    exact h.1
  simp [isPadded, Nat.not_lt.2 hle]

theorem scopedRow_updated {ρ : Type} [Scoped ρ] {id orgId : UUID} {row : ρ} {tables after : Tables}
    (h : Updated row tables after) (hrow : isScoped id orgId row = true)
    (hold : ∃ old ∈ (table tables : Table ρ).rows, key old = key row) :
    scopedRow ρ id orgId after = some row := by
  obtain ⟨t, rfl, hrows⟩ := h
  obtain ⟨old, hmem, hkey⟩ := hold
  have hin : row ∈ t.rows := by
    rw [hrows]
    exact List.mem_map.2 ⟨old, hmem, if_pos hkey⟩
  have hid : ∀ r : ρ, isScoped id orgId r = true → key r = id := by
    intro r hr
    simp only [isScoped, Bool.and_eq_true, decide_eq_true_eq] at hr
    exact hr.1.1
  rw [scopedRow, table_put]
  cases hfind : t.rows.find? (isScoped id orgId) with
  | none => exact absurd hrow (List.find?_eq_none.1 hfind row hin)
  | some r =>
    have hr := List.find?_some hfind
    rw [t.eq_of_key (List.mem_of_find?_eq_some hfind) hin ((hid r hr).trans (hid row hrow).symm)]

section Run

variable {ctx : Context} {db : Database} {submissionId orgId userId : UUID} {ip : Option String}

theorem updateSubmission_run (hlive : scopedRow Submission submissionId orgId db.tables = some before) :
    (updateSubmission ctx submissionId orgId userId updates ip).run { state := db } =
      (do
        flush (updateRow (stored (updatedRow ctx.now updates before)))
        audit ctx "UPDATE" (submissionReport before.id orgId userId ip)
        pure (updatedRow ctx.now updates before) : Service Submission).run { state := db } := by
  rw [updateSubmission, run_bind_ok (run_getScoped_some "Submission" hlive), foldl_setattr_eq]
  rfl

/-- The update returns if the stored values fit, and then the row is in the session. -/
theorem updateSubmission_cases
    (hlive : scopedRow Submission submissionId orgId db.tables = some before) :
    (∃ after, Updated (stored (updatedRow ctx.now updates before)) db.tables after ∧
        (updateSubmission ctx submissionId orgId userId updates ip).run { state := db } =
          (.ok (updatedRow ctx.now updates before), logged ctx
            ((submissionReport before.id orgId userId ip).entry .update) { db with tables := after })) ∨
      fits (stored (updatedRow ctx.now updates before)) = false ∧ ∃ e,
        ((updateSubmission ctx submissionId orgId userId updates ip).run { state := db }).1 = .error e := by
  have hkey : key (stored (updatedRow ctx.now updates before)) = key before :=
    key_updatedRow ctx.now before
  rw [updateSubmission_run hlive]
  obtain ⟨_, after, hupdate, hafter⟩ | ⟨hrefused, message, hupdate⟩ :=
    updateRow_cases (stored (updatedRow ctx.now updates before)) db.tables (scopedRow_some hlive).1
      hkey rfl
  · have haction : AuditAction.ofName "UPDATE" = some .update := by decide
    refine .inl ⟨after, hafter, ?_⟩
    rw [run_bind_ok (run_flush_ok hupdate), run_bind_ok (run_audit haction _ _ _), run_pure]
  · refine .inr ⟨hrefused, .databaseError message, ?_⟩
    rw [run_bind_error (run_flush_error hupdate)]

/-- What an update that commits leaves for the next look-up. -/
theorem scopedRow_committed {returned : Submission} {t : Transaction Database}
    (hlive : scopedRow Submission submissionId orgId db.tables = some before)
    (hrun : (updateSubmission ctx submissionId orgId userId updates ip).run { state := db } =
      (.ok returned, t)) :
    scopedRow Submission submissionId orgId t.state.tables =
      some (stored (updatedRow ctx.now updates before)) := by
  have hscoped : isScoped submissionId orgId (stored (updatedRow ctx.now updates before)) = true := by
    have hbefore := List.find?_some hlive
    rw [← hbefore]
    unfold updatedRow SubmissionService.stamp
    split <;> rfl
  obtain ⟨after, hafter, hok⟩ | ⟨_, e, herror⟩ :=
    @updateSubmission_cases updates before ctx db submissionId orgId userId ip hlive
  · rw [hrun, Prod.mk.injEq] at hok
    rw [hok.2, logged_tables]
    exact scopedRow_updated hafter hscoped
      ⟨before, (scopedRow_some hlive).1, (key_updatedRow ctx.now before).symm⟩
  · rw [hrun] at herror
    cases herror

end Run

theorem mem_given {field : Field} : field ∈ given updates ↔
    match field with
    | .startupName value => updates.startupName = some value
    | .description value => updates.description = some value
    | .websiteUrl value => updates.websiteUrl = some value
    | .pitchDeckUrl value => updates.pitchDeckUrl = some value
    | .status value => updates.status = some value
    | .metadata value => updates.metadata = some value := by
  cases field <;> simp [given]

/-- A column that no field names is of a field that is `None`. -/
theorem eq_none_of_notMem {α : Type} {value : Option α} (field : α → Field) {column : Column}
    (hgiven : ∀ v, value = some v → field v ∈ given updates) (hcolumn : ∀ v, (field v).column = column)
    (h : column ∉ (given updates).map Field.column) : value = none := by
  cases hvalue : value with
  | none => rfl
  | some v => exact absurd (List.mem_map.2 ⟨field v, hgiven v hvalue, hcolumn v⟩) h

section Columns

variable (now : Time)

theorem stored_startupName : (stored (updatedRow now updates before)).startupName =
    assigned 255 (updates.startupName.getD before.startupName) := by
  unfold updatedRow SubmissionService.stamp
  split <;> rfl

theorem stored_description : (stored (updatedRow now updates before)).description =
    updates.description.or before.description := by
  unfold updatedRow SubmissionService.stamp
  split <;> rfl

theorem stored_websiteUrl : (stored (updatedRow now updates before)).websiteUrl =
    (updates.websiteUrl.or before.websiteUrl).map (assigned 2048) := by
  unfold updatedRow SubmissionService.stamp
  split <;> rfl

theorem stored_pitchDeckUrl : (stored (updatedRow now updates before)).pitchDeckUrl =
    (updates.pitchDeckUrl.or before.pitchDeckUrl).map (assigned 2048) := by
  unfold updatedRow SubmissionService.stamp
  split <;> rfl

theorem stored_status : (stored (updatedRow now updates before)).status =
    updates.status.getD before.status := by
  unfold updatedRow SubmissionService.stamp
  split <;> rfl

theorem stored_metadata : (stored (updatedRow now updates before)).metadata = before.metadata :=
  metadata_updatedRow now before

end Columns

/-- The texts of a row that is there are stored as they are. -/
theorem assigned_of_fits (h : fits before = true) : assigned 255 before.startupName = before.startupName ∧
    before.websiteUrl.map (assigned 2048) = before.websiteUrl ∧
    before.pitchDeckUrl.map (assigned 2048) = before.pitchDeckUrl := by
  have hmap : ∀ text : Option String, text.all (varchar 2048) = true →
      text.map (assigned 2048) = text := by
    intro text htext
    cases text with
    | none => rfl
    | some s => exact congrArg some (assigned_eq (isPadded_of_varchar htext))
  have hfits : (varchar 255 before.startupName && before.description.all textStorable &&
      before.websiteUrl.all (varchar 2048) && before.pitchDeckUrl.all (varchar 2048) &&
      dictStorable before.metadata && dictStorable before.rawContent) = true := h
  simp only [Bool.and_eq_true] at hfits
  exact ⟨assigned_eq (isPadded_of_varchar hfits.1.1.1.1.1), hmap _ hfits.1.1.1.2, hmap _ hfits.1.1.2⟩

theorem Settable.shown (h : Settable updates before) (now : Time) :
    ∀ field ∈ given updates, field.ShownBy (stored (updatedRow now updates before)) := by
  intro field hfield
  rw [mem_given] at hfield
  cases field with
  | startupName value =>
    have hvalue := assigned_eq (h.startupName value hfield)
    simp only [Field.ShownBy, stored_startupName, hfield, Option.getD_some, hvalue]
  | description value =>
    simp only [Field.ShownBy, stored_description, hfield, Option.some_or]
  | websiteUrl value =>
    have hvalue := assigned_eq (h.websiteUrl value hfield)
    simp only [Field.ShownBy, stored_websiteUrl, hfield, Option.some_or, Option.map_some, hvalue]
  | pitchDeckUrl value =>
    have hvalue := assigned_eq (h.pitchDeckUrl value hfield)
    simp only [Field.ShownBy, stored_pitchDeckUrl, hfield, Option.some_or, Option.map_some, hvalue]
  | status value =>
    simp only [Field.ShownBy, stored_status, hfield, Option.getD_some]
  | metadata value =>
    rw [Field.ShownBy, stored_metadata, h.metadata value hfield]

theorem settable_of_shown {now : Time}
    (h : ∀ field ∈ given updates, field.ShownBy (stored (updatedRow now updates before))) :
    Settable updates before := by
  refine ⟨⟨?_, ?_, ?_⟩, ?_⟩
  · intro value hvalue
    have hshown := h (.startupName value) (mem_given.2 hvalue)
    rw [Field.ShownBy, stored_startupName, Option.mem_def.1 hvalue, Option.getD_some] at hshown
    exact assigned_eq_iff.1 hshown
  · intro value hvalue
    have hshown := h (.websiteUrl value) (mem_given.2 hvalue)
    rw [Field.ShownBy, stored_websiteUrl, Option.mem_def.1 hvalue, Option.some_or, Option.map_some,
      Option.some.injEq] at hshown
    exact assigned_eq_iff.1 hshown
  · intro value hvalue
    have hshown := h (.pitchDeckUrl value) (mem_given.2 hvalue)
    rw [Field.ShownBy, stored_pitchDeckUrl, Option.mem_def.1 hvalue, Option.some_or, Option.map_some,
      Option.some.injEq] at hshown
    exact assigned_eq_iff.1 hshown
  · intro value hvalue
    have hshown := h (.metadata value) (mem_given.2 hvalue)
    rw [Field.ShownBy, stored_metadata] at hshown
    exact hshown.symm

/-- No column but those that the body names changes, whatever it says. -/
theorem others_kept (hfits : fits before = true) (now : Time) : ∀ column,
    column ∉ (given updates).map Field.column → column ≠ .updatedAt →
      column.Same (stored (updatedRow now updates before)) before := by
  obtain ⟨hname, hwebsite, hdeck⟩ := assigned_of_fits hfits
  intro column hcolumn hupdated
  cases column with
  | updatedAt => exact absurd rfl hupdated
  | startupName =>
    have hnone : updates.startupName = none :=
      eq_none_of_notMem .startupName (fun _ hv => mem_given.2 hv) (fun _ => rfl) hcolumn
    simp only [Column.Same, stored_startupName, hnone, Option.getD_none, hname]
  | description =>
    have hnone : updates.description = none :=
      eq_none_of_notMem .description (fun _ hv => mem_given.2 hv) (fun _ => rfl) hcolumn
    simp only [Column.Same, stored_description, hnone, Option.none_or]
  | websiteUrl =>
    have hnone : updates.websiteUrl = none :=
      eq_none_of_notMem .websiteUrl (fun _ hv => mem_given.2 hv) (fun _ => rfl) hcolumn
    simp only [Column.Same, stored_websiteUrl, hnone, Option.none_or, hwebsite]
  | pitchDeckUrl =>
    have hnone : updates.pitchDeckUrl = none :=
      eq_none_of_notMem .pitchDeckUrl (fun _ hv => mem_given.2 hv) (fun _ => rfl) hcolumn
    simp only [Column.Same, stored_pitchDeckUrl, hnone, Option.none_or, hdeck]
  | status =>
    have hnone : updates.status = none :=
      eq_none_of_notMem .status (fun _ hv => mem_given.2 hv) (fun _ => rfl) hcolumn
    simp only [Column.Same, stored_status, hnone, Option.getD_none]
  | metadata => exact stored_metadata now
  | id | organizationId | submittedById | rawContent | createdAt | deletedAt =>
    unfold updatedRow SubmissionService.stamp
    split <;> rfl

theorem map_assigned_or {given old : Option String} (hgiven : ∀ value ∈ given, isPadded 2048 value = false)
    (hold : old.map (assigned 2048) = old) :
    (given.or old).map (assigned 2048) = given.or old := by
  cases given with
  | none => exact hold
  | some value => exact congrArg some (assigned_eq (hgiven value rfl))

theorem Uncut.stored_eq (h : Uncut updates) (hfits : fits before = true) (now : Time) :
    stored (updatedRow now updates before) = updatedRow now updates before := by
  obtain ⟨hname, hwebsite, hdeck⟩ := assigned_of_fits hfits
  have hname' : assigned 255 (updates.startupName.getD before.startupName) =
      updates.startupName.getD before.startupName := by
    cases hvalue : updates.startupName with
    | none => exact hname
    | some value => exact assigned_eq (h.startupName value hvalue)
  have hwebsite' := map_assigned_or h.websiteUrl hwebsite
  have hdeck' := map_assigned_or h.pitchDeckUrl hdeck
  unfold updatedRow SubmissionService.stamp
  split <;> simp only [stored, SubmissionUpdate.apply, hname', hwebsite', hdeck']

/-- Where no text is cut off, this is the update of the submission service. -/
theorem Uncut.run_eq (h : Uncut updates) (ctx : Context) (db : Database)
    (submissionId orgId userId : UUID) (ip : Option String) :
    (updateSubmission ctx submissionId orgId userId updates ip).run { state := db } =
      (SubmissionService.updateSubmission ctx submissionId orgId userId updates ip).run
        { state := db } := by
  cases hrow : scopedRow Submission submissionId orgId db.tables with
  | none =>
    have hnone := run_getScoped_none (ρ := Submission) "Submission" hrow
    rw [updateSubmission, run_bind_error hnone, SubmissionService.updateSubmission, changeScoped,
      run_bind_error hnone]
  | some before =>
    have hfits : fits before = true := db.tables.submissions.fits_of_mem (scopedRow_some hrow).1
    rw [updateSubmission_run hrow, h.stored_eq hfits, SubmissionService.updateSubmission, changeScoped,
      run_bind_ok (run_getScoped_some "Submission" hrow)]
    rfl

/-- An update that commits did what it says if and only if it asked for no new
metadata, and for no text that its column cuts off. -/
theorem update_does_iff (ctx : Context) (db : Database) (submissionId orgId userId : UUID)
    (updates : SubmissionUpdate) (ip : Option String) (before returned : Submission)
    (t : Transaction Database) (hlive : scopedRow Submission submissionId orgId db.tables = some before)
    (hrun : (updateSubmission ctx submissionId orgId userId updates ip).run { state := db } =
      (.ok returned, t))
    (hcommit : t.aborted = false) :
    (∃ after, transact (getSubmission submissionId orgId) (commit db t) = (.ok after, commit db t) ∧
      Does updates before after) ↔ Settable updates before := by
  have hfits : fits before = true := db.tables.submissions.fits_of_mem (scopedRow_some hlive).1
  have hcommitted : commit db t = t.state := by
    rw [commit, hcommit, if_neg Bool.false_ne_true]
  have hget := transact_ok (run_getScoped_some "Submission" (scopedRow_committed hlive hrun))
  rw [hcommitted, getSubmission, hget, commit_open]
  constructor
  · rintro ⟨after, hafter, hdoes⟩
    cases hafter
    exact settable_of_shown hdoes.shown
  · intro hsettable
    exact ⟨_, rfl, hsettable.shown ctx.now, others_kept hfits ctx.now⟩

section Sample

def draft : Submission where
  id := 1
  organizationId := 1
  submittedById := none
  startupName := "Acme"
  createdAt := 0
  updatedAt := 0

theorem valid_draft : Valid [draft] := by
  refine ⟨List.nodup_singleton _, List.nodup_nil, ?_⟩
  intro submission hsubmission
  obtain rfl := List.mem_singleton.1 hsubmission
  decide +kernel

def oneDraft : Database :=
  { Database.created with tables := { Tables.empty with submissions := ⟨[draft], valid_draft⟩ } }

theorem logged_open {ctx : Context} {entry : AuditEntry} {db : Database}
    (h : (auditRow ctx entry).fits db.auditLabels = true) : (logged ctx entry db).aborted = false := by
  rw [logged, if_pos h]

theorem live_draft : scopedRow Submission 1 1 oneDraft.tables = some draft := rfl

/-- The update of the draft is accepted and committed. -/
theorem draft_committed (updates : SubmissionUpdate)
    (hfits : fits (stored (updatedRow 0 updates draft)) = true) : ∃ t,
    (updateSubmission sampleContext 1 1 1 updates none).run { state := oneDraft } =
      (.ok (updatedRow 0 updates draft), t) ∧ t.aborted = false := by
  obtain ⟨after, _, hok⟩ | ⟨hrefused, _⟩ :=
    @updateSubmission_cases updates draft sampleContext oneDraft 1 1 1 none live_draft
  · refine ⟨_, hok, ?_⟩
    have hrow := auditRow_fits sampleContext
      ((submissionReport 1 1 1 none).entry_fits (submissionReport_fits 1 1 1 none) .update)
      oneDraft.auditLabels
    have haccepted : (oneDraft.auditLabels.contains AuditAction.update.name && true &&
        varchar 36 sampleContext.requestId) = true := by
      decide +kernel
    exact logged_open (hrow.trans haccepted)
  · have hfalse := hrefused.symm.trans hfits
    cases hfalse

/-- The sector of the startup is sent. -/
def sector : SubmissionUpdate := { metadata := some [("sector", .str "fintech")] }

theorem update_does_not_set_metadata : ∃ t,
    (updateSubmission sampleContext 1 1 1 sector none).run { state := oneDraft } =
      (.ok (updatedRow 0 sector draft), t) ∧ t.aborted = false ∧
      ¬ ∃ after, transact (getSubmission 1 1) (commit oneDraft t) = (.ok after, commit oneDraft t) ∧
        Does sector draft after := by
  obtain ⟨t, hrun, hcommit⟩ := draft_committed sector (by decide +kernel)
  refine ⟨t, hrun, hcommit, ?_⟩
  have hcommitted : commit oneDraft t = t.state := by
    rw [commit, hcommit, if_neg Bool.false_ne_true]
  have hget := transact_ok (run_getScoped_some "Submission" (scopedRow_committed live_draft hrun))
  rw [hcommitted, getSubmission, hget]
  rintro ⟨after, hafter, hdoes⟩
  cases hafter
  have hshown := hdoes.shown (.metadata [("sector", .str "fintech")]) (List.mem_singleton_self _)
  cases hshown

/-- The draft is renamed and handed in. -/
def renamed : SubmissionUpdate := { startupName := some "Acme Labs", status := some .submitted }

theorem update_does_rename : ∃ t,
    (updateSubmission sampleContext 1 1 1 renamed none).run { state := oneDraft } =
      (.ok (updatedRow 0 renamed draft), t) ∧
      ∃ after, transact (getSubmission 1 1) (commit oneDraft t) = (.ok after, commit oneDraft t) ∧
        Does renamed draft after := by
  obtain ⟨t, hrun, hcommit⟩ := draft_committed renamed (by decide +kernel)
  refine ⟨t, hrun, (update_does_iff sampleContext oneDraft 1 1 1 renamed none draft _ t live_draft hrun
    hcommit).2 ?_⟩
  refine ⟨⟨?_, ?_, ?_⟩, ?_⟩
  · rintro value ⟨⟩
    decide
  · rintro value ⟨⟩
  · rintro value ⟨⟩
  · rintro value ⟨⟩

end Sample

end EvalEngine.SubmissionColumns
