import EvalEngine.EvaluationService
import EvalEngine.SubmissionLifecycle

namespace EvalEngine.ConfigEdits

open EvalEngine.JsonValues EvalEngine.RunModel EvalEngine.ServiceTables EvalEngine.EvaluationService
open EvalEngine.Transitions
open EvalEngine.BaseEvalTask (flushed)
open EvalEngine.SubmissionLifecycle (flushed_self)

/-- A request for one config, with what its body brings. -/
inductive Request
  | update (updates : EvaluationConfigUpdate)
  | delete (now : Time)

/-- What the request does to the object that it has loaded. -/
def Request.apply : Request → EvaluationConfig → EvaluationConfig
  | .update updates => updates.apply
  | .delete now => softDeleteConfig now

def Request.isUpdate : Request → Bool
  | .update _ => true
  | .delete _ => false

/-- The `pipeline_config` that the request sets. -/
def Request.pipelineConfig? : Request → Option Dict
  | .update updates => updates.pipelineConfig
  | .delete _ => none

/-- `pipeline_config` is sent if it has been set to a dict that differs, under the
`==` of Python, from the loaded one. -/
def flushedDict (set : Option Dict) (loaded current : Dict) : Dict :=
  match set with
  | some d => if dictEqual d loaded then current else d
  | none => current

/-- The UPDATE by primary key, with the attributes that differ from the loaded ones. -/
def flush (request : Request) (loaded row : EvaluationConfig) : EvaluationConfig :=
  { row with
    name := flushed loaded.name (request.apply loaded).name row.name
    description := flushed loaded.description (request.apply loaded).description row.description
    pipelineConfig := flushedDict request.pipelineConfig? loaded.pipelineConfig row.pipelineConfig
    webhookUrl := flushed loaded.webhookUrl (request.apply loaded).webhookUrl row.webhookUrl
    isTemplate := flushed loaded.isTemplate (request.apply loaded).isTemplate row.isTemplate
    version := flushed loaded.version (request.apply loaded).version row.version
    deletedAt := flushed loaded.deletedAt (request.apply loaded).deletedAt row.deletedAt }

/-- A write: the row that the request has read, the one that its UPDATE finds,
and the one that it leaves. -/
structure Write where
  request : Request
  loaded : EvaluationConfig
  before : EvaluationConfig
  after : EvaluationConfig

/-- The row, the requests that have read it, the transaction that holds its
lock, and the committed writes in the order of their commits. -/
structure State where
  row : EvaluationConfig
  loaded : Nat → Option (Request × EvaluationConfig) := fun _ => none
  holder : Option (Nat × Write) := none
  writes : List Write := []

inductive Action
  | read (client : Nat) (request : Request)
  | flush (client : Nat)
  | commit (client : Nat)
  | rollback (client : Nat)

def step (s : State) : Action → Option State
  | .read client request =>
    if s.row.deletedAt.isSome then none
    else some { s with loaded := Function.update s.loaded client (some (request, s.row)) }
  | .flush client =>
    match s.holder, s.loaded client with
    | none, some (request, loaded) =>
      some { s with
        loaded := Function.update s.loaded client none
        holder := some (client, ⟨request, loaded, s.row, flush request loaded s.row⟩) }
    | _, _ => none
  | .commit client =>
    match s.holder with
    | some (i, w) =>
      if i = client then
        some { s with row := w.after, holder := none, writes := s.writes ++ [w] }
      else none
    | none => none
  | .rollback client =>
    some { s with
      loaded := Function.update s.loaded client none
      holder := s.holder.filter (fun h => decide (h.1 ≠ client)) }

def requests (writes : List Write) : List Request := writes.map Write.request

/-- The committed updates, as the versions that they have given the row. -/
def versions (writes : List Write) : List Nat :=
  (writes.filter (fun w => w.request.isUpdate)).map (fun w => w.after.version)

/-- The attributes that a body can set. -/
inductive Field
  | name
  | description
  | pipelineConfig
  | webhookUrl
  | isTemplate

inductive Value
  | text (s : String)
  | dict (d : Dict)
  | flag (b : Bool)

def Field.of : Field → EvaluationConfig → Option Value
  | .name, config => some (.text config.name)
  | .description, config => config.description.map .text
  | .pipelineConfig, config => some (.dict config.pipelineConfig)
  | .webhookUrl, config => config.webhookUrl.map .text
  | .isTemplate, config => some (.flag config.isTemplate)

/-- What a request sets the attribute to. -/
def Field.setBy : Field → Request → Option Value
  | .name, .update updates => updates.name.map .text
  | .description, .update updates => updates.description.map .text
  | .pipelineConfig, .update updates => updates.pipelineConfig.map .dict
  | .webhookUrl, .update updates => updates.webhookUrl.map .text
  | .isTemplate, .update updates => updates.isTemplate.map .flag
  | _, .delete _ => none

/-- The committed requests have left what they would leave one after another. -/
structure Serial (config : EvaluationConfig) (s : State) : Prop where
  own : (versions s.writes).Nodup
  consecutive : versions s.writes = List.range' (config.version + 1) (versions s.writes).length
  final : s.row = (requests s.writes).foldl (fun row request => request.apply row) config
  kept : ∀ pre w post, s.writes = pre ++ w :: post → ∀ (field : Field) value,
    field.setBy w.request = some value → (∀ later ∈ post, field.setBy later.request = none) →
    field.of s.row = some value

/-- The update finds the version that it has read, and a new `pipeline_config`
that Python takes for equal to the one it has read is that one. -/
def Write.Current (w : Write) : Prop :=
  match w.request with
  | .update updates => w.loaded.version = w.before.version ∧
      ∀ d ∈ updates.pipelineConfig, dictEqual d w.loaded.pipelineConfig = true →
        d = w.loaded.pipelineConfig
  | .delete _ => True

def Current (s : State) : Action → Prop
  | .commit client => ∀ w, s.holder = some (client, w) → w.Current
  | _ => True

variable {config : EvaluationConfig} {s t : State}

theorem some_map_getD {α β : Type} (f : α → β) (o : Option α) (x : α) :
    some (f (o.getD x)) = (o.map f).or (some (f x)) := by
  cases o <;> rfl

theorem of_apply (field : Field) (request : Request) (row : EvaluationConfig) :
    field.of (request.apply row) = (field.setBy request).or (field.of row) := by
  cases request with
  | delete now => cases field <;> rfl
  | update updates =>
    cases field with
    | name | pipelineConfig | isTemplate => exact some_map_getD _ _ _
    | description | webhookUrl => exact Option.map_or

/-- A value stays until a later request sets the attribute. -/
theorem of_foldl (field : Field) {rs : List Request} (h : ∀ r ∈ rs, field.setBy r = none)
    (row : EvaluationConfig) :
    field.of (rs.foldl (fun row request => request.apply row) row) = field.of row := by
  induction rs generalizing row with
  | nil => rfl
  | cons r rs ih =>
    rw [List.foldl_cons, ih fun r' hr' => h r' (List.mem_cons_of_mem _ hr'), of_apply,
      h r List.mem_cons_self, Option.none_or]

theorem kept_of_final
    (hfinal : s.row = (requests s.writes).foldl (fun row request => request.apply row) config)
    {pre post : List Write} {w : Write} (hw : s.writes = pre ++ w :: post) {field : Field}
    {value : Value} (hset : field.setBy w.request = some value)
    (hpost : ∀ later ∈ post, field.setBy later.request = none) : field.of s.row = some value := by
  have hrest : ∀ r ∈ requests post, field.setBy r = none := by
    intro r hr
    obtain ⟨later, hlater, rfl⟩ := List.mem_map.1 hr
    exact hpost later hlater
  rw [hfinal, hw, requests, List.map_append, List.map_cons, List.foldl_append, List.foldl_cons]
  change field.of ((requests post).foldl _ _) = _
  rw [of_foldl field hrest, of_apply, hset, Option.some_or]

theorem version_apply (request : Request) (row : EvaluationConfig) :
    (request.apply row).version = row.version + if request.isUpdate then 1 else 0 := by
  cases request <;> rfl

theorem versions_append (writes : List Write) (w : Write) : versions (writes ++ [w]) =
    versions writes ++ if w.request.isUpdate then [w.after.version] else [] := by
  cases h : w.request.isUpdate <;> simp [versions, h]

/-- The version counts the updates. -/
theorem version_foldl (writes : List Write) (row : EvaluationConfig) :
    ((requests writes).foldl (fun row request => request.apply row) row).version =
      row.version + (versions writes).length := by
  induction writes generalizing row with
  | nil => rfl
  | cons w writes ih =>
    have hrest := ih (w.request.apply row)
    rw [version_apply] at hrest
    rw [requests, List.map_cons, List.foldl_cons]
    refine hrest.trans ?_
    cases h : w.request.isUpdate with
    | false => simp [versions, h]
    | true =>
      simp only [versions, h, if_true, List.filter_cons_of_pos, List.map_cons, List.length_cons]
      omega

theorem flushedDict_eq {set : Option Dict} {loaded : Dict}
    (h : ∀ d ∈ set, dictEqual d loaded = true → d = loaded) :
    flushedDict set loaded loaded = set.getD loaded := by
  cases set with
  | none => rfl
  | some d =>
    unfold flushedDict
    dsimp only
    split
    next hequal => exact (h d rfl hequal).symm
    next => rfl

/-- What a request has read, of the row as it is now. -/
structure Reads (row loaded : EvaluationConfig) : Prop where
  live : loaded.deletedAt = none
  known : loaded.version ≤ row.version
  fresh : loaded.version = row.version → loaded = { row with deletedAt := none }

theorem reads_self {row : EvaluationConfig} (h : row.deletedAt = none) : Reads row row := by
  refine ⟨h, Nat.le_refl _, fun _ => ?_⟩
  rw [← h]

theorem Reads.apply {row loaded : EvaluationConfig} (h : Reads row loaded) (request : Request) :
    Reads (request.apply row) loaded := by
  cases request with
  | update updates =>
    refine ⟨h.live, Nat.le_succ_of_le h.known, fun heq => ?_⟩
    have hle := h.known
    have hversion : loaded.version = row.version + 1 := heq
    omega
  | delete now => exact ⟨h.live, h.known, h.fresh⟩

/-- The UPDATE of a request does to the row what the request says, if and only if
it is current. -/
theorem flush_eq_iff {row loaded after : EvaluationConfig} {request : Request}
    (h : Reads row loaded) : flush request loaded row = request.apply row ↔
      (⟨request, loaded, row, after⟩ : Write).Current := by
  cases request with
  | delete now =>
    simp [flush, flushed, flushedDict, Request.pipelineConfig?, Request.apply, softDeleteConfig,
      h.live, Write.Current]
  | update updates =>
    constructor
    · intro hflush
      have hversion : loaded.version = row.version := by
        have hsent := congrArg EvaluationConfig.version hflush
        simpa [flush, flushed, Request.apply, EvaluationConfigUpdate.apply] using hsent
      refine ⟨hversion, ?_⟩
      intro d hd hequal
      have hsent := congrArg EvaluationConfig.pipelineConfig hflush
      have hkept : row.pipelineConfig = d := by
        simpa [flush, flushedDict, Request.pipelineConfig?, Request.apply,
          EvaluationConfigUpdate.apply, Option.mem_def.1 hd, hequal] using hsent
      rw [h.fresh hversion]
      exact hkept.symm
    · rintro ⟨hversion, hdict⟩
      have hdict' := flushedDict_eq hdict
      rw [h.fresh hversion] at hdict' ⊢
      simp only [flush, Request.pipelineConfig?, Request.apply, EvaluationConfigUpdate.apply,
        flushed_self, hdict']
      simp [flushed]

structure Inv (config : EvaluationConfig) (s : State) : Prop where
  consecutive : versions s.writes = List.range' (config.version + 1) (versions s.writes).length
  final : s.row = (requests s.writes).foldl (fun row request => request.apply row) config
  reads : ∀ client request loaded, s.loaded client = some (request, loaded) → Reads s.row loaded
  held : ∀ client w, s.holder = some (client, w) → w.before = s.row ∧ Reads s.row w.loaded ∧
    w.after = flush w.request w.loaded s.row

theorem Inv.serial (h : Inv config s) : Serial config s := by
  refine ⟨?_, h.consecutive, h.final, fun _ _ _ hw _ _ => kept_of_final h.final hw⟩
  rw [h.consecutive]
  exact List.nodup_range'

theorem Inv.version (h : Inv config s) :
    s.row.version = config.version + (versions s.writes).length := by
  rw [h.final]
  exact version_foldl s.writes config

theorem inv_start (config : EvaluationConfig) : Inv config { row := config } := by
  refine ⟨rfl, rfl, ?_, ?_⟩
  · rintro client request loaded ⟨⟩
  · rintro client w ⟨⟩

/-- A client that reads reads the row, and one that ends leaves the others alone. -/
theorem Inv.reads_update (hinv : Inv config s) {client : Nat}
    {p : Option (Request × EvaluationConfig)}
    (hp : ∀ request loaded, p = some (request, loaded) → Reads s.row loaded) (i : Nat)
    (request : Request) (loaded : EvaluationConfig)
    (h : Function.update s.loaded client p i = some (request, loaded)) : Reads s.row loaded := by
  obtain ⟨_, hnew⟩ | hold := entry_update h
  · exact hp request loaded hnew
  · exact hinv.reads i request loaded hold

theorem inv_read {client : Nat} {request : Request} (hinv : Inv config s)
    (h : step s (.read client request) = some t) : Inv config t := by
  simp only [step] at h
  split at h
  · cases h
  · next hlive =>
    cases h
    refine ⟨hinv.consecutive, hinv.final, hinv.reads_update ?_, hinv.held⟩
    rintro r loaded ⟨⟩
    exact reads_self (by simpa using hlive)

theorem inv_flush {client : Nat} (hinv : Inv config s) (h : step s (.flush client) = some t) :
    Inv config t := by
  simp only [step] at h
  split at h
  next request loaded _ hclient =>
    cases h
    refine ⟨hinv.consecutive, hinv.final, hinv.reads_update (by rintro r l ⟨⟩), ?_⟩
    rintro i w ⟨⟩
    exact ⟨rfl, hinv.reads client request loaded hclient, rfl⟩
  next => cases h

theorem inv_rollback {client : Nat} (hinv : Inv config s)
    (h : step s (.rollback client) = some t) : Inv config t := by
  cases h
  refine ⟨hinv.consecutive, hinv.final, hinv.reads_update (by rintro r l ⟨⟩), ?_⟩
  intro i w hw
  exact hinv.held i w (Option.filter_eq_some_iff.1 hw).1

/-- The transaction that holds the lock commits what its UPDATE has left. -/
theorem commit_cases {client : Nat} (h : step s (.commit client) = some t) :
    ∃ w, s.holder = some (client, w) ∧
      t = { s with row := w.after, holder := none, writes := s.writes ++ [w] } := by
  simp only [step] at h
  split at h
  next i w hholder =>
    split at h
    next hi =>
      cases h
      subst hi
      exact ⟨w, hholder, rfl⟩
    next => cases h
  next => cases h

theorem inv_commit {client : Nat} (hinv : Inv config s) (hok : Current s (.commit client))
    (h : step s (.commit client) = some t) : Inv config t := by
  obtain ⟨w, hholder, rfl⟩ := commit_cases h
  obtain ⟨hbefore, hreads, hafter⟩ := hinv.held client w hholder
  have hcurrent := hok w hholder
  have happly : w.after = w.request.apply s.row := by
    rw [hafter]
    apply (@flush_eq_iff _ _ w.after _ hreads).2
    rw [← hbefore]
    exact hcurrent
  have hversion : w.after.version = s.row.version + if w.request.isUpdate then 1 else 0 := by
    rw [happly, version_apply]
  refine ⟨?_, ?_, ?_, ?_⟩
  · rw [versions_append]
    cases hupdate : w.request.isUpdate with
    | false => simpa using hinv.consecutive
    | true =>
      rw [hupdate, if_pos rfl, hinv.version] at hversion
      rw [if_pos rfl, List.length_append, List.length_singleton, List.range'_concat,
        ← hinv.consecutive, hversion]
      congr 2
      omega
  · rw [requests, List.map_append, List.foldl_append]
    change w.after = w.request.apply ((requests s.writes).foldl _ config)
    rw [happly, ← hinv.final]
  · intro i r l hl
    change Reads w.after l
    rw [happly]
    exact (hinv.reads i r l hl).apply w.request
  · rintro i w' ⟨⟩

theorem inv_step (s : State) (a : Action) (t : State) (hinv : Inv config s) (hok : Current s a)
    (h : step s a = some t) : Inv config t := by
  cases a with
  | read client request => exact inv_read hinv h
  | flush client => exact inv_flush hinv h
  | commit client => exact inv_commit hinv hok h
  | rollback client => exact inv_rollback hinv h

theorem inv_of_exec (h : Exec step Current { row := config } s) : Inv config s :=
  h.invariant (inv_start config) inv_step

/-- The first commit that is not current makes the execution one that is not serial. -/
theorem not_serial_of_stale (hinv : Inv config s) {a : Action} (hstale : ¬ Current s a)
    (h : step s a = some t) : ¬ Serial config t := by
  intro hserial
  cases a with
  | read _ _ | flush _ | rollback _ => exact hstale trivial
  | commit client =>
    obtain ⟨w, hholder, rfl⟩ := commit_cases h
    obtain ⟨hbefore, hreads, hafter⟩ := hinv.held client w hholder
    apply hstale
    intro w' hw'
    rw [hholder] at hw'
    cases hw'
    have hfinal : w.after = w.request.apply s.row := by
      have hfold := hserial.final
      rw [requests, List.map_append, List.foldl_append] at hfold
      rw [hinv.final]
      exact hfold
    have hcurrent := (@flush_eq_iff _ _ w.after _ hreads).1 (hafter.symm.trans hfinal)
    rw [← hbefore] at hcurrent
    exact hcurrent

/-- Edits that find what they have read behave as if taken one after another. -/
theorem edits_serial (h : Exec step Current { row := config } s) : Serial config s :=
  (inv_of_exec h).serial

section Sample

def sampleConfig : EvaluationConfig where
  id := 1
  name := "A"
  organizationId := 1
  createdById := none

/-- A renames the config, and B, which has read the old row, sends the old name back
together with a description. -/
def renamedAndDescribed : List Action :=
  [.read 0 (.update { name := some "B" }),
    .read 1 (.update { name := some "A", description := some "pilot" }),
    .flush 0, .commit 0, .flush 1, .commit 1]

/-- Both edits commit as version 2, and the name of the second one is not written. -/
theorem edits_share_version : ∃ s, Exec step free { row := sampleConfig } s ∧
    versions s.writes = [2, 2] ∧ s.row.name = "B" ∧ ¬ Serial sampleConfig s := by
  refine ⟨_, exec_get step { row := sampleConfig } renamedAndDescribed rfl, rfl, rfl, ?_⟩
  intro hserial
  have hown : [2, 2].Nodup := hserial.own
  simp at hown

/-- One edit after the other, the second of them beside a deletion. -/
theorem edits_serial_beside_deletion : ∃ s, Serial sampleConfig s ∧ versions s.writes = [2, 3] ∧
    s.row.name = "B" ∧ s.row.deletedAt = some 50 := by
  have hread := ((@Exec.refl _ _ step Current { row := sampleConfig }).tail
    (a := Action.read 0 (.update { name := some "B" })) trivial rfl).tail (a := Action.flush 0) trivial rfl
  have hnamed := hread.tail (a := Action.commit 0) (by rintro w ⟨⟩; exact ⟨rfl, by rintro d ⟨⟩⟩) rfl
  have hboth := (hnamed.tail (a := Action.read 1 (.update { description := some "pilot" })) trivial
    rfl).tail (a := Action.read 2 (.delete 50)) trivial rfl
  have hdeleted := (hboth.tail (a := Action.flush 2) trivial rfl).tail (a := Action.commit 2)
    (by rintro w ⟨⟩; trivial) rfl
  have hdescribed := (hdeleted.tail (a := Action.flush 1) trivial rfl).tail (a := Action.commit 1)
    (by rintro w ⟨⟩; exact ⟨rfl, by rintro d ⟨⟩⟩) rfl
  exact ⟨_, edits_serial hdescribed, rfl, rfl, rfl⟩

end Sample

end EvalEngine.ConfigEdits
