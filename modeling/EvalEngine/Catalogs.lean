import Mathlib.Data.List.Basic

namespace EvalEngine.Catalogs

variable {α β : Type} [DecidableEq α]

/-- An object with its details, those that it cannot be without, and those that take it along
when they are dropped. -/
structure Entry (α β : Type) where
  name : α
  detail : β
  requires : List α := []
  goesWith : List α := []
  deriving DecidableEq

/-- A change of the catalog. `ensure` creates what is not there, `check` asks
an object for something, and `refuse` never succeeds. -/
inductive Statement (α β : Type)
  | create (e : Entry α β)
  | ensure (e : Entry α β)
  | alter (name : α) (f : β → Option β)
  | check (name : α) (p : β → Bool)
  | drop (name : α)
  | dropIfExists (name : α)
  | refuse

def Statement.mentions : Statement α β → List α
  | .create e | .ensure e => e.name :: (e.requires ++ e.goesWith)
  | .alter name _ | .check name _ | .drop name | .dropIfExists name => [name]
  | .refuse => []

def present (entries : List (Entry α β)) (name : α) : Bool := entries.any fun e => decide (e.name = name)

/-- An object goes with all that its owners go with. -/
def inherited (entries : List (Entry α β)) (e : Entry α β) : Entry α β :=
  { e with goesWith := e.goesWith ++
      (entries.filter fun owner => decide (owner.name ∈ e.goesWith)).flatMap Entry.goesWith }

def create (entries : List (Entry α β)) (e : Entry α β) : Option (List (Entry α β)) :=
  if !present entries e.name && (e.requires ++ e.goesWith).all (present entries) then
    some (inherited entries e :: entries)
  else none

/-- The object of a name is changed, if there is one and the change succeeds. -/
def alter (entries : List (Entry α β)) (name : α) (f : β → Option β) : Option (List (Entry α β)) :=
  match entries with
  | [] => none
  | e :: entries =>
    if e.name = name then (f e.detail).map fun detail => { e with detail } :: entries
    else (alter entries name f).map (e :: ·)

def goes (name : α) (e : Entry α β) : Bool := decide (e.name = name) || decide (name ∈ e.goesWith)

def kept (entries : List (Entry α β)) (name : α) : List (Entry α β) := entries.filter fun e => !goes name e

def gone (entries : List (Entry α β)) (name : α) : List (Entry α β) := entries.filter (goes name)

/-- Nothing that is kept may require anything that goes. -/
def drop (entries : List (Entry α β)) (name : α) : Option (List (Entry α β)) :=
  if present entries name && (kept entries name).all (fun e => !e.requires.any (present (gone entries name))) then
    some (kept entries name)
  else none

def apply (entries : List (Entry α β)) : Statement α β → Option (List (Entry α β))
  | .create e => create entries e
  | .ensure e => if present entries e.name then some entries else create entries e
  | .alter name f => alter entries name f
  | .check name p => if entries.any fun e => decide (e.name = name) && p e.detail then some entries else none
  | .drop name => drop entries name
  | .dropIfExists name => if present entries name then drop entries name else some entries
  | .refuse => none

/-- A script stops at the first statement that fails. -/
def run (entries : List (Entry α β)) (script : List (Statement α β)) : Option (List (Entry α β)) :=
  script.foldlM apply entries

theorem run_append (entries : List (Entry α β)) (script script' : List (Statement α β)) :
    run entries (script ++ script') = (run entries script).bind fun entries => run entries script' := by
  rw [run, List.foldlM_append]
  rfl

section Frame

variable {ours : α → Bool} {base entries entries' : List (Entry α β)} {st : Statement α β}
  {script : List (Statement α β)} {e : Entry α β} {name : α}

/-- Objects that a script does not know, and that know of none of its objects. -/
structure Foreign (ours : α → Bool) (base : List (Entry α β)) : Prop where
  names : ∀ e ∈ base, ours e.name = false
  references : ∀ e ∈ base, ∀ name ∈ e.requires ++ e.goesWith, ours name = false

def Own (ours : α → Bool) (entries : List (Entry α β)) : Prop := ∀ e ∈ entries, ours e.name = true

def Within (ours : α → Bool) (script : List (Statement α β)) : Prop :=
  ∀ st ∈ script, ∀ name ∈ st.mentions, ours name = true

theorem present_append : present (entries ++ base) name = (present entries name || present base name) :=
  List.any_append

theorem present_foreign (hbase : Foreign ours base) (hname : ours name = true) : present base name = false := by
  rw [present, List.any_eq_false]
  intro e he heq
  have hforeign := hbase.names e he
  rw [of_decide_eq_true heq, hname] at hforeign
  cases hforeign

theorem present_frame (hbase : Foreign ours base) (hname : ours name = true) :
    present (entries ++ base) name = present entries name := by
  rw [present_append, present_foreign hbase hname, Bool.or_false]

theorem all_present_frame (hbase : Foreign ours base) {names : List α}
    (hnames : ∀ name ∈ names, ours name = true) :
    names.all (present (entries ++ base)) = names.all (present entries) := by
  induction names with
  | nil => rfl
  | cons name names ih =>
    rw [List.all_cons, List.all_cons, present_frame hbase (hnames name List.mem_cons_self),
      ih fun name' hname' => hnames name' (List.mem_cons_of_mem name hname')]

theorem inherited_frame (hbase : Foreign ours base) (he : ∀ name ∈ e.goesWith, ours name = true) :
    inherited (entries ++ base) e = inherited entries e := by
  have hnone : (base.filter fun owner => decide (owner.name ∈ e.goesWith)) = [] := by
    rw [List.filter_eq_nil_iff]
    intro owner howner hmem
    have hforeign := hbase.names owner howner
    rw [he _ (of_decide_eq_true hmem)] at hforeign
    cases hforeign
  rw [inherited, inherited, List.filter_append, hnone, List.append_nil]

theorem create_frame (hbase : Foreign ours base)
    (he : ∀ name ∈ e.name :: (e.requires ++ e.goesWith), ours name = true) :
    create (entries ++ base) e = (create entries e).map (· ++ base) := by
  have hrefs : ∀ name ∈ e.requires ++ e.goesWith, ours name = true :=
    fun name hname => he name (List.mem_cons_of_mem _ hname)
  rw [create, create, present_frame hbase (he _ List.mem_cons_self), all_present_frame hbase hrefs,
    inherited_frame hbase fun name hname => hrefs name (List.mem_append_right _ hname)]
  split <;> rfl

theorem goes_foreign (hbase : Foreign ours base) (hname : ours name = true) (he : e ∈ base) :
    goes name e = false := by
  have hne : e.name ≠ name := by
    intro heq
    have hforeign := hbase.names e he
    rw [heq, hname] at hforeign
    cases hforeign
  have hnot : name ∉ e.goesWith := by
    intro hmem
    have hforeign := hbase.references e he name (List.mem_append_right _ hmem)
    rw [hname] at hforeign
    cases hforeign
  simp [goes, hne, hnot]

theorem kept_frame (hbase : Foreign ours base) (hname : ours name = true) :
    kept (entries ++ base) name = kept entries name ++ base := by
  have hall : base.filter (fun e => !goes name e) = base := by
    rw [List.filter_eq_self]
    intro e he
    rw [goes_foreign hbase hname he]
    rfl
  rw [kept, kept, List.filter_append, hall]

theorem gone_frame (hbase : Foreign ours base) (hname : ours name = true) :
    gone (entries ++ base) name = gone entries name := by
  have hnone : base.filter (goes name) = [] := by
    rw [List.filter_eq_nil_iff]
    intro e he
    rw [goes_foreign hbase hname he]
    exact Bool.false_ne_true
  rw [gone, gone, List.filter_append, hnone, List.append_nil]

omit [DecidableEq α] in
theorem Own.filter (h : Own ours entries) (p : Entry α β → Bool) : Own ours (entries.filter p) :=
  fun e he => h e (List.mem_of_mem_filter he)

/-- What goes is the script's own, so nothing foreign requires it. -/
theorem spared (hbase : Foreign ours base) (hown : Own ours entries) (he : e ∈ base) :
    e.requires.any (present entries) = false := by
  rw [List.any_eq_false]
  intro name hname hpresent
  have hforeign := hbase.references e he name (List.mem_append_left _ hname)
  obtain ⟨e', he', heq⟩ := List.any_eq_true.1 hpresent
  rw [← of_decide_eq_true heq, hown e' he'] at hforeign
  cases hforeign

theorem drop_frame (hbase : Foreign ours base) (hown : Own ours entries) (hname : ours name = true) :
    drop (entries ++ base) name = (drop entries name).map (· ++ base) := by
  have hspared : base.all (fun e => !e.requires.any (present (gone entries name))) = true := by
    rw [List.all_eq_true]
    intro e he
    have hgone : Own ours (gone entries name) := hown.filter _
    rw [spared hbase hgone he]
    rfl
  rw [drop, drop, present_frame hbase hname, kept_frame hbase hname, gone_frame hbase hname, List.all_append,
    hspared, Bool.and_true]
  split <;> rfl

theorem alter_foreign (hbase : Foreign ours base) (hname : ours name = true) (f : β → Option β) :
    alter base name f = none := by
  induction base with
  | nil => rfl
  | cons e base ih =>
    have hne : e.name ≠ name := by
      intro heq
      have hforeign := hbase.names e List.mem_cons_self
      rw [heq, hname] at hforeign
      cases hforeign
    have hrest : Foreign ours base :=
      ⟨fun e' he' => hbase.names e' (List.mem_cons_of_mem e he'),
        fun e' he' => hbase.references e' (List.mem_cons_of_mem e he')⟩
    rw [alter, if_neg hne, ih hrest]
    rfl

theorem alter_frame (hbase : Foreign ours base) (hname : ours name = true) (f : β → Option β) :
    alter (entries ++ base) name f = (alter entries name f).map (· ++ base) := by
  induction entries with
  | nil => exact alter_foreign hbase hname f
  | cons e entries ih =>
    rw [List.cons_append, alter, alter, ih]
    split
    · rw [Option.map_map]
      rfl
    · rw [Option.map_map, Option.map_map]
      rfl

theorem check_frame (hbase : Foreign ours base) (hname : ours name = true) (p : β → Bool) :
    ((entries ++ base).any fun e => decide (e.name = name) && p e.detail) =
      entries.any fun e => decide (e.name = name) && p e.detail := by
  have hnone : (base.any fun e => decide (e.name = name) && p e.detail) = false := by
    rw [List.any_eq_false]
    intro e he hcheck
    have hforeign := hbase.names e he
    rw [of_decide_eq_true (Bool.and_eq_true_iff.1 hcheck).1, hname] at hforeign
    cases hforeign
  rw [List.any_append, hnone, Bool.or_false]

theorem Own.alter {f : β → Option β} (hown : Own ours entries) (h : alter entries name f = some entries') :
    Own ours entries' := by
  induction entries generalizing entries' with
  | nil => cases h
  | cons e entries ih =>
    have hrest : Own ours entries := fun e' he' => hown e' (List.mem_cons_of_mem e he')
    rw [Catalogs.alter] at h
    split at h
    · obtain ⟨detail, _, rfl⟩ := Option.map_eq_some_iff.1 h
      intro e' he'
      obtain rfl | he' := List.mem_cons.1 he'
      · exact hown e List.mem_cons_self
      · exact hrest e' he'
    · obtain ⟨altered, halter, rfl⟩ := Option.map_eq_some_iff.1 h
      intro e' he'
      obtain rfl | he' := List.mem_cons.1 he'
      · exact hown _ List.mem_cons_self
      · exact ih hrest halter e' he'

theorem apply_frame (hbase : Foreign ours base) (hown : Own ours entries)
    (hst : ∀ name ∈ st.mentions, ours name = true) :
    apply (entries ++ base) st = (apply entries st).map (· ++ base) := by
  cases st with
  | create e => exact create_frame hbase hst
  | ensure e =>
    rw [apply, apply, present_frame hbase (hst e.name List.mem_cons_self), create_frame hbase hst]
    split <;> rfl
  | drop name => exact drop_frame hbase hown (hst name List.mem_cons_self)
  | dropIfExists name =>
    have hname := hst name List.mem_cons_self
    rw [apply, apply, present_frame hbase hname, drop_frame hbase hown hname]
    split <;> rfl
  | alter name f => exact alter_frame hbase (hst name List.mem_cons_self) f
  | check name p =>
    rw [apply, apply, check_frame hbase (hst name List.mem_cons_self) p]
    split <;> rfl
  | refuse => rfl

theorem Own.create (hown : Own ours entries) (hname : ours e.name = true)
    (h : create entries e = some entries') : Own ours entries' := by
  unfold Catalogs.create at h
  split at h
  · cases h
    intro e' he'
    obtain rfl | he' := List.mem_cons.1 he'
    · exact hname
    · exact hown e' he'
  · cases h

theorem Own.drop (hown : Own ours entries) (h : drop entries name = some entries') : Own ours entries' := by
  unfold Catalogs.drop at h
  split at h
  · cases h
    exact hown.filter _
  · cases h

theorem Own.apply (hown : Own ours entries) (hst : ∀ name ∈ st.mentions, ours name = true)
    (h : apply entries st = some entries') : Own ours entries' := by
  cases st with
  | create e => exact hown.create (hst e.name List.mem_cons_self) h
  | ensure e =>
    rw [Catalogs.apply] at h
    split at h
    · cases h
      exact hown
    · exact hown.create (hst e.name List.mem_cons_self) h
  | drop name => exact hown.drop h
  | dropIfExists name =>
    rw [Catalogs.apply] at h
    split at h
    · exact hown.drop h
    · cases h
      exact hown
  | alter name f => exact hown.alter h
  | check name p =>
    rw [Catalogs.apply] at h
    split at h
    · cases h
      exact hown
    · cases h
  | refuse => cases h

theorem Own.run (hown : Own ours entries) (hscript : Within ours script)
    (h : run entries script = some entries') : Own ours entries' := by
  induction script generalizing entries with
  | nil =>
    cases h
    exact hown
  | cons st script ih =>
    have hst : ∀ name ∈ st.mentions, ours name = true := hscript st List.mem_cons_self
    rw [Catalogs.run, List.foldlM_cons] at h
    cases hstep : Catalogs.apply entries st with
    | none =>
      rw [hstep] at h
      cases h
    | some next =>
      rw [hstep] at h
      exact ih (hown.apply hst hstep) (fun st' hst' => hscript st' (List.mem_cons_of_mem st hst')) h

/-- A script does beside foreign objects what it does alone. -/
theorem run_frame (hbase : Foreign ours base) (hown : Own ours entries) (hscript : Within ours script) :
    run (entries ++ base) script = (run entries script).map (· ++ base) := by
  induction script generalizing entries with
  | nil => rfl
  | cons st script ih =>
    have hst : ∀ name ∈ st.mentions, ours name = true := hscript st List.mem_cons_self
    rw [run, run, List.foldlM_cons, List.foldlM_cons, apply_frame hbase hown hst]
    cases hstep : apply entries st with
    | none => rfl
    | some entries' =>
      exact ih (hown.apply hst hstep) fun st' hst' => hscript st' (List.mem_cons_of_mem st hst')

end Frame

end EvalEngine.Catalogs
