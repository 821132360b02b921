import Mathlib.Data.List.Basic
import Mathlib.Logic.Function.Basic

namespace EvalEngine.ModuleImports

variable {M N : Type} [DecidableEq M]

/-- A statement at the top level of a Python module, as far as names go:
`import m`, `from m import name`, or one that defines a name. -/
inductive Statement (M N : Type)
  | importModule (m : M) (name : N)
  | fromImport (m : M) (name : N)
  | define (name : N)

def Statement.target : Statement M N → Option M
  | .importModule m _ | .fromImport m _ => some m
  | .define _ => none

def Statement.name : Statement M N → N
  | .importModule _ name | .fromImport _ name | .define name => name

/-- `sys.modules`: the names that a module has bound so far, if it is there. -/
abbrev Loaded (M N : Type) := M → Option (List N)

def bindName (sys : Loaded M N) (m : M) (name : N) : Loaded M N :=
  Function.update sys m ((sys m).map (name :: ·))

theorem bindName_of_ne {m k : M} (hk : k ≠ m) (sys : Loaded M N) (name : N) :
    bindName sys m name k = sys k :=
  Function.update_of_ne hk _ _

theorem bindName_self {sys : Loaded M N} {m : M} {names : List N} (h : sys m = some names) (name : N) :
    bindName sys m name m = some (name :: names) := by
  rw [bindName, Function.update_self, h, Option.map_some]

variable [DecidableEq N]

/-- The statements of a module in order, up to the first one that raises. -/
def execute (load : Loaded M N → M → Option (Loaded M N × Bool)) (m : M) :
    List (Statement M N) → Loaded M N → Option (Loaded M N × Bool)
  | [], sys => some (sys, true)
  | .define name :: rest, sys => execute load m rest (bindName sys m name)
  | .importModule m' name :: rest, sys => (load sys m').bind fun r =>
    if r.2 = true then execute load m rest (bindName r.1 m name) else some r
  | .fromImport m' name :: rest, sys => (load sys m').bind fun r =>
    if r.2 = true ∧ name ∈ (r.1 m').getD [] then execute load m rest (bindName r.1 m name)
    else some (r.1, false)

/-- Import a module, with at most `fuel` imports inside each other. One that is
in `sys.modules` is taken as it stands there, also half executed, and one whose
statements raise is taken out again. -/
def loadModule (body : M → List (Statement M N)) :
    Nat → Loaded M N → M → Option (Loaded M N × Bool)
  | 0, _, _ => none
  | fuel + 1, sys, m =>
    match sys m with
    | some _ => some (sys, true)
    | none =>
      (execute (loadModule body fuel) m (body m) (Function.update sys m (some []))).map fun r =>
        if r.2 = true then r else (Function.update r.1 m none, false)

/-- The statements import neither of the two modules. -/
def Apart (a b : M) (statements : List (Statement M N)) : Prop :=
  ∀ st ∈ statements, ∀ m ∈ st.target, m ≠ a ∧ m ≠ b

/-- The first statement of `a` that asks for `b`, and for which of its names. -/
structure Asks (body : M → List (Statement M N)) (a b : M) (before : List (Statement M N)) (name : N) :
    Prop where
  splits : ∃ after, body a = before ++ .fromImport b name :: after
  apart : Apart a b before

/-- Two modules that ask each other for a name before they have bound the name
that the other one asks for. Nothing else imports them. -/
structure Cycle (body : M → List (Statement M N)) (a b : M) (beforeA beforeB : List (Statement M N))
    (nameA nameB : N) : Prop where
  ne : a ≠ b
  elsewhere : ∀ m, m ≠ a → m ≠ b → Apart a b (body m)
  left : Asks body a b beforeA nameB
  right : Asks body b a beforeB nameA
  unboundA : nameA ∉ beforeA.map Statement.name
  unboundB : nameB ∉ beforeB.map Statement.name

variable {body : M → List (Statement M N)} {a b m : M} {sys : Loaded M N} {r : Loaded M N × Bool}

omit [DecidableEq M] [DecidableEq N] in
theorem Apart.symm {statements : List (Statement M N)} (h : Apart a b statements) :
    Apart b a statements :=
  fun st hst m hm => (h st hst m hm).symm

omit [DecidableEq M] [DecidableEq N] in
theorem Cycle.symm {beforeA beforeB : List (Statement M N)} {nameA nameB : N}
    (h : Cycle body a b beforeA beforeB nameA nameB) : Cycle body b a beforeB beforeA nameB nameA :=
  ⟨h.ne.symm, fun m hb ha => (h.elsewhere m ha hb).symm, h.right, h.left, h.unboundB, h.unboundA⟩

/-- What the import of a module apart from `a` and `b` leaves alone. -/
def Keeps (a b : M) (load : Loaded M N → M → Option (Loaded M N × Bool)) : Prop :=
  ∀ sys m r, m ≠ a → m ≠ b → load sys m = some r → r.1 a = sys a ∧ r.1 b = sys b

variable {load : Loaded M N → M → Option (Loaded M N × Bool)} {statements : List (Statement M N)}

/-- Statements of another module. -/
theorem execute_elsewhere (hload : Keeps a b load) (ha : m ≠ a) (hb : m ≠ b)
    (hapart : Apart a b statements) (h : execute load m statements sys = some r) :
    r.1 a = sys a ∧ r.1 b = sys b := by
  induction statements generalizing sys with
  | nil =>
    cases h
    exact ⟨rfl, rfl⟩
  | cons st rest ih =>
    have hrest : Apart a b rest := fun st' hst' => hapart st' (List.mem_cons_of_mem _ hst')
    have hbind : ∀ (sys' : Loaded M N) name, execute load m rest (bindName sys' m name) = some r →
        r.1 a = sys' a ∧ r.1 b = sys' b := by
      intro sys' name hr
      obtain ⟨hra, hrb⟩ := ih hrest hr
      exact ⟨hra.trans (bindName_of_ne ha.symm _ _), hrb.trans (bindName_of_ne hb.symm _ _)⟩
    cases st with
    | define name => exact hbind sys name h
    | importModule m' name | fromImport m' name =>
      simp only [execute, Option.bind_eq_some_iff] at h
      obtain ⟨r', hr', h⟩ := h
      obtain ⟨ha', hb'⟩ := hapart _ List.mem_cons_self m' rfl
      obtain ⟨hka, hkb⟩ := hload sys m' r' ha' hb' hr'
      split at h
      · obtain ⟨hra, hrb⟩ := hbind r'.1 name h
        exact ⟨hra.trans hka, hrb.trans hkb⟩
      · cases h
        exact ⟨hka, hkb⟩

theorem keeps_loadModule (helsewhere : ∀ m, m ≠ a → m ≠ b → Apart a b (body m)) (fuel : Nat) :
    Keeps a b (loadModule body fuel) := by
  induction fuel with
  | zero => rintro sys m r _ _ ⟨⟩
  | succ fuel ih =>
    intro sys m r ha hb h
    simp only [loadModule] at h
    split at h
    · cases h
      exact ⟨rfl, rfl⟩
    · simp only [Option.map_eq_some_iff] at h
      obtain ⟨r', hr', rfl⟩ := h
      have hkeep := execute_elsewhere ih ha hb (helsewhere m ha hb) hr'
      simp only [Function.update_of_ne ha.symm, Function.update_of_ne hb.symm] at hkeep
      split
      · exact hkeep
      · simp only [Function.update_of_ne ha.symm, Function.update_of_ne hb.symm]
        exact hkeep

/-- The statements of `a` in front of its import of `b`. -/
theorem execute_before (hne : a ≠ b) (hload : Keeps a b load) (hapart : Apart a b statements)
    {names : List N} (hnames : sys a = some names) (h : execute load a statements sys = some r) :
    r.1 b = sys b ∧
      ∃ names', r.1 a = some names' ∧ names' ⊆ statements.map Statement.name ++ names := by
  induction statements generalizing sys names with
  | nil =>
    cases h
    exact ⟨rfl, names, hnames, fun _ => id⟩
  | cons st rest ih =>
    have hrest : Apart a b rest := fun st' hst' => hapart st' (List.mem_cons_of_mem _ hst')
    have hbind : ∀ (sys' : Loaded M N), sys' a = some names →
        execute load a rest (bindName sys' a st.name) = some r → r.1 b = sys' b ∧
          ∃ names', r.1 a = some names' ∧ names' ⊆ (st :: rest).map Statement.name ++ names := by
      intro sys' hsys' hr
      obtain ⟨hrb, names', hra, hsub⟩ := ih hrest (bindName_self hsys' st.name) hr
      refine ⟨hrb.trans (bindName_of_ne hne.symm _ _), names', hra, fun name hname => ?_⟩
      have hmem := hsub hname
      simp only [List.mem_append, List.mem_cons, List.map_cons] at hmem ⊢
      tauto
    cases st with
    | define name => exact hbind sys hnames h
    | importModule m' name | fromImport m' name =>
      simp only [execute, Option.bind_eq_some_iff] at h
      obtain ⟨r', hr', h⟩ := h
      obtain ⟨ha', hb'⟩ := hapart _ List.mem_cons_self m' rfl
      obtain ⟨hka, hkb⟩ := hload sys m' r' ha' hb' hr'
      split at h
      · obtain ⟨hrb, hra⟩ := hbind r'.1 (hka.trans hnames) h
        exact ⟨hrb.trans hkb, hra⟩
      · cases h
        refine ⟨hkb, names, hka.trans hnames, fun name hname => ?_⟩
        exact List.mem_append_right _ hname

theorem execute_append (st : Statement M N) (before after : List (Statement M N)) :
    execute load m (before ++ st :: after) sys = (execute load m before sys).bind fun r =>
      if r.2 = true then execute load m (st :: after) r.1 else some r := by
  induction before generalizing sys with
  | nil => simp [execute]
  | cons st' before ih =>
    cases st' with
    | define name => exact ih
    | importModule m' name | fromImport m' name =>
      simp only [List.cons_append, execute, Option.bind_assoc]
      congr 1
      funext r'
      split
      · exact ih
      · simp_all

/-- The second module of the cycle: the first one stands in `sys.modules`
without the name that is asked of it. -/
theorem second_fails {beforeA beforeB : List (Statement M N)} {nameA nameB : N}
    (hcycle : Cycle body a b beforeA beforeB nameA nameB) {fuel : Nat} {names : List N}
    (hnames : sys a = some names) (hlacks : nameA ∉ names) (hb : sys b = none)
    (h : loadModule body fuel sys b = some r) : r.2 = false ∧ r.1 b = none ∧ r.1 a = some names := by
  cases fuel with
  | zero => cases h
  | succ fuel =>
    have hkeeps := keeps_loadModule hcycle.symm.elsewhere fuel
    obtain ⟨after, hbody⟩ := hcycle.right.splits
    simp only [loadModule, hb, hbody, execute_append, Option.map_eq_some_iff,
      Option.bind_eq_some_iff] at h
    obtain ⟨r', ⟨r₀, hr₀, h⟩, rfl⟩ := h
    have hself : Function.update sys b (some []) b = some [] := Function.update_self _ _ _
    obtain ⟨hra, -⟩ := execute_before hcycle.ne.symm hkeeps hcycle.right.apart hself hr₀
    rw [Function.update_of_ne hcycle.ne, hnames] at hra
    have hfailed : r'.2 = false ∧ r'.1 a = some names := by
      split at h
      · simp only [execute, Option.bind_eq_some_iff] at h
        obtain ⟨r₁, hr₁, h⟩ := h
        -- the first module is there already, so it is not executed again
        have hloaded : r₁ = (r₀.1, true) := by
          cases fuel with
          | zero => cases hr₁
          | succ fuel =>
            simp only [loadModule, hra, Option.some.injEq] at hr₁
            exact hr₁.symm
        subst hloaded
        simp only [hra, Option.getD_some, hlacks, and_false, if_false, Option.some.injEq] at h
        cases h
        exact ⟨rfl, hra⟩
      · rename_i hstop
        cases h
        exact ⟨by simpa using hstop, hra⟩
    simp [hfailed.1, hfailed.2, Function.update_of_ne hcycle.ne]

/-- The first module of the cycle fails with the second one inside it. -/
theorem first_fails {beforeA beforeB : List (Statement M N)} {nameA nameB : N}
    (hcycle : Cycle body a b beforeA beforeB nameA nameB) {fuel : Nat} (ha : sys a = none)
    (hb : sys b = none) (h : loadModule body fuel sys a = some r) :
    r.2 = false ∧ r.1 a = none ∧ r.1 b = none := by
  cases fuel with
  | zero => cases h
  | succ fuel =>
    have hkeeps := keeps_loadModule hcycle.elsewhere fuel
    obtain ⟨after, hbody⟩ := hcycle.left.splits
    simp only [loadModule, ha, hbody, execute_append, Option.map_eq_some_iff,
      Option.bind_eq_some_iff] at h
    obtain ⟨r', ⟨r₀, hr₀, h⟩, rfl⟩ := h
    have hself : Function.update sys a (some []) a = some [] := Function.update_self _ _ _
    obtain ⟨hrb, names, hra, hsub⟩ := execute_before hcycle.ne hkeeps hcycle.left.apart hself hr₀
    rw [Function.update_of_ne hcycle.ne.symm, hb] at hrb
    have hlacks : nameA ∉ names := fun hmem => hcycle.unboundA (by simpa using hsub hmem)
    have hfailed : r'.2 = false ∧ r'.1 b = none := by
      split at h
      · simp only [execute, Option.bind_eq_some_iff] at h
        obtain ⟨r₁, hr₁, h⟩ := h
        obtain ⟨hstop, hnone, -⟩ := second_fails hcycle hra hlacks hrb hr₁
        simp only [hstop, Bool.false_eq_true, false_and, if_false, Option.some.injEq] at h
        cases h
        exact ⟨rfl, hnone⟩
      · rename_i hstop
        cases h
        exact ⟨by simpa using hstop, hrb⟩
    simp [hfailed.1, hfailed.2, Function.update_of_ne hcycle.ne.symm]

/-- No import, of whatever module, leaves one of the two behind. -/
theorem cycle_never_loaded {beforeA beforeB : List (Statement M N)} {nameA nameB : N}
    (hcycle : Cycle body a b beforeA beforeB nameA nameB) {fuel : Nat} (ha : sys a = none)
    (hb : sys b = none) (h : loadModule body fuel sys m = some r) : r.1 a = none ∧ r.1 b = none := by
  by_cases hma : m = a
  · subst hma
    exact (first_fails hcycle ha hb h).2
  · by_cases hmb : m = b
    · subst hmb
      exact (first_fails hcycle.symm hb ha h).2.symm
    · obtain ⟨hra, hrb⟩ := keeps_loadModule hcycle.elsewhere fuel sys m r hma hmb h
      exact ⟨hra.trans ha, hrb.trans hb⟩

end EvalEngine.ModuleImports
