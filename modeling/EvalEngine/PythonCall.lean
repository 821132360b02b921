import Mathlib.Data.List.Basic

namespace EvalEngine.PythonCall

variable {α : Type*}

/-- The header of a Python function: its positional parameters, and whether a
`**kwargs` parameter takes up the remaining keywords. -/
structure Signature where
  params : List String
  varKeywords : Bool

inductive BindError
  | tooManyPositional (takes given : Nat)
  | multipleValues (param : String)
  | unexpectedKeyword (keyword : String)
  | missing (param : String)
  deriving DecidableEq, Repr

/-- The local variables with which a function body starts. -/
structure Bound (α : Type*) where
  params : List (String × α)
  rest : List (String × α)

def Bound.names (b : Bound α) : List String := b.params.map Prod.fst

def Bound.get (name : String) (b : Bound α) : Option α :=
  (b.params.find? (fun p => p.1 = name)).map Prod.snd

def bindKeyword (sig : Signature) (b : Bound α) (kw : String × α) : Except BindError (Bound α) :=
  if kw.1 ∈ b.names then .error (.multipleValues kw.1)
  else if kw.1 ∈ sig.params then .ok { b with params := b.params ++ [kw] }
  else if sig.varKeywords then .ok { b with rest := b.rest ++ [kw] }
  else .error (.unexpectedKeyword kw.1)

def bindKeywords (sig : Signature) : Bound α → List (String × α) → Except BindError (Bound α)
  | b, [] => .ok b
  | b, kw :: kws => (bindKeyword sig b kw).bind (bindKeywords sig · kws)

/-- How a call `f(*args, **kwargs)` binds its arguments. -/
def bindCall (sig : Signature) (args : List α) (kwargs : List (String × α)) :
    Except BindError (Bound α) :=
  (bindKeywords sig { params := sig.params.zip args, rest := [] } kwargs).bind fun b =>
    if sig.params.length < args.length then .error (.tooManyPositional sig.params.length args.length)
    else match sig.params.find? (fun p => p ∉ b.names) with
      | some p => .error (.missing p)
      | none => .ok b

theorem bindKeyword_names {sig : Signature} {b b' : Bound α} {kw : String × α}
    (h : bindKeyword sig b kw = .ok b') {name : String} (hn : name ∈ b.names) :
    name ∈ b'.names := by
  simp only [bindKeyword] at h
  split at h
  · cases h
  · split at h
    · cases h
      simp only [Bound.names, List.map_append, List.mem_append]
      exact .inl hn
    · split at h <;> cases h
      exact hn

/-- A keyword for a parameter that is bound already makes the call fail. -/
theorem bindKeywords_duplicate (sig : Signature) {name : String} {kws : List (String × α)} :
    ∀ b : Bound α, name ∈ b.names → name ∈ kws.map Prod.fst →
      ∃ e, bindKeywords sig b kws = .error e := by
  induction kws with
  | nil => intro b _ hk; simp at hk
  | cons kw kws ih =>
    intro b hn hk
    obtain rfl | hk := List.mem_cons.1 hk
    · exact ⟨_, by simp [bindKeywords, bindKeyword, hn]; rfl⟩
    · cases hb : bindKeyword sig b kw with
      | error e => exact ⟨e, by simp [bindKeywords, hb]; rfl⟩
      | ok b' =>
        obtain ⟨e, he⟩ := ih b' (bindKeyword_names hb hn) hk
        exact ⟨e, by rw [bindKeywords, hb]; exact he⟩

theorem bindCall_duplicate {sig : Signature} {args : List α} {kwargs : List (String × α)}
    {name : String} (hp : name ∈ (sig.params.zip args).map Prod.fst)
    (hk : name ∈ kwargs.map Prod.fst) : ∃ e, bindCall sig args kwargs = .error e := by
  obtain ⟨e, he⟩ := bindKeywords_duplicate sig ⟨sig.params.zip args, []⟩ hp hk
  exact ⟨e, by simp [bindCall, he]; rfl⟩

theorem bindKeywords_rest (sig : Signature) (hv : sig.varKeywords = true)
    (kws : List (String × α)) : ∀ b : Bound α, (∀ kw ∈ kws, kw.1 ∉ b.names ∧ kw.1 ∉ sig.params) →
      bindKeywords sig b kws = .ok { b with rest := b.rest ++ kws } := by
  induction kws with
  | nil => intro b _; simp [bindKeywords]
  | cons kw kws ih =>
    intro b hfresh
    obtain ⟨hn, hp⟩ := hfresh kw (by simp)
    have hb : bindKeyword sig b kw = .ok { b with rest := b.rest ++ [kw] } := by
      simp [bindKeyword, hn, hp, hv]
    rw [bindKeywords, hb]
    have hrest := ih { b with rest := b.rest ++ [kw] }
      (fun kw' hkw' => hfresh kw' (List.mem_cons_of_mem _ hkw'))
    simpa [Except.bind] using hrest

/-- All parameters given by position, all keywords new: each is bound once. -/
theorem bindCall_positional {sig : Signature} {args : List α} {kwargs : List (String × α)}
    (hlen : args.length = sig.params.length) (hv : sig.varKeywords = true)
    (hfresh : ∀ kw ∈ kwargs, kw.1 ∉ sig.params) :
    bindCall sig args kwargs = .ok ⟨sig.params.zip args, kwargs⟩ := by
  have hnames : (sig.params.zip args).map Prod.fst = sig.params :=
    List.map_fst_zip (Nat.le_of_eq hlen.symm)
  have hb := bindKeywords_rest sig hv kwargs ⟨sig.params.zip args, []⟩
    (fun kw hkw => ⟨by simpa only [Bound.names, hnames] using hfresh kw hkw, hfresh kw hkw⟩)
  have hnone : sig.params.find? (fun p => p ∉ (Bound.mk (sig.params.zip args) kwargs).names) =
      none := by
    simp [Bound.names, hnames]
  rw [bindCall, hb]
  simp only [List.nil_append, Except.bind, hlen, Nat.lt_irrefl, if_false, hnone]

end EvalEngine.PythonCall
