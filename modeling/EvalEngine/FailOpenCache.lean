import EvalEngine.JsonRoundTrip
import EvalEngine.Transitions
import Mathlib.Logic.Function.Basic

namespace EvalEngine.FailOpenCache

open EvalEngine.PythonValues EvalEngine.JsonText EvalEngine.JsonRoundTrip EvalEngine.Transitions

variable {F α ε : Type}

/-- How a command fails: with a `RedisError`, after or before it has taken effect, or with
another exception of the client. -/
inductive RedisFailure
  | redisError (applied : Bool)
  | other
  deriving DecidableEq, Repr

inductive Raised (ε : Type)
  | builtin (e : BuiltinError)
  | client
  | function (e : ε)

/-- `@cached(ttl, key_builder, beta)`. -/
structure Decorator (F α : Type) where
  ttl : ℤ
  keyBuilder : α → Except BuiltinError String
  beta : Number F

/-- One call of the decorated function: its arguments, what the function gives for them, and what
the wrapper meets on its way. -/
structure Call (F α ε : Type) where
  args : α
  outcome : Except ε (Value F)
  healthy : Bool
  getFailure : Option RedisFailure
  now : F
  draw : F
  healthyAfter : Bool
  ts : F
  setFailure : Option RedisFailure

/-- The strings in Redis, and the results that the wrapper has stored there. -/
structure State (F : Type) where
  texts : String → Option (List Char)
  results : String → List (Value F)

structure Reply (F ε : Type) where
  called : Bool
  result : Except (Raised ε) (Value F)

variable (fl : Floats F) (d : Decorator F α) (s : State F) (call : Call F α ε)

section Arithmetic

/-- The operand of a float operation. -/
def Number.toFloat : Number F → Except BuiltinError F
  | .int n =>
    match fl.ofInt n with
    | some x => .ok x
    | none => .error .overflowError
  | .float x => .ok x

def Number.add : Number F → Number F → Except BuiltinError (Number F)
  | .int m, .int n => .ok (.int (m + n))
  | m, n => do return .float (fl.add (← Number.toFloat fl m) (← Number.toFloat fl n))

def Number.mul : Number F → Number F → Except BuiltinError (Number F)
  | .int m, .int n => .ok (.int (m * n))
  | m, n => do return .float (fl.mul (← Number.toFloat fl m) (← Number.toFloat fl n))

/-- Whatever is not a number raises a `TypeError`, at the latest beside the clock. -/
def operand (v : Value F) : Except BuiltinError (Number F) :=
  match v.number? with
  | some n => .ok n
  | none => .error .typeError

def logDraw (draw : F) : Except BuiltinError F :=
  match fl.log draw with
  | some x => .ok x
  | none => .error .valueError

/-- `_should_recompute`. -/
def shouldRecompute (now draw : F) (beta : Number F) (ts ttl : Value F) : Except BuiltinError Bool := do
  let ts ← operand ts
  let ttl ← operand ttl
  let expiry ← Number.add fl ts ttl
  let age := fl.sub now (← Number.toFloat fl expiry)
  let scale ← Number.mul fl beta ttl
  let log ← logDraw fl draw
  return fl.ge age (fl.neg (fl.mul (← Number.toFloat fl scale) log))

end Arithmetic

/-- `CacheManager.get`, connected. -/
def get (stored : Option (List Char)) : Except (Raised ε) (Value F) :=
  match call.getFailure with
  | some (.redisError _) => .ok .none
  | some .other => .error .client
  | none =>
    match stored with
    | none | some [] => .ok .none
    | some cs => (loads fl cs).mapError .builtin

/-- What `set` stores. -/
def payload (value : Value F) (ts : F) (ttl : ℤ) : Value F :=
  .dict [(.str (text "val"), value), (.str (text "ts"), .float ts), (.str (text "ttl"), .int ttl)]

/-- `CacheManager.set`: the string that Redis holds afterwards, if it takes one. -/
def set (value : Value F) : Except (Raised ε) (Option (List Char)) :=
  if call.healthyAfter then
    match dumps fl (payload value call.ts d.ttl) with
    | .error e => .error (.builtin e)
    | .ok cs =>
      match call.setFailure with
      | none => .ok (some cs)
      | some (.redisError applied) => .ok (if applied then some cs else none)
      | some .other => .error .client
  else .ok none

def storedTs (entries : List (Value F × Value F)) : Value F := (lookUp (text "ts") entries).getD (.int 0)

def storedTtl (entries : List (Value F × Value F)) : Value F :=
  (lookUp (text "ttl") entries).getD (.int d.ttl)

/-- The first half of the wrapper: the value that it takes from the cache, if any. -/
def consult (stored : Option (List Char)) : Except (Raised ε) (Option (Value F)) :=
  if call.healthy then
    match get fl call stored with
    | .error e => .error e
    | .ok .none => .ok none
    | .ok (.dict entries) =>
      match shouldRecompute fl call.now call.draw d.beta (storedTs entries) (storedTtl d entries) with
      | .error e => .error (.builtin e)
      | .ok true => .ok none
      | .ok false =>
        match lookUp (text "val") entries with
        | some v => .ok (some v)
        | none => .error (.builtin .keyError)
    | .ok _ => .error (.builtin .attributeError)
  else .ok none

def State.store (key : String) (cs : List Char) (v : Value F) : State F where
  texts := Function.update s.texts key (some cs)
  results := Function.update s.results key (v :: s.results key)

/-- The second half: the function is called and its result is stored. -/
def compute (key : String) : Reply F ε × State F :=
  match call.outcome with
  | .error e => (⟨true, .error (.function e)⟩, s)
  | .ok v =>
    match set fl d call v with
    | .error e => (⟨true, .error e⟩, s)
    | .ok none => (⟨true, .ok v⟩, s)
    | .ok (some cs) => (⟨true, .ok v⟩, s.store key cs v)

/-- The `wrapper` of `cached`. -/
def wrapper : Reply F ε × State F :=
  match d.keyBuilder call.args with
  | .error e => (⟨false, .error (.builtin e)⟩, s)
  | .ok key =>
    match consult fl d call (s.texts key) with
    | .error e => (⟨false, .error e⟩, s)
    | .ok (some v) => (⟨false, .ok v⟩, s)
    | .ok none => compute fl d s call key

/-- The call gives the function's result, or one equal to a result stored earlier under its
key, and it raises only what the function raises. -/
def FailsOpen : Prop :=
  match (wrapper fl d s call).1.result with
  | .ok v => ((wrapper fl d s call).1.called = true ∧ call.outcome = .ok v) ∨
      ∃ key, d.keyBuilder call.args = .ok key ∧ ∃ w ∈ s.results key, v.equal fl w = true
  | .error e => (wrapper fl d s call).1.called = true ∧ ∃ e', e = .function e' ∧ call.outcome = .error e'

/-- Whether to recompute an entry. -/
def again (entries : List (Value F × Value F)) : Except BuiltinError Bool :=
  shouldRecompute fl call.now call.draw d.beta (storedTs entries) (storedTtl d entries)

/-- Nothing, or an entry whose age can be told, and which holds an earlier result
unless it is to be recomputed. -/
def Trusted (results : List (Value F)) : Value F → Prop
  | .none => True
  | .dict entries => ∃ b, again fl d call entries = .ok b ∧
      (b = false → ∃ v, lookUp (text "val") entries = some v ∧ ∃ w ∈ results, v.equal fl w = true)
  | _ => False

/-- The look-up meets no failure but a `RedisError`, and a string that can be trusted. -/
def Consultable (key : String) : Prop :=
  call.healthy = true → call.getFailure ≠ some .other ∧ (call.getFailure = none →
    ∀ cs, s.texts key = some cs → cs ≠ [] →
      ∃ data, loads fl cs = .ok data ∧ Trusted fl d call (s.results key) data)

/-- There is an entry that need not be recomputed. -/
def Served (key : String) : Prop :=
  call.healthy = true ∧ call.getFailure = none ∧ ∃ cs entries, s.texts key = some cs ∧ cs ≠ [] ∧
    loads fl cs = .ok (.dict entries) ∧ again fl d call entries = .ok false

/-- JSON can write the result, and storing it meets no failure but a `RedisError`. -/
def Storable (v : Value F) : Prop :=
  call.healthyAfter = true →
    (∃ cs, dumps fl (payload v call.ts d.ttl) = .ok cs) ∧ call.setFailure ≠ some .other

def Sound : Prop :=
  ∃ key, d.keyBuilder call.args = .ok key ∧ Consultable fl d s call key ∧
    (¬ Served fl d s call key → ∀ v, call.outcome = .ok v → Storable fl d call v)

section Cases

variable {fl d s call} {key : String}

/-- An exception that does not come from the function. -/
def Raised.Own : Raised ε → Prop
  | .builtin _ | .client => True
  | .function _ => False

/-- What the string under the key makes of the look-up. -/
theorem consult_entry (fl : Floats F) (d : Decorator F α) {cs : List Char} (hhealthy : call.healthy = true) (hget : call.getFailure = none)
    (htext : s.texts key = some cs) (hcs : cs ≠ []) :
    consult fl d call (s.texts key) = match loads fl cs with
      | .error e => .error (.builtin e)
      | .ok .none => .ok none
      | .ok (.dict entries) =>
        match again fl d call entries with
        | .error e => .error (.builtin e)
        | .ok true => .ok none
        | .ok false =>
          match lookUp (text "val") entries with
          | some v => .ok (some v)
          | none => .error (.builtin .keyError)
      | .ok _ => .error (.builtin .attributeError) := by
  have hloads : get fl call (some cs) = (loads fl cs).mapError Raised.builtin := by
    simp only [get, hget]
  rw [consult, if_pos hhealthy, htext, hloads]
  cases loads fl cs with
  | error e => rfl
  | ok data => cases data <;> rfl

/-- The look-up ends in one of three ways. -/
theorem consult_cases (fl : Floats F) (d : Decorator F α) (s : State F) (call : Call F α ε) (key : String) :
    (consult fl d call (s.texts key) = .ok none ∧ Consultable fl d s call key ∧ ¬ Served fl d s call key) ∨
    (∃ v, consult fl d call (s.texts key) = .ok (some v) ∧ Served fl d s call key ∧
      (Consultable fl d s call key ↔ ∃ w ∈ s.results key, v.equal fl w = true)) ∨
    (∃ e : Raised ε, consult fl d call (s.texts key) = .error e ∧ e.Own ∧ ¬ Consultable fl d s call key) := by
  by_cases hhealthy : call.healthy = true
  swap
  · refine .inl ⟨?_, fun h => absurd h hhealthy, fun h => hhealthy h.1⟩
    rw [consult, if_neg hhealthy]
  cases hget : call.getFailure with
  | some failure =>
    cases failure with
    | redisError applied =>
      refine .inl ⟨?_, fun _ => ⟨by simp [hget], by simp [hget]⟩, fun h => by simp [Served, hget] at h⟩
      simp [consult, hhealthy, get, hget]
    | other =>
      refine .inr (.inr ⟨.client, ?_, trivial, fun h => (h hhealthy).1 hget⟩)
      simp [consult, hhealthy, get, hget]
  | none =>
    cases htext : s.texts key with
    | none =>
      refine .inl ⟨?_, fun _ => ⟨by simp [hget], by simp [htext]⟩, fun h => by simp [Served, htext] at h⟩
      simp [consult, hhealthy, get, hget]
    | some cs =>
      by_cases hcs : cs = []
      · subst hcs
        refine .inl ⟨?_, fun _ => ⟨by simp [hget], by simp [htext]⟩, fun h => by simp [Served, htext] at h⟩
        simp [consult, hhealthy, get, hget]
      · have hentry := consult_entry fl d hhealthy hget htext hcs
        have hconsultable : Consultable fl d s call key ↔
            ∃ data, loads fl cs = .ok data ∧ Trusted fl d call (s.results key) data := by
          simp [Consultable, hhealthy, hget, htext, hcs]
        have hserved : Served fl d s call key ↔
            ∃ entries, loads fl cs = .ok (.dict entries) ∧ again fl d call entries = .ok false := by
          simp [Served, hhealthy, hget, htext, hcs]
        rw [← htext, hentry, hconsultable, hserved]
        cases hloads : loads fl cs with
        | error e => exact .inr (.inr ⟨_, rfl, trivial, by simp⟩)
        | ok data =>
          cases data with
          | none => exact .inl ⟨rfl, ⟨_, rfl, trivial⟩, by simp⟩
          | dict entries =>
            cases hagain : again fl d call entries with
            | error e =>
              refine .inr (.inr ⟨.builtin e, by simp only [hagain], trivial, ?_⟩)
              simp [Trusted, hagain]
            | ok b =>
              cases b with
              | true =>
                exact .inl ⟨by simp only [hagain], ⟨_, rfl, true, hagain, by simp⟩, by simp [hagain]⟩
              | false =>
                cases hval : lookUp (text "val") entries with
                | none =>
                  refine .inr (.inr ⟨.builtin .keyError, by simp only [hagain, hval], trivial, ?_⟩)
                  simp [Trusted, hagain, hval]
                | some v =>
                  refine .inr (.inl ⟨v, by simp only [hagain, hval], ⟨entries, rfl, hagain⟩, ?_⟩)
                  simp [Trusted, hagain, hval]
          | bool b | int n | float x | str t | list xs | tuple xs | object i =>
            exact .inr (.inr ⟨.builtin .attributeError, rfl, trivial, by simp [Trusted]⟩)

theorem set_cases (fl : Floats F) (d : Decorator F α) (call : Call F α ε) (v : Value F) :
    (Storable fl d call v ∧ ∃ written, set fl d call v = .ok written) ∨
      ¬ Storable fl d call v ∧ ∃ e : Raised ε, set fl d call v = .error e ∧ e.Own := by
  by_cases hafter : call.healthyAfter = true
  swap
  · refine .inl ⟨fun h => absurd h hafter, none, ?_⟩
    rw [set, if_neg hafter]
  cases hdump : dumps fl (payload v call.ts d.ttl) with
  | error e =>
    refine .inr ⟨fun h => ?_, .builtin e, by simp [set, hafter, hdump], trivial⟩
    obtain ⟨⟨cs, hcs⟩, -⟩ := h hafter
    rw [hdump] at hcs
    cases hcs
  | ok cs =>
    cases hfailure : call.setFailure with
    | none => exact .inl ⟨fun _ => ⟨⟨cs, hdump⟩, by simp [hfailure]⟩, some cs, by simp [set, hafter, hdump, hfailure]⟩
    | some failure =>
      cases failure with
      | redisError applied =>
        exact .inl ⟨fun _ => ⟨⟨cs, hdump⟩, by simp [hfailure]⟩, _, by simp [set, hafter, hdump, hfailure]; rfl⟩
      | other =>
        exact .inr ⟨fun h => (h hafter).2 hfailure, .client, by simp [set, hafter, hdump, hfailure], trivial⟩

end Cases

section Replies

variable {fl d s call}

/-- A reply with the function's result, or with its exception. -/
theorem failsOpen_of_called {v : Value F} (houtcome : call.outcome = .ok v)
    (h : (wrapper fl d s call).1 = ⟨true, .ok v⟩) : FailsOpen fl d s call := by
  rw [FailsOpen, h]
  exact .inl ⟨rfl, houtcome⟩

theorem failsOpen_of_raised {e : ε} (houtcome : call.outcome = .error e)
    (h : (wrapper fl d s call).1 = ⟨true, .error (.function e)⟩) : FailsOpen fl d s call := by
  rw [FailsOpen, h]
  exact ⟨rfl, e, rfl, houtcome⟩

/-- A reply from the cache. -/
theorem failsOpen_of_served {key : String} {v : Value F}
    (hkey : d.keyBuilder call.args = .ok key) (h : (wrapper fl d s call).1 = ⟨false, .ok v⟩) :
    FailsOpen fl d s call ↔ ∃ w ∈ s.results key, v.equal fl w = true := by
  rw [FailsOpen, h, hkey]
  simp

/-- A reply with an exception of the wrapper's own. -/
theorem not_failsOpen_of_own {called : Bool} {e : Raised ε} (hown : e.Own)
    (h : (wrapper fl d s call).1 = ⟨called, .error e⟩) : ¬ FailsOpen fl d s call := by
  rw [FailsOpen, h]
  rintro ⟨-, e', rfl, -⟩
  exact hown

/-- Under its key, a call fails open when the look-up meets an entry that it can trust and a new
result can be stored. -/
theorem failsOpen_iff_of_key {key : String} (hkey : d.keyBuilder call.args = .ok key) :
    FailsOpen fl d s call ↔ Consultable fl d s call key ∧
      (¬ Served fl d s call key → ∀ v, call.outcome = .ok v → Storable fl d call v) := by
  obtain ⟨hconsult, hconsultable, hserved⟩ | ⟨v, hconsult, hserved, hiff⟩ | ⟨e, hconsult, hown, hnot⟩ :=
    consult_cases fl d s call key
  · have hwrapper : wrapper fl d s call = compute fl d s call key := by
      simp only [wrapper, hkey, hconsult]
    cases houtcome : call.outcome with
    | error e =>
      refine iff_of_true (failsOpen_of_raised houtcome ?_) ⟨hconsultable, by simp⟩
      simp only [hwrapper, compute, houtcome]
    | ok v =>
      obtain ⟨hstorable, written, hset⟩ | ⟨hnot, e, hset, hown⟩ := set_cases fl d call v
      · refine iff_of_true (failsOpen_of_called houtcome ?_) ⟨hconsultable, ?_⟩
        · cases written <;> simp only [hwrapper, compute, houtcome, hset]
        · rintro - w ⟨⟩
          exact hstorable
      · have hreply : (wrapper fl d s call).1 = ⟨true, .error e⟩ := by
          simp only [hwrapper, compute, houtcome, hset]
        refine iff_of_false (not_failsOpen_of_own hown hreply) ?_
        rintro ⟨-, hstorable⟩
        exact hnot (hstorable hserved v rfl)
  · have hwrapper : (wrapper fl d s call).1 = ⟨false, .ok v⟩ := by
      simp only [wrapper, hkey, hconsult]
    rw [failsOpen_of_served hkey hwrapper, ← hiff]
    exact ⟨fun h => ⟨h, fun hnot => absurd hserved hnot⟩, fun h => h.1⟩
  · have hwrapper : (wrapper fl d s call).1 = ⟨false, .error e⟩ := by
      simp only [wrapper, hkey, hconsult]
    exact iff_of_false (not_failsOpen_of_own hown hwrapper) fun h => hnot h.1

end Replies

/-- A decorated function fails open exactly when its key can be built, the look-up meets
an entry that it can trust, and a new result can be stored. -/
theorem failsOpen_iff : FailsOpen fl d s call ↔ Sound fl d s call := by
  cases hkey : d.keyBuilder call.args with
  | error e =>
    have hwrapper : (wrapper fl d s call).1 = ⟨false, .error (.builtin e)⟩ := by
      simp only [wrapper, hkey]
    refine iff_of_false (not_failsOpen_of_own (e := .builtin e) trivial hwrapper) ?_
    rintro ⟨key, hok, -⟩
    rw [hkey] at hok
    cases hok
  | ok key => simp [failsOpen_iff_of_key hkey, Sound, hkey]

section Runs

/-- What happens to the cache: calls, entries that expire, and strings that others store. -/
inductive Action (F α ε : Type)
  | call (call : Call F α ε)
  | drop (key : String)
  | write (key : String) (cs : List Char)

def step (s : State F) : Action F α ε → Option (State F)
  | .call call => some (wrapper fl d s call).2
  | .drop key => some { s with texts := Function.update s.texts key none }
  | .write key cs => some { s with texts := Function.update s.texts key (some cs) }

def start : State F := ⟨fun _ => none, fun _ => []⟩

/-- Times to live that fit a float, under the default kind of `beta`. -/
structure Ordinary : Prop where
  beta : ∃ b, d.beta = .float b
  ttl : (fl.ofInt d.ttl).isSome = true
  digits : (Nat.toDigits 10 d.ttl.natAbs).length ≤ 4300

/-- A call that meets no exception of its own, with a positive draw and a plain result. -/
structure CarefulCall : Prop where
  key : ∃ key, d.keyBuilder call.args = .ok key
  get : call.getFailure ≠ some .other
  set : call.setFailure ≠ some .other
  draw : (fl.log call.draw).isSome = true
  clock : fl.eq call.ts call.ts = true
  result : ∀ v, call.outcome = .ok v → v.Plain fl

/-- Nobody but the wrapper stores strings under its keys. -/
def Careful (_ : State F) : Action F α ε → Prop
  | .call call => CarefulCall fl d call
  | .drop _ => True
  | .write _ _ => False

/-- Every string is the text of an earlier result. -/
def Owned : Prop :=
  ∀ key cs, s.texts key = some cs → ∃ v ts, v ∈ s.results key ∧ v.Plain fl ∧ fl.eq ts ts = true ∧
    dumps fl (payload v ts d.ttl) = .ok cs

variable {fl d s call}

theorem lookUp_val (v : Value F) (ts : F) (ttl : ℤ) :
    ∃ entries, payload v ts ttl = .dict entries ∧ lookUp (text "val") entries = some v ∧
      lookUp (text "ts") entries = some (.float ts) ∧ lookUp (text "ttl") entries = some (.int ttl) := by
  have hval : text "val" ≠ text "ts" ∧ text "val" ≠ text "ttl" ∧ text "ts" ≠ text "ttl" := by decide
  exact ⟨_, rfl, by simp [lookUp], by simp [lookUp, hval], by simp [lookUp, hval]⟩

theorem plain_payload (hd : Ordinary fl d) {v : Value F} {ts : F} (hv : v.Plain fl)
    (hts : fl.eq ts ts = true) : (payload v ts d.ttl).Plain fl := by
  have hpair : hasPair (text "val") = false ∧ hasPair (text "ts") = false ∧
      hasPair (text "ttl") = false := by decide
  have hkeys : text "ts" ≠ text "val" ∧ text "ttl" ≠ text "val" ∧ text "ttl" ≠ text "ts" := by decide
  refine ⟨⟨hpair.1, ?_⟩, hv, ⟨hpair.2.1, ?_⟩, hts, ⟨hpair.2.2, rfl⟩, hd.digits, trivial⟩
  · simp [lookUp, hkeys]
  · simp [lookUp, hkeys]

/-- The age of an entry of the wrapper's can be told. -/
theorem again_ok (hd : Ordinary fl d) (hdraw : (fl.log call.draw).isSome = true)
    {entries : List (Value F × Value F)} {ts : F} (hts : lookUp (text "ts") entries = some (.float ts))
    (httl : lookUp (text "ttl") entries = some (.int d.ttl)) : ∃ b, again fl d call entries = .ok b := by
  obtain ⟨b, hbeta⟩ := hd.beta
  obtain ⟨x, hx⟩ := Option.isSome_iff_exists.1 hd.ttl
  obtain ⟨y, hy⟩ := Option.isSome_iff_exists.1 hdraw
  refine ⟨fl.ge (fl.sub call.now (fl.add ts x)) (fl.neg (fl.mul (fl.mul b x) y)), ?_⟩
  have hadd : Number.add fl (.float ts) (.int d.ttl) = .ok (.float (fl.add ts x)) := by
    simp only [Number.add, Number.toFloat, hx]
    rfl
  have hmul : Number.mul fl (.float b) (.int d.ttl) = .ok (.float (fl.mul b x)) := by
    simp only [Number.mul, Number.toFloat, hx]
    rfl
  have hlog : logDraw fl call.draw = .ok y := by rw [logDraw, hy]
  rw [again, storedTs, storedTtl, hts, httl, hbeta]
  simp only [shouldRecompute, operand, Option.getD_some, Value.number?, bind, Except.bind, hadd, hmul,
    hlog, Number.toFloat]
  rfl

theorem owned_start : Owned fl d start := by
  rintro key cs ⟨⟩

theorem owned_store {key : String} {cs : List Char} {v : Value F} {ts : F} (h : Owned fl d s)
    (hv : v.Plain fl) (hts : fl.eq ts ts = true) (hdump : dumps fl (payload v ts d.ttl) = .ok cs) :
    Owned fl d (s.store key cs v) := by
  intro key' cs' htext
  by_cases hkey : key' = key
  · subst hkey
    simp only [State.store, Function.update_self] at htext
    cases htext
    exact ⟨v, ts, by simp [State.store], hv, hts, hdump⟩
  · simp only [State.store, Function.update_of_ne hkey] at htext
    obtain ⟨w, ts', hmem, hw⟩ := h key' cs' htext
    exact ⟨w, ts', by simpa [State.store, Function.update_of_ne hkey] using hmem, hw⟩

theorem owned_wrapper (h : Owned fl d s) (hcall : CarefulCall fl d call) :
    Owned fl d (wrapper fl d s call).2 := by
  have hcompute : ∀ key, Owned fl d (compute fl d s call key).2 := by
    intro key
    unfold compute
    split
    · exact h
    next v houtcome =>
      split
      · exact h
      · exact h
      next cs hset =>
        refine owned_store h (hcall.result v houtcome) hcall.clock ?_
        unfold set at hset
        split at hset
        · split at hset
          · cases hset
          next cs' hdump =>
            split at hset
            · cases hset
              exact hdump
            next applied _ =>
              cases applied with
              | true =>
                cases hset
                exact hdump
              | false => cases hset
            · cases hset
        · cases hset
  unfold wrapper
  split
  · exact h
  · split
    · exact h
    · exact h
    · exact hcompute _

/-- A careful call on the wrapper's own entries fails open. -/
theorem failsOpen_of_owned (hfl : Readable fl) (hd : Ordinary fl d) (h : Owned fl d s)
    (hcall : CarefulCall fl d call) : FailsOpen fl d s call := by
  obtain ⟨key, hkey⟩ := hcall.key
  refine (failsOpen_iff_of_key hkey).2 ⟨fun _ => ⟨hcall.get, fun _ cs htext _ => ?_⟩, ?_⟩
  · obtain ⟨v, ts, hmem, hv, hts, hdump⟩ := h key cs htext
    obtain ⟨cs', hdump', -, hloads⟩ := loads_dumps hfl (plain_payload hd hv hts)
    rw [hdump] at hdump'
    cases hdump'
    obtain ⟨entries, hpayload, hval, htsEntry, httl⟩ := lookUp_val v ts d.ttl
    obtain ⟨b, hagain⟩ := again_ok hd hcall.draw htsEntry httl
    refine ⟨_, hloads, ?_⟩
    rw [hpayload]
    exact ⟨b, hagain, fun _ => ⟨v, hval, v, hmem, Value.equal_self hv⟩⟩
  · intro _ v houtcome _
    obtain ⟨cs, hdump, -, -⟩ := loads_dumps hfl (plain_payload hd (hcall.result v houtcome) hcall.clock)
    exact ⟨⟨cs, hdump⟩, hcall.set⟩

/-- As long as nobody else stores strings, the results are plain and Redis fails as it should, every
call of every run fails open. -/
theorem failsOpen_of_careful (hfl : Readable fl) (hd : Ordinary fl d)
    (h : Exec (step fl d) (Careful fl d : State F → Action F α ε → Prop) start s)
    (hcall : CarefulCall fl d call) : FailsOpen fl d s call := by
  refine failsOpen_of_owned hfl hd (h.invariant owned_start fun s a t hs hok hst => ?_) hcall
  cases a with
  | call call =>
    cases hst
    exact owned_wrapper hs hok
  | drop key =>
    cases hst
    intro key' cs htext
    by_cases hkey : key' = key
    · subst hkey
      simp only [Function.update_self] at htext
      cases htext
    · simp only [Function.update_of_ne hkey] at htext
      exact hs key' cs htext
  | write key cs => exact hok.elim

end Runs

section LlmJudge

/-- `llm_cache_key`, over the SHA-256 digest of the encoded prompt. -/
def llmCacheKey (sha256 : Text → String) (args : Text × String) : Except BuiltinError String :=
  if args.1.any (fun c => isHigh c || isLow c) then .error .valueError
  else .ok ("llm:" ++ sha256 args.1 ++ ":" ++ args.2)

/-- The decorator of `_call_llm`. -/
def callLlm (sha256 : Text → String) : Decorator F (Text × String) where
  ttl := 86400
  keyBuilder := llmCacheKey sha256
  beta := .float (fl.ofText "1.0".toList)

/-- No float is met on the way. -/
def noFloats : Floats Unit where
  nan := ()
  inf := ()
  negInf := ()
  eq _ _ := false
  eqInt _ _ := false
  ge _ _ := false
  neg _ := ()
  add _ _ := ()
  sub _ _ := ()
  mul _ _ := ()
  ofInt _ := none
  log _ := none
  repr _ := []
  ofText _ := ()

/-- A call of `_call_llm` with an empty prompt, which the model answers. -/
def judging : Call Unit (Text × String) Empty where
  args := ([], "gpt-4-turbo")
  outcome := .ok (.tuple [.dict [], .dict []])
  healthy := true
  getFailure := none
  now := ()
  draw := ()
  healthyAfter := true
  ts := ()
  setFailure := none

/-- On a string that is not JSON the judge's call raises, though the model answers. -/
theorem garbage_raises : ¬ ∀ (F α ε : Type) (fl : Floats F) (d : Decorator F α) (s : State F)
    (call : Call F α ε), FailsOpen fl d s call := by
  intro h
  have hkey : (callLlm noFloats fun _ => "").keyBuilder judging.args = .ok "llm::gpt-4-turbo" := by decide
  have hopen := h Unit (Text × String) Empty noFloats (callLlm noFloats fun _ => "")
    ⟨fun _ => some "not json".toList, fun _ => []⟩ judging
  obtain ⟨hconsultable, -⟩ := (failsOpen_iff_of_key hkey).1 hopen
  obtain ⟨data, hloads, -⟩ := (hconsultable rfl).2 rfl _ rfl (by decide)
  have hraised : loads noFloats "not json".toList = .error .valueError := rfl
  rw [hraised] at hloads
  cases hloads

end LlmJudge

end EvalEngine.FailOpenCache
