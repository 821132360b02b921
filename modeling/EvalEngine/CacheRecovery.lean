import EvalEngine.FailOpenCache

namespace EvalEngine.CacheRecovery

open EvalEngine.PythonValues EvalEngine.JsonText EvalEngine.FailOpenCache

structure Settings where
  redisUrl : String
  redisMaxConnections : ℕ
  deriving DecidableEq, Repr

/-- A client object of `aioredis`. -/
structure Client where
  url : String
  decodeResponses : Bool
  maxConnections : ℕ
  socketTimeout : ℕ
  socketConnectTimeout : ℕ
  deriving DecidableEq, Repr

/-- `CacheManager`. -/
structure Manager where
  redis : Option Client := none
  isConnected : Bool := false
  deriving DecidableEq, Repr

/-- What `connect` meets, should it get so far: `from_url` raises, the ping
raises, or Redis answers. -/
inductive Meeting
  | badUrl
  | silent
  | answers
  deriving DecidableEq, Repr

inductive Call
  | connect (met : Meeting)
  | disconnect (closes : Bool)
  deriving DecidableEq, Repr

/-- The commands that the manager sends. -/
inductive Command
  | get (key : String)
  | set (key : String) (text : List Char) (ex : ℤ)
  deriving DecidableEq

variable {F : Type} (fl : Floats F) (settings : Settings)

def fromUrl : Client where
  url := settings.redisUrl
  decodeResponses := true
  maxConnections := settings.redisMaxConnections
  socketTimeout := 2
  socketConnectTimeout := 2

namespace Manager

variable (m : Manager)

def connect (met : Meeting) : Manager :=
  match m.redis with
  | some _ => m
  | none =>
    match met with
    | .badUrl => { m with isConnected := false }
    | .silent => { m with
        redis := some (fromUrl settings)
        isConnected := false }
    | .answers => { m with
        redis := some (fromUrl settings)
        isConnected := true }

/-- Where closing the client raises, so does the call, before it clears the flag. -/
def disconnect (closes : Bool) : Manager :=
  match m.redis with
  | some _ => if closes then { m with isConnected := false } else m
  | none => m

def isHealthy : Bool := m.isConnected

/-- The command that `get` sends, if any. -/
def get (key : String) : Option Command :=
  if !m.isConnected || m.redis.isNone then none else some (.get key)

/-- The command that `set` sends at the time `ts`, if any. -/
def set (key : String) (value : Value F) (ts : F) (ttl : ℤ) : Except BuiltinError (Option Command) :=
  if !m.isConnected || m.redis.isNone then .ok none
  else do return some (.set key (← dumps fl (payload value ts ttl)) ttl)

end Manager

def step (m : Manager) : Call → Manager
  | .connect met => m.connect settings met
  | .disconnect closes => m.disconnect closes

def run (m : Manager) (calls : List Call) : Manager := calls.foldl (step settings) m

/-- Both commands reach Redis, `set` with every value that JSON can write. -/
def Reaches (m : Manager) : Prop :=
  (∀ key, m.get key = some (.get key)) ∧
    ∀ key value ts ttl text, dumps fl (payload value ts ttl) = .ok text →
      m.set fl key value ts ttl = .ok (some (.set key text ttl))

/-- What a call promises of the manager that it leaves. -/
def Promised (m : Manager) : Call → Prop
  | .connect .answers => m.isHealthy = true ∧ Reaches fl m
  | .connect _ => m.isHealthy = false
  | .disconnect _ => m.isHealthy = false

/-- The call does what it promises: one that Redis answers meets no client object that has
been given up, the others find the flag unset, or a client that they can close. -/
def Meets (m : Manager) : Call → Prop
  | .connect .answers => m.redis = none ∨ m.isConnected = true
  | .connect _ => m.isConnected = false
  | .disconnect closes => closes = true ∨ m.isConnected = false

/-- Something holds of every call of a sequence and the manager that it finds. -/
def Each (P : Manager → Call → Prop) : Manager → List Call → Prop
  | _, [] => True
  | m, call :: calls => P m call ∧ Each P (step settings m call) calls

/-- A manager that is connected has a client. -/
def Sound (m : Manager) : Prop := m.isConnected = true → m.redis.isSome = true

variable {fl settings} {m : Manager}

theorem connect_of_none (met : Meeting) (h : m.redis = none) :
    m.connect settings met = match met with
      | .badUrl => ⟨none, false⟩
      | .silent => ⟨some (fromUrl settings), false⟩
      | .answers => ⟨some (fromUrl settings), true⟩ := by
  cases met <;> simp only [Manager.connect, h]

theorem connect_of_some {client : Client} (met : Meeting) (h : m.redis = some client) :
    m.connect settings met = m := by
  simp only [Manager.connect, h]

theorem disconnect_of_none (closes : Bool) (h : m.redis = none) : m.disconnect closes = m := by
  simp only [Manager.disconnect, h]

theorem disconnect_of_some {client : Client} (closes : Bool) (h : m.redis = some client) :
    m.disconnect closes = if closes then { m with isConnected := false } else m := by
  simp only [Manager.disconnect, h]

theorem Sound.step (h : Sound m) (call : Call) : Sound (step settings m call) := by
  cases call with
  | connect met =>
    cases hredis : m.redis with
    | none =>
      rw [CacheRecovery.step, connect_of_none met hredis]
      cases met with
      | badUrl => exact fun hfalse => nomatch hfalse
      | silent | answers => exact fun _ => rfl
    | some client =>
      rw [CacheRecovery.step, connect_of_some met hredis]
      exact h
  | disconnect closes =>
    cases hredis : m.redis with
    | none =>
      rw [CacheRecovery.step, disconnect_of_none closes hredis]
      exact h
    | some client =>
      rw [CacheRecovery.step, disconnect_of_some closes hredis]
      cases closes with
      | true => exact fun hfalse => nomatch hfalse
      | false => exact h

theorem Sound.not_connected (h : Sound m) (hredis : m.redis = none) : m.isConnected = false := by
  apply Bool.eq_false_iff.2
  intro hconnected
  have hsome := h hconnected
  rw [hredis] at hsome
  cases hsome

theorem reaches_iff (h : Sound m) : Reaches fl m ↔ m.isHealthy = true := by
  constructor
  · intro hreaches
    have hget := hreaches.1 ""
    cases hconnected : m.isConnected with
    | true => exact hconnected
    | false =>
      rw [Manager.get, hconnected] at hget
      cases hget
  · intro hhealthy
    have hguard : (!m.isConnected || m.redis.isNone) = false := by
      have hsome := h hhealthy
      rw [Manager.isHealthy] at hhealthy
      rw [hhealthy, Option.isNone_eq_false_iff.2 hsome]
      rfl
    constructor
    · intro key
      rw [Manager.get, hguard]
      rfl
    · intro key value ts ttl text hdump
      rw [Manager.set, hguard, hdump]
      rfl

/-- A call does what it promises exactly in the states that meet its condition. -/
theorem step_promised_iff (h : Sound m) (call : Call) :
    Promised fl (step settings m call) call ↔ Meets m call := by
  cases call with
  | connect met =>
    cases hredis : m.redis with
    | none =>
      rw [step, connect_of_none met hredis]
      cases met with
      | badUrl | silent => exact iff_of_true rfl (h.not_connected hredis)
      | answers => exact iff_of_true ⟨rfl, (reaches_iff fun _ => rfl).2 rfl⟩ (.inl hredis)
    | some client =>
      rw [step, connect_of_some met hredis]
      cases met with
      | badUrl | silent => exact Iff.rfl
      | answers =>
        have hsome : m.redis ≠ none := by simp [hredis]
        rw [Promised, reaches_iff h, and_self, Meets, or_iff_right hsome, Manager.isHealthy]
  | disconnect closes =>
    cases hredis : m.redis with
    | none =>
      have hlost := h.not_connected hredis
      rw [step, disconnect_of_none closes hredis]
      exact iff_of_true hlost (.inr hlost)
    | some client =>
      rw [step, disconnect_of_some closes hredis]
      cases closes with
      | true => exact iff_of_true rfl (.inl rfl)
      | false => simp [Promised, Meets, Manager.isHealthy]

theorem each_iff {P Q : Manager → Call → Prop} (hPQ : ∀ m, Sound m → ∀ call, P m call ↔ Q m call)
    {calls : List Call} (h : Sound m) : Each settings P m calls ↔ Each settings Q m calls := by
  induction calls generalizing m with
  | nil => exact Iff.rfl
  | cons call calls ih => exact and_congr (hPQ m h call) (ih (h.step call))

/-- No call gives up a client, and none sets the flag of a manager that has one. -/
theorem step_lost {client : Client} (call : Call) (hredis : m.redis = some client)
    (hlost : m.isConnected = false) : step settings m call = m := by
  cases call with
  | connect met => exact connect_of_some met hredis
  | disconnect closes =>
    rw [step, disconnect_of_some closes hredis]
    cases closes with
    | true => rw [if_pos rfl, ← hlost]
    | false => rfl

theorem run_lost {client : Client} (calls : List Call) (hredis : m.redis = some client)
    (hlost : m.isConnected = false) : run settings m calls = m := by
  induction calls with
  | nil => rfl
  | cons call calls ih =>
    rw [run, List.foldl_cons, step_lost call hredis hlost]
    exact ih

/-- A sequence of calls keeps its promises exactly when every call meets its condition.
Once a client has been given up, no further call makes the manager healthy. -/
theorem recovers_iff (fl : Floats F) (settings : Settings) (calls : List Call) :
    (Each settings (fun m call => Promised fl (step settings m call) call) {} calls ↔
      Each settings Meets {} calls) ∧
    ∀ more client, (run settings {} calls).redis = some client →
      (run settings {} calls).isHealthy = false →
      (run settings {} (calls ++ more)).isHealthy = false := by
  constructor
  · exact each_iff (fun m hm => step_promised_iff hm) fun hfalse => nomatch hfalse
  · intro more client hredis hlost
    have hmore : run settings (run settings {} calls) more = run settings {} calls :=
      run_lost more hredis hlost
    rw [run, List.foldl_append]
    exact (congrArg Manager.isHealthy hmore).trans hlost

/-- Redis answers at the second call, but the client of the first is still there. -/
theorem recovers_not_after_silence :
    ¬ (∀ (F : Type) (fl : Floats F) (settings : Settings) (calls : List Call),
      Each settings (fun m call => Promised fl (step settings m call) call) {} calls) := by
  intro h
  have hall := h Unit noFloats ⟨"redis://localhost:6379/0", 50⟩ [.connect .silent, .connect .answers]
  have hhealthy := hall.2.1.1
  revert hhealthy
  decide

end EvalEngine.CacheRecovery
