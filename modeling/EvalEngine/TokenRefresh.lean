import EvalEngine.Transitions
import Mathlib.Data.List.Nodup
import Mathlib.Data.Nat.Notation

namespace EvalEngine.TokenRefresh

open EvalEngine.Transitions

def bearer (token : String) : String := "Bearer " ++ token

/-- What `processQueue` does to one promise: `processQueue(null, token)`
resolves it with the token, `processQueue(error)` rejects it. -/
inductive Settlement
  | resolve (token : String)
  | reject
  deriving DecidableEq

/-- Where a request stands. A waking one has been handed to `apiClient`
again, on behalf of a queued promise or of the refresh itself, and goes out in
a microtask. -/
inductive Phase
  | unsent
  | inFlight
  | queued (promise : ℕ)
  | refreshing
  | waking (token : String) (promise : Option ℕ)
  | resolved
  | rejected
  deriving DecidableEq

/-- The config of a request, with the Authorization header of every time it was
sent. -/
structure Request where
  authorization : Option String
  retry : Bool
  phase : Phase
  sent : List (Option String)

/-- A promise that the response interceptor put on the queue, the number of
refreshes that had ended by then, and the calls of its two functions. -/
structure Deferred where
  request : ℕ
  refresh : ℕ
  settlements : List Settlement
  replays : List (Option String)

structure RefreshCall where
  request : ℕ
  refreshToken : String

structure TokenResponse where
  accessToken : String
  refreshToken : String

structure State where
  isRefreshing : Bool
  failedQueue : List ℕ
  accessToken : Option String
  refreshToken : Option String
  pathname : String
  requests : ℕ → Request
  issued : ℕ
  promises : ℕ → Deferred
  created : ℕ
  refreshCalls : List RefreshCall
  refreshes : List (ℕ × Settlement)

/-- The page as it loads the module. -/
def start (accessToken refreshToken : Option String) (pathname : String) : State where
  isRefreshing := false
  failedQueue := []
  accessToken := accessToken
  refreshToken := refreshToken
  pathname := pathname
  requests := fun _ => ⟨none, false, .unsent, []⟩
  issued := 0
  promises := fun _ => ⟨0, 0, [], []⟩
  created := 0
  refreshCalls := []
  refreshes := []

def Settlement.phase (promise : Option ℕ) : Settlement → Phase
  | .resolve token => .waking token promise
  | .reject => .rejected

def State.setPhase (s : State) (i : ℕ) (phase : Phase) : State :=
  { s with requests := Function.update s.requests i { s.requests i with phase := phase } }

def settle (r : Settlement) (s : State) (p : ℕ) : State :=
  { s.setPhase (s.promises p).request (r.phase (some p)) with
    promises := Function.update s.promises p
      { s.promises p with settlements := (s.promises p).settlements ++ [r] } }

def processQueue (r : Settlement) (s : State) : State :=
  { s.failedQueue.foldl (settle r) s with failedQueue := [] }

def requestInterceptor (accessToken authorization : Option String) : Option String :=
  match accessToken with
  | none => authorization
  | some token => if token = "" then authorization else some (bearer token)

/-- A request goes through the request interceptor and out. -/
def send (s : State) (i : ℕ) (q : Request) : State :=
  let authorization := requestInterceptor s.accessToken q.authorization
  let q := { q with
    authorization := authorization, phase := .inFlight, sent := q.sent ++ [authorization] }
  { s with requests := Function.update s.requests i q }

def goToLogin (s : State) : State :=
  if s.pathname ≠ "/login" then { s with pathname := "/login" } else s

def enqueue (s : State) (i : ℕ) : State :=
  { s.setPhase i (.queued s.created) with
    failedQueue := s.failedQueue ++ [s.created]
    promises := Function.update s.promises s.created ⟨i, s.refreshes.length, [], []⟩
    created := s.created + 1 }

/-- `originalRequest._retry = true; isRefreshing = true`. -/
def beginRefresh (s : State) (i : ℕ) : State :=
  { s with
    requests := Function.update s.requests i { s.requests i with retry := true }
    isRefreshing := true }

def withoutRefreshToken (s : State) (i : ℕ) : State :=
  let s := { processQueue .reject s with isRefreshing := false }
  (goToLogin { s with accessToken := none }).setPhase i .rejected

/-- The response interceptor on the error of a request, with the status of its
response, if it has one. -/
def responseInterceptor (s : State) (i : ℕ) (status : Option ℕ) : State :=
  if status = some 401 ∧ (s.requests i).retry = false then
    if s.isRefreshing then enqueue s i
    else
      let s := beginRefresh s i
      match s.refreshToken with
      | none => withoutRefreshToken s i
      | some token =>
        if token = "" then withoutRefreshToken s i
        else { s.setPhase i .refreshing with refreshCalls := s.refreshCalls ++ [⟨i, token⟩] }
  else s.setPhase i .rejected

/-- The rest of the response interceptor once the refresh call of a request has
answered with `data`, or has failed, or the tokens could not be stored. The
`finally` is reached without waiting for the replay. -/
def refreshed (s : State) (i : ℕ) (data : Option TokenResponse) : State :=
  let s := { s with refreshCalls := s.refreshCalls.filter fun call => call.request ≠ i }
  match data with
  | some data =>
    let r := Settlement.resolve data.accessToken
    let s := { s with
      accessToken := some data.accessToken
      refreshToken := some data.refreshToken
      refreshes := s.refreshes ++ [(i, r)] }
    { (processQueue r s).setPhase i (r.phase none) with isRefreshing := false }
  | none =>
    let s := processQueue .reject { s with refreshes := s.refreshes ++ [(i, .reject)] }
    let s := goToLogin { s with accessToken := none, refreshToken := none }
    { s.setPhase i .rejected with isRefreshing := false }

/-- `originalRequest.headers.Authorization = "Bearer " + token` and the call of
`apiClient`, up to the request being sent. -/
def replay (s : State) (i : ℕ) (token : String) (promise : Option ℕ) : State :=
  let q := { s.requests i with authorization := some (bearer token) }
  let authorization := requestInterceptor s.accessToken q.authorization
  match promise with
  | none => send s i q
  | some p =>
    { send s i q with
      promises := Function.update s.promises p
        { s.promises p with replays := (s.promises p).replays ++ [authorization] } }

/-- What can happen next on the page. The other code of the page may issue a
request, store tokens and change the location. -/
inductive Event
  | issue (authorization : Option String)
  | success (i : ℕ)
  | failure (i : ℕ) (status : Option ℕ)
  | refreshed (i : ℕ) (data : Option TokenResponse)
  | replay (i : ℕ)
  | page (accessToken refreshToken : Option String) (pathname : String)

def Phase.awake : Phase → Bool
  | .waking _ _ => true
  | _ => false

/-- Microtasks run before the next event of the page. -/
def busy (s : State) : Prop := ∃ i < s.issued, (s.requests i).phase.awake = true

instance (s : State) : Decidable (busy s) :=
  inferInstanceAs (Decidable (∃ i < s.issued, (s.requests i).phase.awake = true))

def step (s : State) : Event → Option State
  | .issue authorization =>
    if busy s then none
    else some { send s s.issued ⟨authorization, false, .unsent, []⟩ with issued := s.issued + 1 }
  | .success i =>
    if busy s ∨ (s.requests i).phase ≠ .inFlight then none else some (s.setPhase i .resolved)
  | .failure i status =>
    if busy s ∨ (s.requests i).phase ≠ .inFlight then none
    else some (responseInterceptor s i status)
  | .refreshed i data =>
    if busy s ∨ ∀ call ∈ s.refreshCalls, call.request ≠ i then none else some (refreshed s i data)
  | .replay i =>
    match (s.requests i).phase with
    | .waking token promise => some (replay s i token promise)
    | _ => none
  | .page accessToken refreshToken pathname =>
    if busy s then none
    else some { s with
      accessToken := accessToken, refreshToken := refreshToken, pathname := pathname }

end EvalEngine.TokenRefresh
