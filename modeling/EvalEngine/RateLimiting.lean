import EvalEngine.Rounding
import EvalEngine.SlidingWindow
import EvalEngine.SortedSets
import EvalEngine.Transitions
import Mathlib.Logic.Function.Basic

namespace EvalEngine.RateLimiting

open EvalEngine.Rounding EvalEngine.SortedSets

/-- A reading of `time.time()`. -/
structure Instant where
  reading : ℚ
  epoch : 0 ≤ reading
  deriving DecidableEq

/-- The sorted set behind a key with the time its TTL ends. A member is the
text of its score; the text of a float determines the float, so the model
keeps the number itself. -/
structure Slot where
  set : SortedSet ℚ ℚ
  expiresAt : ℚ
  stamped : ∀ e ∈ set.entries, e.1 = e.2 ∧ 0 ≤ e.2

namespace Slot

def empty : Slot := ⟨.empty, 0, fun _ h => absurd h List.not_mem_nil⟩

/-- A key whose TTL has ended is not there. -/
def live (s : Slot) (now : Instant) : Slot := if now.reading < s.expiresAt then s else empty

theorem stamped_remove (s : Slot) (lo hi : ℚ) :
    ∀ e ∈ (s.set.removeRangeByScore lo hi).entries, e.1 = e.2 ∧ 0 ≤ e.2 :=
  fun e he => s.stamped e (List.mem_of_mem_filter he)

def zremrangebyscore (s : Slot) (lo hi : ℚ) : Slot :=
  ⟨s.set.removeRangeByScore lo hi, s.expiresAt, s.stamped_remove lo hi⟩

def zcard (s : Slot) : ℤ := s.set.card

theorem stamped_add (s : Slot) (now : Instant) :
    ∀ e ∈ (s.set.add now.reading now.reading).entries, e.1 = e.2 ∧ 0 ≤ e.2 := by
  intro e he
  cases List.mem_cons.1 he with
  | inl heq => subst heq; exact ⟨rfl, now.epoch⟩
  | inr hold => exact s.stamped e (List.mem_of_mem_filter hold)

/-- `zadd(key, {str(now): now})` -/
def zadd (s : Slot) (now : Instant) : Slot :=
  ⟨s.set.add now.reading now.reading, s.expiresAt, s.stamped_add now⟩

def expire (s : Slot) (now : Instant) (seconds : ℤ) : Slot :=
  { s with expiresAt := now.reading + seconds }

def readings (s : Slot) : Finset ℚ := s.set.members

end Slot

abbrev Redis := String → Slot

structure Settings where
  rateLimitDefault : ℤ
  rateLimitWindowSeconds : ℤ

/-- What the middleware reads of a request, and the clock when it does. -/
structure Request where
  path : String
  orgId : Option String
  clientHost : Option String
  now : Instant
  deriving DecidableEq

inductive Response where
  /-- The answer of the handler, with these headers added. -/
  | served (headers : List (String × String))
  | tooMany (error message : String) (retryAfter : ℤ) (headers : List (String × String))
  deriving DecidableEq

def Response.admitted : Response → Bool
  | .served _ => true
  | .tooMany .. => false

def exemptPaths : List String :=
  ["/api/v1/health", "/api/v1/health/live", "/api/v1/health/ready", "/api/v1/health/deps",
    "/metrics"]

def getRateKey (request : Request) : String :=
  let byAddress := "ip:" ++ request.clientHost.getD "unknown"
  match request.orgId with
  | some orgId => if orgId = "" then byAddress else "org:" ++ orgId
  | none => byAddress

def pipeKey (request : Request) : String := "ratelimit:" ++ getRateKey request

def dispatch (settings : Settings) (redis : Redis) (request : Request) : Redis × Response :=
  if request.path ∈ exemptPaths then (redis, .served [])
  else
    let window := settings.rateLimitWindowSeconds
    let limit := settings.rateLimitDefault
    let now := request.now
    let windowStart := now.reading - window
    let cleaned := ((redis (pipeKey request)).live now).zremrangebyscore 0 windowStart
    let currentCount := cleaned.zcard
    let stored := (cleaned.zadd now).expire now (window + 1)
    let redis := Function.update redis (pipeKey request) stored
    let headers := [("X-RateLimit-Limit", toString limit),
      ("X-RateLimit-Remaining", toString (max 0 (limit - currentCount - 1))),
      ("X-RateLimit-Reset", toString (truncate (now.reading + window)))]
    if limit ≤ currentCount then
      (redis, .tooMany "rate_limit_exceeded"
        ("Rate limit of " ++ toString limit ++ " requests per " ++ toString window ++ "s exceeded")
        window (headers ++ [("Retry-After", toString window)]))
    else (redis, .served headers)

def callKey (identifier endpoint : String) (windowSeconds : ℤ) : String :=
  "ratelimit:" ++ identifier ++ ":" ++ endpoint ++ ":" ++ toString windowSeconds

/-- The cache manager's connection. -/
inductive Connection where
  | down
  /-- Every command raises. -/
  | failing
  | up
  deriving DecidableEq

/-- The seconds of `RateLimitExceeded`, or `none` where the call returns. -/
def checkRateLimit (connection : Connection) (redis : Redis) (now : Instant)
    (identifier endpoint : String) (limit : ℤ) (windowSeconds : ℤ := 60) : Redis × Option ℤ :=
  match connection with
  | .down => (redis, none)
  | .failing => (redis, none)
  | .up =>
    let clearBefore := now.reading - windowSeconds
    let key := callKey identifier endpoint windowSeconds
    let cleaned := ((redis key).live now).zremrangebyscore 0 clearBefore
    let added := cleaned.zadd now
    let currentRequests := added.zcard
    let stored := added.expire now (windowSeconds + 5)
    let redis := Function.update redis key stored
    if limit < currentRequests then
      match ((redis key).live now).set.leastScore with
      | some oldest => (redis, some (max 1 (truncate (oldest + windowSeconds - now.reading))))
      | none => (redis, some windowSeconds)
    else (redis, none)

end EvalEngine.RateLimiting
