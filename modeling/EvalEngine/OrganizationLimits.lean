import EvalEngine.CurrentUser
import EvalEngine.MiddlewareStack
import EvalEngine.WindowSafety

namespace EvalEngine.OrganizationLimits

open EvalEngine.Exceptions EvalEngine.JsonValues EvalEngine.MiddlewareStack
open EvalEngine.AuditService EvalEngine.Transactions EvalEngine.RateLimiting
open EvalEngine.CurrentUser EvalEngine.Transitions EvalEngine.ServiceTables
open EvalEngine.ConstrainedTables EvalEngine.ServiceRequests

/-- `request.state`, which is empty when a request arrives. -/
structure RequestState where
  userId : Option String := none
  orgId : Option String := none

structure HttpRequest where
  path : String
  clientHost : Option String
  xRequestId : Option String := none
  credentials : Credentials
  now : Instant

structure HttpResponse where
  status : Nat
  content : Json := .null
  headers : List (String × String) := []

def HttpResponse.withHeaders (headers : List (String × String)) (response : HttpResponse) :
    HttpResponse :=
  { response with headers := response.headers ++ headers }

/-- What the limiter did with a request that it counts: whose credentials the
request carries, the bucket it counted under, and the limit it was held to. -/
structure Limited where
  request : HttpRequest
  auth : Except PyException Authenticated
  bucket : String
  limit : ℤ

/-- The stores behind the application, with the log of the limiter, the latest
request first. -/
structure World where
  redis : Redis
  database : Database
  limited : List Limited := []

abbrev AppHandler := Handler RequestState World HttpResponse

abbrev AppLayer := Layer RequestState World HttpResponse

/-- The parts of the application that the limiter does not read: the answer of
`CORSMiddleware` to preflight requests and its headers, the endpoints, and the
exception handlers. -/
structure App where
  settings : RateLimiting.Settings
  deployment : Deployment
  preflight : HttpRequest → Option HttpResponse
  corsHeaders : HttpRequest → List (String × String)
  endpoint : HttpRequest → Authenticated → Service HttpResponse
  onError : PyException → HttpResponse

/-- A request, and what the code that serves it reads from outside. -/
structure Arrival where
  request : HttpRequest
  ctx : Context
  uuid4 : UUID

/-- What the limiter reads of a request whose state is `state`. -/
def seen (request : HttpRequest) (state : RequestState) : RateLimiting.Request :=
  ⟨request.path, state.orgId, request.clientHost, request.now⟩

namespace App

variable (app : App)

/-- The audit and the metrics middleware read the response and write to their logs. -/
def auditMiddleware : AppLayer := after id

def metricsMiddleware : AppLayer := after id

def correlationMiddleware (arrival : Arrival) : AppLayer :=
  after (HttpResponse.withHeaders
    [("X-Request-ID", arrival.request.xRequestId.getD (uuidText arrival.uuid4))])

def corsMiddleware (arrival : Arrival) : AppLayer :=
  shortcut (app.preflight arrival.request)
    (after (HttpResponse.withHeaders (app.corsHeaders arrival.request)))

def tooManyRequests (error message : String) (retryAfter : ℤ)
    (headers : List (String × String)) : HttpResponse where
  status := 429
  content := .obj [("error", .str error), ("message", .str message), ("retry_after", .num retryAfter)]
  headers

/-- An entry for the log; a request to an exempt path is not counted. -/
def logEntry (arrival : Arrival) (state : RequestState) (database : Database) : List Limited :=
  if arrival.request.path ∈ exemptPaths then []
  else [{ request := arrival.request
          auth := answer arrival.ctx app.deployment arrival.request.credentials database
          bucket := pipeKey (seen arrival.request state)
          limit := app.settings.rateLimitDefault }]

def rateLimiterMiddleware (arrival : Arrival) : AppLayer := fun next state world =>
  let (redis, verdict) := dispatch app.settings world.redis (seen arrival.request state)
  let world := { world with
    redis
    limited := app.logEntry arrival state world.database ++ world.limited }
  match verdict with
  | .tooMany error message retryAfter headers =>
    (tooManyRequests error message retryAfter headers, state, world)
  | .served headers => after (HttpResponse.withHeaders headers) next state world

/-- The middleware in the order in which `create_app` adds it. -/
def stack (arrival : Arrival) : List AppLayer :=
  addMiddleware auditMiddleware <|
  addMiddleware (app.rateLimiterMiddleware arrival) <|
  addMiddleware (correlationMiddleware arrival) <|
  addMiddleware metricsMiddleware <|
  addMiddleware (app.corsMiddleware arrival) []

/-- What `get_current_user` puts on `request.state`. -/
def signIn (state : RequestState) : Except PyException Authenticated → RequestState
  | .ok auth => ⟨some auth.userId, some auth.orgId⟩
  | .error _ => state

/-- The route: its dependency authenticates the request, then the endpoint runs
in the same transaction. -/
def route (arrival : Arrival) : AppHandler := fun state world =>
  let credentials := arrival.request.credentials
  let (result, database) := transact
    (getCurrentUser arrival.ctx app.deployment credentials >>= app.endpoint arrival.request)
    world.database
  let state := signIn state (answer arrival.ctx app.deployment credentials world.database)
  (match result with
    | .ok response => response
    | .error e => app.onError e, state, { world with database })

def serve (arrival : Arrival) : AppHandler := build (app.stack arrival) (app.route arrival)

/-- One request after the other, each with a state of its own. -/
def step (world : World) (arrival : Arrival) : Option World :=
  some (app.serve arrival {} world).2.2

end App

variable {app : App}

/-- Nothing below the limiter writes to its log. -/
theorem keeps_inner (arrival : Arrival) :
    Keeps World.limited (build [App.correlationMiddleware arrival, App.metricsMiddleware,
      app.corsMiddleware arrival] (app.route arrival)) := by
  apply keeps_build
  · intro state world
    rfl
  · intro layer hlayer next hnext
    simp only [List.mem_cons, List.not_mem_nil, or_false] at hlayer
    obtain rfl | rfl | rfl := hlayer
    · exact keeps_after _ hnext
    · exact keeps_after _ hnext
    · exact keeps_shortcut _ (keeps_after _ hnext)

theorem limited_rateLimiter {next : AppHandler} (hnext : Keeps World.limited next)
    (arrival : Arrival) (state : RequestState) (world : World) :
    (app.rateLimiterMiddleware arrival next state world).2.2.limited =
      app.logEntry arrival state world.database ++ world.limited := by
  unfold App.rateLimiterMiddleware
  cases dispatch app.settings world.redis (seen arrival.request state) with
  | mk redis verdict =>
    cases verdict with
    | served headers => exact keeps_after (HttpResponse.withHeaders headers) hnext state _
    | tooMany error message retryAfter headers => rfl

/-- The limiter is called before the request is authenticated, so it reads an
empty state. -/
theorem limited_serve (arrival : Arrival) (world : World) :
    (app.serve arrival {} world).2.2.limited =
      app.logEntry arrival {} world.database ++ world.limited := by
  have houter := build_after_cons [id] (app.rateLimiterMiddleware arrival)
    [App.correlationMiddleware arrival, App.metricsMiddleware, app.corsMiddleware arrival]
    (app.route arrival) {} world
  have hlimited := congrArg (fun s => s.2.limited) houter
  exact hlimited.trans (limited_rateLimiter (keeps_inner arrival) arrival {} world)

def address (request : HttpRequest) : String := request.clientHost.getD "unknown"

/-- A request counts under its address, and is held to the limit of the settings. -/
structure ByAddress (settings : RateLimiting.Settings) (entry : Limited) : Prop where
  bucket : entry.bucket = "ratelimit:" ++ ("ip:" ++ address entry.request)
  limit : entry.limit = settings.rateLimitDefault

theorem byAddress_logEntry {arrival : Arrival} {database : Database} {entry : Limited}
    (h : entry ∈ app.logEntry arrival {} database) : ByAddress app.settings entry := by
  unfold App.logEntry at h
  split at h
  · cases h
  · rw [List.mem_singleton] at h
    subst h
    exact ⟨rfl, rfl⟩

theorem byAddress_of_run {world after : World} (h : Exec app.step free world after)
    (hstart : ∀ entry ∈ world.limited, ByAddress app.settings entry) :
    ∀ entry ∈ after.limited, ByAddress app.settings entry := by
  apply h.invariant (P := fun world => ∀ entry ∈ world.limited, ByAddress app.settings entry) hstart
  intro world arrival next hworld _ hstep entry hentry
  cases hstep
  rw [limited_serve] at hentry
  cases List.mem_append.1 hentry with
  | inl hnew => exact byAddress_logEntry hnew
  | inr hold => exact hworld entry hold

/-- Authenticated requests share a bucket exactly when their users belong to
one organization, and each is held to its organization's own limit. -/
structure PerOrganization (rateLimitPerMinute : UUID → ℤ) (limited : List Limited) : Prop where
  buckets : ∀ a ∈ limited, ∀ b ∈ limited, ∀ u v, a.auth = .ok u → b.auth = .ok v →
    (a.bucket = b.bucket ↔ u.user.organizationId = v.user.organizationId)
  limits : ∀ a ∈ limited, ∀ u, a.auth = .ok u →
    a.limit = rateLimitPerMinute u.user.organizationId

/-- Authenticated requests come from one address exactly when their users
belong to one organization, and the organizations have the limit of the settings. -/
structure AddressPerOrganization (settings : RateLimiting.Settings) (rateLimitPerMinute : UUID → ℤ)
    (limited : List Limited) : Prop where
  addresses : ∀ a ∈ limited, ∀ b ∈ limited, ∀ u v, a.auth = .ok u → b.auth = .ok v →
    (address a.request = address b.request ↔ u.user.organizationId = v.user.organizationId)
  limits : ∀ a ∈ limited, ∀ u, a.auth = .ok u →
    rateLimitPerMinute u.user.organizationId = settings.rateLimitDefault

/-- The bucket of a request and the organization of its user. -/
def Limited.holder (entry : Limited) : String × Option UUID :=
  (entry.bucket, entry.auth.toOption.map fun u => u.user.organizationId)

theorem auth_of_holder {entry : Limited} {bucket : String} {orgId : UUID}
    (h : entry.holder = (bucket, some orgId)) :
    entry.bucket = bucket ∧ ∃ u, entry.auth = .ok u ∧ u.user.organizationId = orgId := by
  obtain ⟨hbucket, horg⟩ := Prod.ext_iff.1 h
  refine ⟨hbucket, ?_⟩
  cases hauth : entry.auth with
  | error e =>
    simp only [Limited.holder, hauth] at horg
    cases horg
  | ok u =>
    simp only [Limited.holder, hauth] at horg
    exact ⟨u, rfl, Option.some.inj horg⟩

theorem PerOrganization.bucket_eq_iff_holder {rateLimitPerMinute : UUID → ℤ}
    {limited : List Limited} (h : PerOrganization rateLimitPerMinute limited)
    {bucket bucket' : String} {orgId orgId' : UUID}
    (hmem : (bucket, some orgId) ∈ limited.map Limited.holder)
    (hmem' : (bucket', some orgId') ∈ limited.map Limited.holder) :
    bucket = bucket' ↔ orgId = orgId' := by
  obtain ⟨a, ha, hview⟩ := List.mem_map.1 hmem
  obtain ⟨b, hb, hview'⟩ := List.mem_map.1 hmem'
  obtain ⟨rfl, u, hu, rfl⟩ := auth_of_holder hview
  obtain ⟨rfl, v, hv, rfl⟩ := auth_of_holder hview'
  exact h.buckets a ha b hb u v hu hv

theorem bucket_eq_iff {settings : RateLimiting.Settings} {a b : Limited}
    (ha : ByAddress settings a) (hb : ByAddress settings b) :
    a.bucket = b.bucket ↔ address a.request = address b.request := by
  rw [ha.bucket, hb.bucket, String.append_right_inj, String.append_right_inj]

/-- Whatever requests have been served, the limits are those of the
organizations exactly if the addresses and the settings happen to be. -/
theorem organization_limits (app : App) (rateLimitPerMinute : UUID → ℤ) (redis : Redis)
    (database : Database) (world : World) (h : Exec app.step free ⟨redis, database, []⟩ world) :
    PerOrganization rateLimitPerMinute world.limited ↔
      AddressPerOrganization app.settings rateLimitPerMinute world.limited := by
  have hall := byAddress_of_run h (by simp)
  constructor
  · intro hper
    constructor
    · intro a ha b hb u v hu hv
      rw [← bucket_eq_iff (hall a ha) (hall b hb)]
      exact hper.buckets a ha b hb u v hu hv
    · intro a ha u hu
      rw [← hper.limits a ha u hu]
      exact (hall a ha).limit
  · intro haddress
    constructor
    · intro a ha b hb u v hu hv
      rw [bucket_eq_iff (hall a ha) (hall b hb)]
      exact haddress.addresses a ha b hb u v hu hv
    · intro a ha u hu
      rw [haddress.limits a ha u hu]
      exact (hall a ha).limit

section Sample

def sampleOrganization (id : UUID) (slug : String) : Organization where
  id
  name := slug
  slug

def sampleUser (id : UUID) (email : String) : User where
  id
  email
  hashedPassword := "$2b$12$"
  fullName := email
  organizationId := id

/-- Two organizations with one user each. -/
def twoOrganizations : Database :=
  { Database.created with
    tables := { Tables.empty with
      organizations := (Table.write [sampleOrganization 1 "one", sampleOrganization 2 "two"]).getD .empty
      users := (Table.write [sampleUser 1 "a@one.io", sampleUser 2 "b@two.io"]).getD .empty } }

/-- The tokens "1" and "2" are those of the two users. -/
def sampleTokens (token : String) : Option TokenPayload :=
  if token = "1" then some { sub := 1, org := 1, type := "access" }
  else if token = "2" then some { sub := 2, org := 2, type := "access" }
  else none

def sampleApp : App where
  settings := ⟨100, 60⟩
  deployment := {}
  preflight _ := none
  corsHeaders _ := []
  endpoint _ _ := pure { status := 200 }
  onError e := { status := 500, content := .str e.str }

def sampleArrival (token host : String) : Arrival where
  request :=
    { path := "/api/v1/submissions"
      clientHost := some host
      credentials := byToken token
      now := ⟨0, le_refl 0⟩ }
  ctx := { sampleContext with decodeToken := sampleTokens }
  uuid4 := 7

def sampleStart : World := ⟨fun _ => .empty, twoOrganizations, []⟩

/-- Two requests, from one address each. -/
def sampleWorld (host host' : String) : World :=
  (runList sampleApp.step sampleStart [sampleArrival "1" host, sampleArrival "2" host']).get rfl

theorem sample_run (host host' : String) :
    Exec sampleApp.step free sampleStart (sampleWorld host host') :=
  exec_get _ _ _ rfl

theorem organization_limits_apart :
    PerOrganization (fun _ => 100) (sampleWorld "10.0.0.7" "10.0.0.8").limited ↔
      AddressPerOrganization ⟨100, 60⟩ (fun _ => 100) (sampleWorld "10.0.0.7" "10.0.0.8").limited :=
  organization_limits sampleApp (fun _ => 100) _ _ _ (sample_run "10.0.0.7" "10.0.0.8")

/-- Users of two organizations behind one address share a bucket. -/
theorem organization_limits_shared :
    ¬ ∀ world, Exec sampleApp.step free sampleStart world →
      PerOrganization (fun _ => 100) world.limited := by
  intro h
  have hper := h _ (sample_run "10.0.0.7" "10.0.0.7")
  have hlog : (sampleWorld "10.0.0.7" "10.0.0.7").limited.map Limited.holder =
      [("ratelimit:ip:10.0.0.7", some 2), ("ratelimit:ip:10.0.0.7", some 1)] := by decide +kernel
  have hshare := hper.bucket_eq_iff_holder (hlog ▸ List.mem_cons_self)
    (hlog ▸ List.mem_cons_of_mem _ List.mem_cons_self)
  exact absurd (hshare.1 rfl) (by decide)

end Sample

end EvalEngine.OrganizationLimits
