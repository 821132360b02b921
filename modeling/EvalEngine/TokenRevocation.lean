import EvalEngine.CurrentUser
import EvalEngine.Rounding

namespace EvalEngine.TokenRevocation

open EvalEngine.Exceptions EvalEngine.Rounding EvalEngine.AuditService EvalEngine.AuthService
open EvalEngine.AuthContracts EvalEngine.ServiceRequests EvalEngine.CurrentUser

/-- The claims of a token; JWT times are whole seconds. -/
structure Claims extends TokenPayload where
  jti : Option String := none
  exp : ℤ
  iat : ℤ

/-- The library: `decode` gives the claims of a token whose signature is right. -/
structure Jwt where
  encode : Claims → String
  decode : String → Option Claims

structure Settings where
  jwtAccessTokenExpireMinutes : ℕ
  jwtRefreshTokenExpireDays : ℕ

/-- The claims of `create_access_token`. -/
def accessClaims (settings : Settings) (now : ℚ) (jti : String) (payload : TokenPayload)
    (expiresDelta : Option ℚ := none) : Claims :=
  { payload with
    jti := some jti
    type := "access"
    exp := ⌊now + (expiresDelta.filter (· ≠ 0)).getD (60 * settings.jwtAccessTokenExpireMinutes)⌋
    iat := ⌊now⌋ }

/-- The claims of `create_refresh_token`. -/
def refreshClaims (settings : Settings) (now : ℚ) (payload : TokenPayload) : Claims :=
  { payload with
    role := none
    type := "refresh"
    exp := ⌊now + 86400 * settings.jwtRefreshTokenExpireDays⌋
    iat := ⌊now⌋ }

def mint (settings : Settings) (now : ℚ) (jti : String) (payload : TokenPayload) : Claims :=
  if payload.type = "access" then accessClaims settings now jti payload
  else refreshClaims settings now payload

/-- An expired token is refused by the library. -/
def decodeToken (jwt : Jwt) (now : ℚ) (token : String) : Option Claims :=
  (jwt.decode token).filter fun claims => decide (⌊now⌋ ≤ claims.exp)

/-- The keys of the cache, with the time their TTL ends. -/
abbrev Cache := String → Option ℚ

def blacklistKey (jti : String) : String := "blacklist:" ++ jti

/-- `blacklist_token`, which lets no exception through. -/
def blacklistToken (jwt : Jwt) (now : ℚ) (token : String) (cache : Cache) : Cache :=
  match decodeToken jwt now token with
  | none => cache
  | some claims =>
    match claims.jti with
    | none => cache
    | some jti =>
      if jti = "" ∨ claims.exp = 0 then cache
      else Function.update cache (blacklistKey jti) (some (now + max 1 (truncate (claims.exp - now))))

def isTokenBlacklisted (isHealthy : Bool) (now : ℚ) (jti : String) (cache : Cache) : Bool :=
  isHealthy && (cache (blacklistKey jti)).any (fun expiresAt => decide (now < expiresAt))

/-- While the cache is connected, a listed access token is found on the list up
to the last second before it expires. -/
theorem isTokenBlacklisted_blacklistToken {jwt : Jwt} {now later : ℚ} {token jti : String}
    {claims : Claims} {cache : Cache} (hdecode : decodeToken jwt now token = some claims)
    (hjti : claims.jti = some jti) (hne : jti ≠ "") (hexp : claims.exp ≠ 0)
    (hlater : later ≤ claims.exp - 1) (hnow : now ≤ later) :
    isTokenBlacklisted true later jti (blacklistToken jwt now token cache) = true := by
  have hpos : (0 : ℚ) ≤ claims.exp - now := by linarith
  have hfloor : ((claims.exp : ℚ) - now) < ⌊(claims.exp : ℚ) - now⌋ + 1 := Int.lt_floor_add_one _
  have hmax : ((⌊(claims.exp : ℚ) - now⌋ : ℤ) : ℚ) ≤
      ((max 1 ⌊(claims.exp : ℚ) - now⌋ : ℤ) : ℚ) := Int.cast_le.2 (le_max_right _ _)
  have hlt : later < now + ((max 1 (truncate (claims.exp - now)) : ℤ) : ℚ) := by
    rw [truncate_eq_floor hpos]
    linarith
  simpa [isTokenBlacklisted, blacklistToken, hdecode, hjti, hne, hexp] using hlt

/-- A refresh token has no identifier, so it is never put on the list. -/
theorem blacklistToken_refresh {jwt : Jwt} {settings : Settings} {issued now : ℚ}
    {payload : TokenPayload} {token : String} {cache : Cache}
    (hdecode : jwt.decode token = some (refreshClaims settings issued payload)) :
    blacklistToken jwt now token cache = cache := by
  cases h : decodeToken jwt now token with
  | none => simp [blacklistToken, h]
  | some claims =>
    have hclaims := (Option.filter_eq_some_iff.1 h).1
    rw [hdecode] at hclaims
    cases hclaims
    simp [blacklistToken, h, refreshClaims]

/-- All that a history changes. The tokens whose blacklisting has returned are noted. -/
structure State where
  db : Database
  cache : Cache := fun _ => none
  clock : ℚ
  blacklisted : List String := []

inductive Event
  | tick (now : ℚ)
  | request (base : Context) (jti : UUID) (request : Request) (uuid4 : UUID) (op : Operation)
  | blacklist (token : String)
  | authenticate (base : Context) (deployment : Deployment) (token : String)
  | refresh (base : Context) (jti : UUID) (request : Request) (uuid4 : UUID) (token : String)

inductive Response
  | nothing
  | user (answer : Except PyException Authenticated)
  | tokens (answer : Except PyException (String × String))

/-- An `UnauthorizedError`. -/
def Response.rejected : Response → Prop
  | .user answer => ∃ message, answer.map (fun _ => ()) = .error (.unauthorized message)
  | .tokens answer => ∃ message, answer.map (fun _ => ()) = .error (.unauthorized message)
  | .nothing => False

variable (jwt : Jwt) (settings : Settings)

/-- The services' view of the tokens at a time. -/
def contextAt (now : ℚ) (jti : UUID) (base : Context) : Context :=
  { base with
    now := ⌊now⌋.toNat
    decodeToken := fun token => (decodeToken jwt now token).map Claims.toTokenPayload
    encodeToken := fun payload => jwt.encode (mint settings now (uuidText jti) payload) }

def State.after (s : State) : Event → State
  | .tick now => { s with clock := max s.clock now }
  | .request base jti request uuid4 op =>
    { s with db := (serve (contextAt jwt settings s.clock jti base) request uuid4 op s.db).2 }
  | .blacklist token =>
    { s with
      cache := blacklistToken jwt s.clock token s.cache
      blacklisted := token :: s.blacklisted }
  | .authenticate _ _ _ => s
  | .refresh base jti request uuid4 token =>
    { s with
      db := (serve (contextAt jwt settings s.clock jti base) request uuid4
        (.refreshAccessToken token) s.db).2 }

def State.run (s : State) (events : List Event) : State :=
  events.foldl (fun s e => s.after jwt settings e) s

def response (s : State) : Event → Response
  | .authenticate base deployment token =>
    .user (answer (contextAt jwt settings s.clock 0 base) deployment (byToken token) s.db)
  | .refresh base jti _ _ token =>
    .tokens ((refreshAccessToken (contextAt jwt settings s.clock jti base) token).run
      { state := s.db }).1
  | _ => .nothing

/-- The token that an event presents, with the type that is asked for. -/
def Event.bears : Event → Option (String × String)
  | .authenticate _ _ token => (given (some token)).map fun token => (token, "access")
  | .refresh _ _ _ _ token => some (token, "refresh")
  | _ => none

/-- The event presents a blacklisted token of the right type before its expiry. -/
def Revoked (s : State) (e : Event) (claims : Claims) : Prop :=
  ∃ token, e.bears = some (token, claims.type) ∧ token ∈ s.blacklisted ∧
    jwt.decode token = some claims ∧ s.clock < claims.exp

def Event.isBlacklist : Event → Bool
  | .blacklist _ => true
  | _ => false

/-- Every blacklisted token is rejected, and the other tokens are answered as
if nothing had been blacklisted. -/
def HonoursRevocation (start : State) (events : List Event) : Prop :=
  ∀ before e later, events = before ++ e :: later →
    (∀ claims, Revoked jwt (start.run jwt settings before) e claims →
      (response jwt settings (start.run jwt settings before) e).rejected) ∧
    ∀ token type, e.bears = some (token, type) →
      token ∉ (start.run jwt settings before).blacklisted →
      response jwt settings (start.run jwt settings before) e =
        response jwt settings
          (start.run jwt settings (before.filter fun e => !e.isBlacklist)) e

/-- Whoever presents a blacklisted token is gone already. -/
def OwnersGone (start : State) (events : List Event) : Prop :=
  ∀ before e later, events = before ++ e :: later →
    ∀ claims, Revoked jwt (start.run jwt settings before) e claims →
      refreshUser claims.sub (start.run jwt settings before).db.tables = none

variable {jwt settings}

theorem decodeToken_live {now : ℚ} {token : String} {claims : Claims}
    (hdecode : jwt.decode token = some claims) (hlive : now < claims.exp) :
    decodeToken jwt now token = some claims := by
  have hle : ⌊now⌋ ≤ claims.exp := Int.floor_le_iff.2 (by linarith)
  simp [decodeToken, hdecode, Option.filter, hle]

/-- The list of blacklisted tokens is not consulted: a token is rejected
exactly when its user is gone. -/
theorem rejected_iff {s : State} {e : Event} {claims : Claims} (h : Revoked jwt s e claims) :
    (response jwt settings s e).rejected ↔ refreshUser claims.sub s.db.tables = none := by
  obtain ⟨token, hbears, -, hdecode, hlive⟩ := h
  have hclaims := decodeToken_live hdecode hlive
  cases e with
  | tick now => cases hbears
  | request base jti request uuid4 op => cases hbears
  | blacklist token => cases hbears
  | authenticate base deployment presented =>
    obtain ⟨a, hgiven, hpair⟩ := Option.map_eq_some_iff.1 hbears
    obtain ⟨hsame, hne⟩ := Option.filter_eq_some_iff.1 hgiven
    simp only [Option.some.injEq, Prod.mk.injEq] at hsame hpair
    obtain ⟨rfl, htype⟩ := hpair
    subst hsame
    have hpayload : (contextAt jwt settings s.clock 0 base).decodeToken presented =
        some claims.toTokenPayload := by simp [contextAt, hclaims]
    rw [response, answer_byToken (by simpa using hne) hpayload htype.symm]
    cases refreshUser claims.sub s.db.tables with
    | none => simp [Response.rejected, Except.map, userGone]
    | some user => simp [Response.rejected, Except.map]
  | refresh base jti request uuid4 presented =>
    simp only [Event.bears, Option.some.injEq, Prod.mk.injEq] at hbears
    obtain ⟨rfl, htype⟩ := hbears
    have hpayload : (contextAt jwt settings s.clock jti base).decodeToken presented =
        some claims.toTokenPayload := by simp [contextAt, hclaims]
    rw [response, run_refresh hpayload htype.symm]
    cases refreshUser claims.sub s.db.tables with
    | none => simp [Response.rejected, Except.map, userGone]
    | some user => simp [Response.rejected, Except.map, missingAction]

/-- Two states that differ in what has been blacklisted. -/
def SameButList (s t : State) : Prop := s.db = t.db ∧ s.clock = t.clock

theorem after_sameButList {s t : State} (h : SameButList s t) (e : Event) :
    SameButList (s.after jwt settings e) (t.after jwt settings e) := by
  obtain ⟨hdb, hclock⟩ := h
  cases e with
  | tick now => exact ⟨hdb, by simp [State.after, hclock]⟩
  | request base jti request uuid4 op => exact ⟨by simp [State.after, hdb, hclock], hclock⟩
  | blacklist token => exact ⟨hdb, hclock⟩
  | authenticate base deployment token => exact ⟨hdb, hclock⟩
  | refresh base jti request uuid4 token => exact ⟨by simp [State.after, hdb, hclock], hclock⟩

theorem run_filter {s t : State} (h : SameButList s t) (events : List Event) :
    SameButList (s.run jwt settings events)
      (t.run jwt settings (events.filter fun e => !e.isBlacklist)) := by
  induction events generalizing s t with
  | nil => exact h
  | cons e events ih =>
    cases hlist : e.isBlacklist with
    | false =>
      rw [List.filter_cons_of_pos (by simp [hlist])]
      exact ih (after_sameButList h e)
    | true =>
      rw [List.filter_cons_of_neg (by simp [hlist])]
      cases e with
      | blacklist token => exact ih h
      | tick now => cases hlist
      | request base jti request uuid4 op => cases hlist
      | authenticate base deployment token => cases hlist
      | refresh base jti request uuid4 token => cases hlist

theorem response_congr {s t : State} (h : SameButList s t) (e : Event) :
    response jwt settings s e = response jwt settings t e := by
  cases e <;> simp [response, h.1, h.2]

theorem token_revocation (jwt : Jwt) (settings : Settings) (start : State) (events : List Event) :
    HonoursRevocation jwt settings start events ↔ OwnersGone jwt settings start events := by
  constructor
  · intro h before e later hevents claims hrevoked
    exact (rejected_iff hrevoked).1 ((h before e later hevents).1 claims hrevoked)
  · intro h before e later hevents
    constructor
    · intro claims hrevoked
      exact (rejected_iff hrevoked).2 (h before e later hevents claims hrevoked)
    · intro _ _ _ _
      exact response_congr (run_filter ⟨rfl, rfl⟩ before) e

section Sample

def samplePayload : TokenPayload := { sub := 1, org := 1, role := some "admin", type := "access" }

def sampleSettings : Settings := ⟨30, 7⟩

def sampleClaims : Claims := accessClaims sampleSettings 0 "f47ac10b" samplePayload

/-- A library with one token in circulation. -/
def sampleJwt : Jwt where
  encode claims := claims.type ++ "." ++ claims.jti.getD ""
  decode token := if token = "access.f47ac10b" then some sampleClaims else none

example : sampleJwt.decode (sampleJwt.encode sampleClaims) = some sampleClaims := rfl

/-- A blacklisted access token still lets its user in. -/
theorem token_revocation_listed :
    ¬ ∀ jwt settings start events, HonoursRevocation jwt settings start events := by
  intro h
  have hrevoked : Revoked sampleJwt
      (State.run sampleJwt sampleSettings { db := registered, clock := 0 }
        [.blacklist "access.f47ac10b"])
      (.authenticate sampleContext {} "access.f47ac10b") sampleClaims :=
    ⟨"access.f47ac10b", rfl, List.mem_singleton_self _, rfl, by decide +kernel⟩
  have hrejected := (h sampleJwt sampleSettings { db := registered, clock := 0 }
    [.blacklist "access.f47ac10b", .authenticate sampleContext {} "access.f47ac10b"]
    [.blacklist "access.f47ac10b"] _ [] rfl).1 sampleClaims hrevoked
  have hgone := (@rejected_iff sampleJwt sampleSettings _ _ _ hrevoked).1 hrejected
  cases hgone

end Sample

end EvalEngine.TokenRevocation
