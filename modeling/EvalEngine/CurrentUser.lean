import EvalEngine.ServiceRequests
import Mathlib.Data.List.MinMax

namespace EvalEngine.CurrentUser

open EvalEngine.Exceptions EvalEngine.RunModel EvalEngine.ConstrainedTables
open EvalEngine.ServiceTables EvalEngine.Transactions EvalEngine.AuditService
open EvalEngine.ServiceContracts EvalEngine.AuthService EvalEngine.AuthContracts
open EvalEngine.ServiceRequests

/-- The user of a request, and what is put on `request.state`. -/
structure Authenticated where
  user : User
  userId : String
  orgId : String

def authenticated (user : User) : Authenticated :=
  ⟨user, uuidText user.id, uuidText user.organizationId⟩

/-- The credentials of a request. -/
structure Credentials where
  bearer : Option String := none
  xApiKey : Option String := none

/-- `settings.is_development`, and the column `created_at` of the users. -/
structure Deployment where
  isDevelopment : Bool := false
  createdAt : UUID → Time := fun _ => 0

def invalidAccessToken : PyException := .unauthorized "Invalid or expired access token"

def notAccessToken : PyException := .unauthorized "Invalid token type — use an access token"

def noUsers : PyException :=
  .unauthorized "Development bypass failed: No users exist in database"

def authenticationRequired : PyException :=
  .unauthorized "Authentication required — provide a Bearer token or API key"

/-- `.order_by(User.created_at.asc()).limit(1)` -/
def firstUser (createdAt : UUID → Time) (tables : Tables) : List User :=
  ((tables.users.rows.filter fun user => user.isActive && user.deletedAt.isNone).argmin
    fun user => createdAt user.id).toList

/-- An empty text counts as none. -/
def given (text : Option String) : Option String := text.filter (· ≠ "")

def getCurrentUser (ctx : Context) (deployment : Deployment) (credentials : Credentials) :
    Service Authenticated := do
  match given credentials.bearer with
  | some token =>
    match ctx.decodeToken token with
    | none => raise invalidAccessToken
    | some payload =>
      if payload.type ≠ "access" then raise notAccessToken
      else
        match ← selectOne (fun tables => tables.users.rows.filter
          (fun user => decide (user.id = payload.sub) && user.isActive && user.deletedAt.isNone)) with
        | none => raise userGone
        | some user => pure (authenticated user)
  | none =>
    match given credentials.xApiKey with
    | some rawKey =>
      let (user, _) ← authenticateApiKey ctx rawKey
      pure (authenticated user)
    | none =>
      if deployment.isDevelopment then
        match ← selectOne (firstUser deployment.createdAt) with
        | none => raise noUsers
        | some user => pure (authenticated user)
      else raise authenticationRequired

variable (ctx : Context) (deployment : Deployment)

/-- What a request with these credentials is answered. -/
def answer (credentials : Credentials) (db : Database) : Except PyException Authenticated :=
  ((getCurrentUser ctx deployment credentials).run { state := db }).1

/-- A request with a bearer token, which goes before any API key. -/
def byToken (token : String) : Credentials := { bearer := some token }

def byKey (rawKey : String) : Credentials := { xApiKey := some rawKey }

variable {ctx deployment}

theorem given_some {text : String} (h : text ≠ "") : given (some text) = some text := by
  simp [given, Option.filter, h]

/-- The JWT path asks for a user that is active and not deleted. -/
theorem answer_byToken {token : String} (htoken : token ≠ "") {payload : TokenPayload}
    (hpayload : ctx.decodeToken token = some payload) (htype : payload.type = "access")
    (db : Database) : answer ctx deployment (byToken token) db =
      match refreshUser payload.sub db.tables with
      | none => .error userGone
      | some user => .ok (authenticated user) := by
  rw [answer, getCurrentUser, byToken]
  simp only [given_some htoken, hpayload, htype, ne_eq, not_true_eq_false, if_false]
  rw [run_bind_ok (run_refreshUser payload.sub db)]
  cases refreshUser payload.sub db.tables with
  | none => rfl
  | some user => rfl

/-- The key that a request with this raw key uses: live and not expired. -/
def usableKey (ctx : Context) (rawKey : String) (tables : Tables) : Option ApiKey :=
  (liveKey (ctx.sha256 rawKey) tables).filter fun apiKey => apiKey.isValid ctx.now

/-- The API key path asks for a usable key with an active owner. -/
theorem answer_byKey {rawKey : String} (hraw : rawKey ≠ "") (db : Database) :
    answer ctx deployment (byKey rawKey) db =
      match usableKey ctx rawKey db.tables with
      | none => .error invalidApiKey
      | some apiKey =>
        match activeUser apiKey.userId db.tables with
        | none => .error keyOwnerGone
        | some user => .ok (authenticated user) := by
  have hnone : given none = none := rfl
  rw [answer, getCurrentUser, byKey]
  simp only [given_some hraw, hnone]
  cases husable : usableKey ctx rawKey db.tables with
  | none =>
    have hinvalid : ∀ apiKey, liveKey (ctx.sha256 rawKey) db.tables = some apiKey →
        apiKey.isValid ctx.now = false := by
      intro apiKey hkey
      simpa [usableKey, hkey, Option.filter] using husable
    rw [run_bind_error (run_invalidKey hinvalid)]
  | some apiKey =>
    obtain ⟨hkey, hvalid⟩ := Option.filter_eq_some_iff.1 husable
    obtain ⟨after, _, hrun⟩ := run_validKey hkey hvalid
    cases huser : activeUser apiKey.userId db.tables with
    | none =>
      rw [huser] at hrun
      simp only [huser, run_bind_error hrun]
    | some user =>
      rw [huser] at hrun
      simp only [huser, run_bind_ok hrun]
      rfl

/-- The conditions of the JWT path on a user. -/
def Live (user : User) : Prop := user.isActive = true ∧ user.deletedAt = none

/-- The row that lets a raw key through as this user. -/
def GrantedBy (ctx : Context) (rawKey : String) (user : User) (apiKey : ApiKey) : Prop :=
  apiKey.keyHash = ctx.sha256 rawKey ∧ apiKey.isRevoked = false ∧ apiKey.deletedAt = none ∧
    (∀ expiresAt ∈ apiKey.expiresAt, ctx.now ≤ expiresAt) ∧ apiKey.userId = user.id ∧
    apiKey.organizationId = user.organizationId

/-- A request with the raw key is let through only as the live owner of a
live key of the owner's organization, and never where a token of the same
user would be refused. -/
def NoMoreThanSession (ctx : Context) (deployment : Deployment) (rawKey : String)
    (db : Database) : Prop :=
  (∀ auth, answer ctx deployment (byKey rawKey) db = .ok auth →
    auth.user ∈ db.tables.users.rows ∧ Live auth.user ∧
      ∃ apiKey ∈ db.tables.apiKeys.rows, GrantedBy ctx rawKey auth.user apiKey) ∧
  ∀ apiKey, liveKey (ctx.sha256 rawKey) db.tables = some apiKey →
    ∀ token payload, token ≠ "" → ctx.decodeToken token = some payload →
      payload.type = "access" → payload.sub = apiKey.userId →
      answer ctx deployment (byToken token) db = .error userGone →
      ∀ auth, answer ctx deployment (byKey rawKey) db ≠ .ok auth

/-- The owner of the usable key, if active, is not deleted and belongs to its organization. -/
def OwnerFits (ctx : Context) (rawKey : String) (tables : Tables) : Prop :=
  ∀ apiKey ∈ usableKey ctx rawKey tables, ∀ user ∈ activeUser apiKey.userId tables,
    user.deletedAt = none ∧ user.organizationId = apiKey.organizationId

theorem usableKey_some {rawKey : String} {tables : Tables} {apiKey : ApiKey}
    (h : usableKey ctx rawKey tables = some apiKey) :
    apiKey ∈ tables.apiKeys.rows ∧ apiKey.keyHash = ctx.sha256 rawKey ∧ apiKey.isRevoked = false ∧
      apiKey.deletedAt = none ∧ ∀ expiresAt ∈ apiKey.expiresAt, ctx.now ≤ expiresAt := by
  obtain ⟨hkey, hvalid⟩ := Option.filter_eq_some_iff.1 h
  have hlive := List.find?_some hkey
  simp only [Bool.and_eq_true, decide_eq_true_eq, Bool.not_eq_true', Option.isNone_iff_eq_none]
    at hlive
  refine ⟨List.mem_of_find?_eq_some hkey, hlive.1.1, hlive.1.2, hlive.2, ?_⟩
  intro expiresAt hexpires
  simp only [ApiKey.isValid, Bool.and_eq_true] at hvalid
  have hall := hvalid.2
  rw [hexpires] at hall
  exact of_decide_eq_true hall

theorem activeUser_some {userId : UUID} {tables : Tables} {user : User}
    (h : activeUser userId tables = some user) :
    user ∈ tables.users.rows ∧ user.id = userId ∧ user.isActive = true := by
  have hactive := List.find?_some h
  simp only [Bool.and_eq_true, decide_eq_true_eq] at hactive
  exact ⟨List.mem_of_find?_eq_some h, hactive⟩

/-- The two rows that let a request through. -/
theorem answer_byKey_ok {rawKey : String} (hraw : rawKey ≠ "") {db : Database}
    {auth : Authenticated} : answer ctx deployment (byKey rawKey) db = .ok auth ↔
      ∃ apiKey user, usableKey ctx rawKey db.tables = some apiKey ∧
        activeUser apiKey.userId db.tables = some user ∧ auth = authenticated user := by
  rw [answer_byKey hraw]
  cases usableKey ctx rawKey db.tables with
  | none => simp
  | some apiKey =>
    cases huser : activeUser apiKey.userId db.tables with
    | none => simp [huser]
    | some user => simp [huser, eq_comm]

/-- A hash has one row, so the row that lets a request through is its key. -/
theorem eq_of_granted {rawKey : String} {tables : Tables} {apiKey apiKey' : ApiKey} {user : User}
    (hkey : usableKey ctx rawKey tables = some apiKey) (hmem : apiKey' ∈ tables.apiKeys.rows)
    (hgranted : GrantedBy ctx rawKey user apiKey') : apiKey' = apiKey := by
  obtain ⟨hhash, -⟩ := hgranted
  obtain ⟨hmem', hhash', -⟩ := usableKey_some hkey
  have hrows := tables.apiKeys.filter_indexed
    (fun apiKey => decide (apiKey.keyHash = ctx.sha256 rawKey)) (ctx.sha256 rawKey) fun row hrow => by
      simp only [Entity.indexed, of_decide_eq_true hrow]
  have hin : ∀ row ∈ tables.apiKeys.rows, row.keyHash = ctx.sha256 rawKey →
      row ∈ (tables.apiKeys.rows.find? fun apiKey =>
        decide (apiKey.keyHash = ctx.sha256 rawKey)).toList := by
    intro row hrow heq
    rw [← hrows]
    exact List.mem_filter.2 ⟨hrow, decide_eq_true heq⟩
  have hfound := Option.mem_toList.1 (hin apiKey' hmem hhash)
  have hfound' := Option.mem_toList.1 (hin apiKey hmem' hhash')
  exact Option.some.inj (hfound.symm.trans hfound')

theorem noMoreThanSession_iff (ctx : Context) (deployment : Deployment) (rawKey : String)
    (hraw : rawKey ≠ "") (db : Database) :
    NoMoreThanSession ctx deployment rawKey db ↔ OwnerFits ctx rawKey db.tables := by
  constructor
  · rintro ⟨hgranted, -⟩ apiKey hkey user huser
    obtain ⟨-, hlive, apiKey', hmem, hby⟩ :=
      hgranted (authenticated user) ((answer_byKey_ok hraw).2 ⟨apiKey, user, hkey, huser, rfl⟩)
    obtain rfl := eq_of_granted hkey hmem hby
    obtain ⟨-, -, -, -, -, horg⟩ := hby
    exact ⟨hlive.2, horg.symm⟩
  · intro hfits
    have hgranted : ∀ auth, answer ctx deployment (byKey rawKey) db = .ok auth →
        auth.user ∈ db.tables.users.rows ∧ Live auth.user ∧
          ∃ apiKey ∈ db.tables.apiKeys.rows, GrantedBy ctx rawKey auth.user apiKey := by
      intro auth hauth
      obtain ⟨apiKey, user, hkey, huser, rfl⟩ := (answer_byKey_ok hraw).1 hauth
      obtain ⟨hdeleted, horg⟩ := hfits apiKey hkey user huser
      obtain ⟨hmem, hhash, hrevoked, hkeyDeleted, hexpires⟩ := usableKey_some hkey
      obtain ⟨huserMem, hid, hactive⟩ := activeUser_some huser
      exact ⟨huserMem, ⟨hactive, hdeleted⟩, apiKey, hmem, hhash, hrevoked, hkeyDeleted, hexpires,
        hid.symm, horg.symm⟩
    refine ⟨hgranted, ?_⟩
    intro apiKey hkey token payload htoken hpayload htype hsub hrefused auth hauth
    obtain ⟨apiKey', user, hkey', huser, rfl⟩ := (answer_byKey_ok hraw).1 hauth
    obtain ⟨hlive, -⟩ := Option.filter_eq_some_iff.1 hkey'
    have heq : apiKey' = apiKey := Option.some.inj (hlive.symm.trans hkey)
    subst heq
    obtain ⟨hdeleted, -⟩ := hfits apiKey' hkey' user huser
    obtain ⟨huserMem, hid, hactive⟩ := activeUser_some huser
    have hlive : (refreshUser payload.sub db.tables).isSome = true := by
      apply List.find?_isSome.2
      exact ⟨user, huserMem, by simp [hid, hsub, hactive, hdeleted]⟩
    rw [answer_byToken htoken hpayload htype] at hrefused
    obtain ⟨user', huser'⟩ := Option.isSome_iff_exists.1 hlive
    rw [huser'] at hrefused
    cases hrefused

section Sample

def sampleKey : ApiKey where
  id := 1
  name := "CI"
  keyHash := "ev_0123"
  keyPrefix := "ev_0123"
  userId := 1
  organizationId := 1

def sampleOwner (deletedAt : Option Time) : User where
  id := 1
  email := "founder@startup.io"
  hashedPassword := "$2b$12$"
  fullName := "Founder"
  organizationId := 1
  deletedAt

/-- One user with one key. -/
def owned (deletedAt : Option Time) : Database :=
  { registered with
    tables := { registered.tables with
      users := (Table.write [sampleOwner deletedAt]).getD registered.tables.users
      apiKeys := (Table.write [sampleKey]).getD registered.tables.apiKeys } }

theorem noMoreThanSession_iff_owned :
    NoMoreThanSession sampleContext {} "ev_0123" (owned none) ↔
      OwnerFits sampleContext "ev_0123" (owned none).tables :=
  noMoreThanSession_iff sampleContext {} "ev_0123" (by decide) (owned none)

/-- The key of a deleted user that is still active lets its requests through. -/
theorem noMoreThanSession_deleted :
    ¬ ∀ ctx deployment rawKey db, rawKey ≠ "" → NoMoreThanSession ctx deployment rawKey db := by
  intro h
  have hsession := h sampleContext {} "ev_0123" (owned (some 5)) (by decide)
  have hkey : usableKey sampleContext "ev_0123" (owned (some 5)).tables = some sampleKey := rfl
  have huser : activeUser 1 (owned (some 5)).tables = some (sampleOwner (some 5)) := rfl
  obtain ⟨-, ⟨-, hdeleted⟩, -⟩ := hsession.1 (authenticated (sampleOwner (some 5)))
    ((answer_byKey_ok (by decide)).2 ⟨_, _, hkey, huser, rfl⟩)
  cases hdeleted

end Sample

end EvalEngine.CurrentUser
