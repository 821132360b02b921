import EvalEngine.RowOperations
import EvalEngine.WordRuns

namespace EvalEngine.AuthService

open EvalEngine.JsonValues EvalEngine.Exceptions EvalEngine.RunModel EvalEngine.QueryResults
open EvalEngine.PythonText EvalEngine.WordRuns EvalEngine.ConstrainedTables EvalEngine.ServiceTables
open EvalEngine.Transactions EvalEngine.AuditService EvalEngine.ServiceContracts
open EvalEngine.RowOperations
open Entity Stored Contract

/-- The characters that a slug keeps before its separators are joined. -/
def inSlug (u : UnicodeTables) (c : Char) : Bool := u.isWord c || isSpace c || c == '-'

def slugify (u : UnicodeTables) (name : String) : String :=
  let kept := (strip (u.lower name).toList).filter (inSlug u)
  String.ofList ((collapse (fun c => isSpace c || c == '_') '-' false kept).take 63)

/-- A slug fits its column, whatever the name of the organization. -/
theorem varchar_slugify (u : UnicodeTables) (name : String) :
    varchar 63 (slugify u name) = true := by
  have hnul : inSlug u (Char.ofNat 0) = false := by
    have hword : u.isWord (Char.ofNat 0) = false := by simp [UnicodeTables.isWord, u.nul_not_alnum]
    have hspace : isSpace (Char.ofNat 0) = false := by decide
    simp [inSlug, hword, hspace]
  have hle : ∀ cs : List Char, (String.ofList (cs.take 63)).length ≤ 63 := by
    intro cs
    rw [String.length_ofList]
    exact List.length_take_le 63 cs
  apply Bool.and_eq_true_iff.2
  constructor
  · exact decide_eq_true (hle _)
  · apply List.all_eq_true.2
    intro c hc
    rw [slugify, String.toList_ofList] at hc
    apply decide_eq_true
    rintro rfl
    obtain h | ⟨h, _⟩ := mem_collapse (List.mem_of_mem_take hc)
    · exact absurd h (by decide)
    · have hin := (List.mem_filter.1 h).2
      rw [hnul] at hin
      cases hin

def usersOf (email : String) (tables : Tables) : List User :=
  tables.users.rows.filter (fun user => decide (user.email = email))

def organizationsOf (slug : String) (tables : Tables) : List Organization :=
  tables.organizations.rows.filter (fun org => decide (org.slug = slug))

def emailTaken (email : String) : PyException :=
  .conflict ("User with email '" ++ email ++ "' already exists")

def organizationTaken (organizationName : String) : PyException :=
  .conflict ("Organization '" ++ organizationName ++ "' already exists")

def userReport (user : User) (ip : Option String) : Report where
  resourceType := "user"
  resourceId := user.id
  organizationId := user.organizationId
  userId := some user.id
  ipAddress := ip

def newOrganization (ctx : Context) (organizationName : String) (id : UUID) : Organization where
  id
  name := organizationName
  slug := slugify ctx.unicode organizationName

def newAdmin (email hashedPassword fullName : String) (id orgId : UUID) : User where
  id
  email
  hashedPassword
  fullName
  role := .admin
  organizationId := orgId

/-- The second half of a registration, after the organization is flushed. -/
def enroll (ctx : Context) (email password fullName : String) (org : Organization)
    (ip : Option String) : Service (User × Organization) := do
  let hashedPassword ← external (ctx.hashPassword password)
  let userId ← newKey User
  let user ← storeRow ctx "CREATE"
    (userReport (newAdmin email hashedPassword fullName userId org.id) ip)
    (newAdmin email hashedPassword fullName userId org.id)
  pure (user, org)

def registerUser (ctx : Context) (email password fullName organizationName : String)
    (ip : Option String) : Service (User × Organization) :=
  let slug := slugify ctx.unicode organizationName
  refuseIfFound email (usersOf email) (emailTaken email) <|
  refuseIfFound slug (organizationsOf slug) (organizationTaken organizationName) do
    let orgId ← newKey Organization
    flush (insertRow (newOrganization ctx organizationName orgId))
    enroll ctx email password fullName (newOrganization ctx organizationName orgId) ip

/-- The live user of an email address. -/
def liveUser (email : String) (tables : Tables) : Option User :=
  tables.users.rows.find? (fun user => decide (user.email = email) && user.deletedAt.isNone)

def invalidCredentials : PyException := .unauthorized "Invalid email or password"

def deactivated : PyException := .unauthorized "Account is deactivated"

def locked : PyException :=
  .unauthorized ("Account is locked after " ++ toString User.maxFailedAttempts ++
    " failed attempts. Contact an administrator.")

def createAccessToken (ctx : Context) (user : User) : String :=
  ctx.encodeToken { sub := user.id, org := user.organizationId, role := some user.role.value,
                    type := "access" }

def createRefreshToken (ctx : Context) (user : User) : String :=
  ctx.encodeToken { sub := user.id, org := user.organizationId, type := "refresh" }

def loggedIn (now : Time) (user : User) : User :=
  { user with failedLoginAttempts := 0, lastLoginAt := some now }

def loginFailed (user : User) : User :=
  { user with failedLoginAttempts := user.failedLoginAttempts + 1 }

def rejectLogin {α : Type} (ctx : Context) (entry : AuditAction → AuditEntry) : Service α := do
  let action ← auditAction "LOGIN_FAILED"
  createAuditLog ctx (entry action)
  raise invalidCredentials

/-- The second half of a login, for an account that may log in. -/
def verifyLogin (ctx : Context) (user : User) (password : String) (ip : Option String) :
    Service (String × String × User) := do
  match ← external (ctx.verifyPassword password user.hashedPassword) with
  | false =>
    flush (updateRow (loginFailed user))
    rejectLogin ctx (fun action => { (userReport user ip).entry action with status := "failure" })
  | true =>
    let user ← changeRow ctx "LOGIN" (userReport user ip) (loggedIn ctx.now user)
    pure (createAccessToken ctx user, createRefreshToken ctx user, user)

def authenticateUser (ctx : Context) (email password : String) (ip : Option String) :
    Service (String × String × User) := do
  match ← selectByText email (fun tables => tables.users.rows.filter
    (fun user => decide (user.email = email) && user.deletedAt.isNone)) with
  | none =>
    rejectLogin ctx (fun action => {
      action
      resourceType := "user"
      ipAddress := ip
      status := "failure"
      detail := some ("No user with email '" ++ email ++ "'") })
  | some user =>
    if !user.isActive then raise deactivated
    else if user.isLocked then raise locked
    else verifyLogin ctx user password ip

/-- The user that a refresh token is for. -/
def refreshUser (userId : UUID) (tables : Tables) : Option User :=
  tables.users.rows.find?
    (fun user => decide (user.id = userId) && user.isActive && user.deletedAt.isNone)

def invalidRefreshToken : PyException := .unauthorized "Invalid or expired refresh token"

def invalidTokenType : PyException := .unauthorized "Invalid token type"

def userGone : PyException := .unauthorized "User not found or deactivated"

def refreshAccessToken (ctx : Context) (refreshTokenStr : String) : Service (String × String) := do
  match ctx.decodeToken refreshTokenStr with
  | none => raise invalidRefreshToken
  | some payload =>
    if payload.type ≠ "refresh" then raise invalidTokenType
    else
      match ← selectOne (fun tables => tables.users.rows.filter
        (fun user => decide (user.id = payload.sub) && user.isActive && user.deletedAt.isNone)) with
      | none => raise userGone
      | some user =>
        audit ctx "TOKEN_REFRESH" (userReport user none)
        pure (createAccessToken ctx user, createRefreshToken ctx user)

/-- The live key with the given hash. -/
def liveKey (keyHash : String) (tables : Tables) : Option ApiKey :=
  tables.apiKeys.rows.find? (fun apiKey =>
    decide (apiKey.keyHash = keyHash) && !apiKey.isRevoked && apiKey.deletedAt.isNone)

def activeUser (userId : UUID) (tables : Tables) : Option User :=
  tables.users.rows.find? (fun user => decide (user.id = userId) && user.isActive)

def invalidApiKey : PyException := .unauthorized "Invalid or expired API key"

def keyOwnerGone : PyException := .unauthorized "API key owner not found or deactivated"

def authenticateApiKey (ctx : Context) (rawKey : String) : Service (User × ApiKey) := do
  let keyHash := ctx.sha256 rawKey
  match ← selectOne (fun tables => tables.apiKeys.rows.filter (fun apiKey =>
    decide (apiKey.keyHash = keyHash) && !apiKey.isRevoked && apiKey.deletedAt.isNone)) with
  | none => raise invalidApiKey
  | some apiKey =>
    if !apiKey.isValid ctx.now then raise invalidApiKey
    else
      let used := { apiKey with lastUsedAt := some ctx.now }
      flush (updateRow used)
      match ← selectOne (fun tables => tables.users.rows.filter
        (fun user => decide (user.id = apiKey.userId) && user.isActive)) with
      | none => raise keyOwnerGone
      | some user => pure (user, used)

def keyReport (keyId orgId userId : UUID) (ip : Option String) : Report where
  resourceType := "api_key"
  resourceId := keyId
  organizationId := orgId
  userId := some userId
  ipAddress := ip

/-- `generate_api_key`: the raw key, its hash and its prefix. -/
def generateApiKey (ctx : Context) : String × String × String :=
  let raw := "ev_" ++ ctx.randomHex
  (raw, ctx.sha256 raw, String.ofList (raw.toList.take 11))

def newKeyRow (ctx : Context) (id userId orgId : UUID) (name : String) (scopes : List String)
    (expiresInDays : Option Nat) : ApiKey where
  id
  name
  keyHash := (generateApiKey ctx).2.1
  keyPrefix := (generateApiKey ctx).2.2
  userId
  organizationId := orgId
  scopes
  expiresAt := (expiresInDays.filter (· ≠ 0)).map (fun days => ctx.now + 86400 * days)

def createApiKeyForUser (ctx : Context) (userId orgId : UUID) (name : String)
    (scopes : List String) (expiresInDays : Option Nat) (ip : Option String) :
    Service (ApiKey × String) := do
  let keyId ← newKey ApiKey
  let apiKey ← storeRow ctx "API_KEY_CREATED" (keyReport keyId orgId userId ip)
    (newKeyRow ctx keyId userId orgId name scopes expiresInDays)
  pure (apiKey, (generateApiKey ctx).1)

def revoked (apiKey : ApiKey) : ApiKey := { apiKey with isRevoked := true }

def revokeApiKey (ctx : Context) (keyId orgId userId : UUID) (ip : Option String) :
    Service Unit := do
  let _ ← changeScoped ctx "API key" "API_KEY_REVOKED" keyId orgId revoked
    (fun apiKey => keyReport apiKey.id orgId userId ip)
  pure ()

end EvalEngine.AuthService
