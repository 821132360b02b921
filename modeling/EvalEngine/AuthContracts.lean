import EvalEngine.AuthService

namespace EvalEngine.AuthContracts

open EvalEngine.JsonValues EvalEngine.Exceptions EvalEngine.RunModel EvalEngine.QueryResults
open EvalEngine.ConstrainedTables EvalEngine.ServiceTables EvalEngine.Transactions
open EvalEngine.AuditService EvalEngine.ServiceContracts EvalEngine.RowOperations
open EvalEngine.AuthService
open Entity Stored Contract

/-- A unique index has no value that no row of the table has. -/
theorem not_indexed {ρ : Type} [Entity ρ] {rows : List ρ} {value : ρ → String} {v : String}
    (hindexed : ∀ row v', indexed row = some v' → value row = v')
    (h : rows.filter (fun row => decide (value row = v)) = []) : v ∉ rows.filterMap indexed := by
  intro hmem
  obtain ⟨row, hrow, hvalue⟩ := List.mem_filterMap.1 hmem
  have hnot := List.filter_eq_nil_iff.1 h row hrow
  exact hnot (decide_eq_true (hindexed row v hvalue))

theorem indexed_organization {org : Organization} {v : String} (h : indexed org = some v) :
    org.slug = v := by
  simp only [indexed] at h
  split at h
  · exact Option.some.inj h
  · cases h

theorem indexed_user {user : User} {v : String} (h : indexed user = some v) : user.email = v := by
  simp only [indexed] at h
  split at h
  · exact Option.some.inj h
  · cases h

section Register

variable (ctx : Context) (email password fullName organizationName : String) (ip : Option String)

/-- The rows that a registration adds to given tables. -/
abbrev addedOrganization (tables : Tables) : Organization :=
  newOrganization ctx organizationName (table tables : Table Organization).freshKey

abbrev addedUser (hashedPassword : String) (tables : Tables) : User :=
  newAdmin email hashedPassword fullName (table tables : Table User).freshKey
    (table tables : Table Organization).freshKey

def registerReport (tables : Tables) : Report where
  resourceType := "user"
  resourceId := tables.users.freshKey
  organizationId := tables.organizations.freshKey
  userId := some tables.users.freshKey
  ipAddress := ip

def registerContract (tables : Tables) : Contract where
  guard :=
    if (usersOf email tables).isEmpty then
      if (organizationsOf (slugify ctx.unicode organizationName) tables).isEmpty then none
      else some (organizationTaken organizationName)
    else some (emailTaken email)
  change after := ∃ hashedPassword mid, ctx.hashPassword password = .ok hashedPassword ∧
    Inserted (addedOrganization ctx organizationName tables) tables mid ∧
    Inserted (addedUser email fullName hashedPassword tables) mid after
  entry := entryOf "CREATE" (registerReport ip tables)
  stated e he := by
    split at he
    · split at he
      · cases he
      · cases he
        rfl
    · cases he
      rfl

/-- The password can be hashed, and the user's values fit their columns. -/
def Enrollable : Prop :=
  ∃ hashedPassword, ctx.hashPassword password = .ok hashedPassword ∧ varchar 255 email = true ∧
    varchar 255 hashedPassword = true ∧ varchar 255 fullName = true

/-- No look-up matches two rows, and where none matches the values fit. -/
def Registrable (tables : Tables) : Prop :=
  textStorable email = true ∧ (usersOf email tables).length ≤ 1 ∧ (usersOf email tables = [] →
    (organizationsOf (slugify ctx.unicode organizationName) tables).length ≤ 1 ∧
    (organizationsOf (slugify ctx.unicode organizationName) tables = [] →
      varchar 255 organizationName = true ∧ Enrollable ctx email password fullName))

theorem fits_newOrganization (id : UUID) :
    fits (newOrganization ctx organizationName id) = varchar 255 organizationName := by
  have hslug := varchar_slugify ctx.unicode organizationName
  have hmax : int4 10 = true := by decide
  simp [fits, newOrganization, hslug, hmax]

theorem fits_newAdmin (hashedPassword : String) (id orgId : UUID) :
    fits (newAdmin email hashedPassword fullName id orgId) =
      (varchar 255 email && varchar 255 hashedPassword && varchar 255 fullName) := by
  have hzero : int4 0 = true := by decide
  simp [fits, newAdmin, hzero]

variable {ctx email password fullName organizationName ip}

theorem enroll_follows {db : Database} {mid : Tables}
    (hguard : (registerContract ctx email password fullName organizationName ip db.tables).guard =
      none)
    (husers : usersOf email db.tables = [])
    (hmid : Inserted (addedOrganization ctx organizationName db.tables) db.tables mid) :
    (registerContract ctx email password fullName organizationName ip db.tables).Follows
      (Enrollable ctx email password fullName) ctx db
      ((enroll ctx email password fullName (addedOrganization ctx organizationName db.tables)
        ip).run { state := { db with tables := mid } }) := by
  have hmid' := hmid
  obtain ⟨t, rfl, hrows⟩ := hmid
  cases hhash : ctx.hashPassword password with
  | error message =>
    refine .inr ⟨by simp [Enrollable, hhash], broken_of_error (e := .failure message) ?_ rfl⟩
    rw [enroll, run_bind_error (run_external_error hhash _)]
  | ok hashedPassword =>
    rw [enroll, run_bind_ok (run_external_ok hhash _), run_bind_ok (run_newKey _)]
    have hemail : ∀ v ∈ indexed (addedUser email fullName hashedPassword db.tables),
        v ∉ db.tables.users.rows.filterMap indexed := by
      intro v hv
      rw [← indexed_user hv]
      exact not_indexed (fun _ _ => indexed_user) husers
    have horg : references (put t db.tables)
        (addedUser email fullName hashedPassword db.tables) = true := by
      apply List.any_eq_true.2
      refine ⟨addedOrganization ctx organizationName db.tables, ?_, decide_eq_true rfl⟩
      exact hrows ▸ List.mem_append_right _ List.mem_cons_self
    have hstore := storeRow_follows_known
      (registerContract ctx email password fullName organizationName ip db.tables) ctx
      { db with tables := put t db.tables } "CREATE" (registerReport ip db.tables)
      (addedUser email fullName hashedPassword db.tables) rfl hemail hguard
      (fun after hafter => ⟨hashedPassword, _, hhash, hmid', hafter⟩) rfl
      (Report.fits_plain (by decide : varchar 100 "user" = true) rfl)
      (by decide)
    have hcond : Enrollable ctx email password fullName ↔
        references (put t db.tables) (addedUser email fullName hashedPassword db.tables) = true ∧
          fits (addedUser email fullName hashedPassword db.tables) = true := by
      rw [horg, fits_newAdmin]
      simp [Enrollable, hhash, and_assoc]
    rw [hcond]
    exact hstore.bind_pure _

theorem registerUser_follows (db : Database) :
    (registerContract ctx email password fullName organizationName ip db.tables).Follows
      (Registrable ctx email password fullName organizationName db.tables) ctx db
      ((registerUser ctx email password fullName organizationName ip).run { state := db }) := by
  apply refuseIfFound_follows
  · intro hfound
    simp [registerContract, hfound]
  intro husers
  have hbound : textStorable (slugify ctx.unicode organizationName) = true :=
    (Bool.and_eq_true_iff.1 (varchar_slugify ctx.unicode organizationName)).2
  apply Follows.of_iff (and_iff_right hbound)
  apply refuseIfFound_follows
  · intro hfound
    simp [registerContract, husers, hfound]
  intro horgs
  have hguard : (registerContract ctx email password fullName organizationName ip
      db.tables).guard = none := by
    simp [registerContract, husers, horgs]
  have hslug : ∀ v ∈ indexed (addedOrganization ctx organizationName db.tables),
      v ∉ db.tables.organizations.rows.filterMap indexed := by
    intro v hv
    rw [← indexed_organization hv]
    exact not_indexed (fun _ _ => indexed_organization) horgs
  obtain ⟨_, horg, mid, hinsert, hmid⟩ | ⟨hnot, message, hinsert⟩ :=
    insertRow_cases (addedOrganization ctx organizationName db.tables) db.tables rfl hslug
  · rw [fits_newOrganization] at horg
    rw [run_bind_ok (run_newKey db), run_bind_ok (run_flush_ok hinsert)]
    have hafter := @enroll_follows ctx email password fullName organizationName ip db mid
      hguard husers hmid
    simpa only [horg, true_and] using hafter
  · rw [fits_newOrganization] at hnot
    refine .inr ⟨fun h => hnot ⟨rfl, h.1⟩, broken_of_error (e := .databaseError message) ?_ rfl⟩
    rw [run_bind_ok (run_newKey db), run_bind_error (run_flush_error hinsert)]

end Register

section Login

variable (ctx : Context) (email password : String) (ip : Option String)

def loginGuard : Option User → Option PyException
  | none => some invalidCredentials
  | some user =>
    if !user.isActive then some deactivated
    else if user.isLocked then some locked
    else
      match ctx.verifyPassword password user.hashedPassword with
      | .ok false => some invalidCredentials
      | _ => none

def loginContract (tables : Tables) : Contract where
  guard := loginGuard ctx password (liveUser email tables)
  change after := ∀ user ∈ liveUser email tables, Updated (loggedIn ctx.now user) tables after
  entry := (liveUser email tables).bind (fun user => entryOf "LOGIN" (userReport user ip))
  stated e he := by
    unfold loginGuard at he
    split at he
    · cases he
      rfl
    · split at he
      · cases he
        rfl
      · split at he
        · cases he
          rfl
        · split at he
          · cases he
            rfl
          · cases he

/-- The look-up takes the address, and the password of an account that may log
in can be checked. -/
def Verifiable (tables : Tables) : Prop :=
  textStorable email = true ∧ ∀ user ∈ liveUser email tables, user.isActive = true → user.isLocked = false →
    ∃ verified, ctx.verifyPassword password user.hashedPassword = .ok verified

variable {ctx email password ip}

theorem run_liveUser {email : String} (h : textStorable email = true) (db : Database) :
    (selectByText email (fun tables => tables.users.rows.filter
      (fun user => decide (user.email = email) && user.deletedAt.isNone))).run { state := db } =
      (.ok (liveUser email db.tables), { state := db }) := by
  have hp : ∀ user : User, (decide (user.email = email) && user.deletedAt.isNone) = true →
      indexed user = some email := by
    intro user h
    obtain ⟨hemail, hlive⟩ := Bool.and_eq_true_iff.1 h
    simp only [indexed, hlive, if_true, of_decide_eq_true hemail]
  rw [run_selectByText h]
  exact run_selectOne_indexed hp db

theorem fits_loggedIn {user : User} (now : Time) (h : fits user = true) :
    fits (loggedIn now user) = true := by
  have hzero : int4 0 = true := by decide
  simp only [fits, Bool.and_eq_true] at h
  simp [fits, loggedIn, h, hzero]

theorem fits_loginFailed {user : User} (hlocked : user.isLocked = false) (h : fits user = true) :
    fits (loginFailed user) = true := by
  have hlt : user.failedLoginAttempts < 5 := by
    have hnot := of_decide_eq_false hlocked
    simpa [User.maxFailedAttempts] using hnot
  have hattempts : int4 ((user.failedLoginAttempts + 1 : Nat) : Int) = true := by
    simp only [int4, Bool.and_eq_true, decide_eq_true_eq]
    omega
  simp only [fits, Bool.and_eq_true] at h
  simp only [fits, loginFailed, Bool.and_eq_true]
  exact ⟨h.1, hattempts⟩

theorem run_rejectLogin {α : Type} (entry : AuditAction → AuditEntry) (db : Database) :
    ((rejectLogin ctx entry : Service α).run { state := db }).1 = .error invalidCredentials := by
  have hname : AuditAction.ofName "LOGIN_FAILED" = some .loginFailed := by decide
  rw [rejectLogin, run_bind_ok (run_auditAction hname _),
    run_bind_ok (run_createAuditLog ctx _ db), run_raise]

theorem verifyLogin_follows {db : Database} {user : User} (huser : liveUser email db.tables = some user)
    (hactive : user.isActive = true) (hlocked : user.isLocked = false) :
    (loginContract ctx email password ip db.tables).Follows
      (∃ verified, ctx.verifyPassword password user.hashedPassword = .ok verified) ctx db
      ((verifyLogin ctx user password ip).run { state := db }) := by
  have hmem : user ∈ db.tables.users.rows := List.mem_of_find?_eq_some huser
  have hfits : fits user = true := db.tables.users.fits_of_mem hmem
  cases hverify : ctx.verifyPassword password user.hashedPassword with
  | error message =>
    refine .inr ⟨by simp, broken_of_error (e := .failure message) ?_ rfl⟩
    rw [verifyLogin, run_bind_error (run_external_error hverify _)]
  | ok verified =>
    rw [verifyLogin, run_bind_ok (run_external_ok hverify _)]
    cases verified with
    | false =>
      obtain ⟨_, after, hupdate, _⟩ | ⟨hnot, _⟩ :=
        updateRow_cases (loginFailed user) db.tables hmem rfl rfl
      · refine .inl ⟨⟨false, rfl⟩, kept_of_guard (e := invalidCredentials) ?_ ?_⟩
        · simp [loginContract, huser, loginGuard, hactive, hlocked, hverify]
        · simp only
          rw [run_bind_ok (run_flush_ok hupdate)]
          exact run_rejectLogin _ _
      · rw [fits_loginFailed hlocked hfits] at hnot
        cases hnot
    | true =>
      have hchange := changeRow_follows (loginContract ctx email password ip db.tables) ctx db
        "LOGIN" (userReport user ip) (loggedIn ctx.now user) hmem rfl rfl
        (by simp [loginContract, huser, loginGuard, hactive, hlocked, hverify])
        (fun after hafter => by simpa [loginContract, huser] using hafter)
        (by simp [loginContract, huser])
        (fun _ => Report.fits_plain (by decide : varchar 100 "user" = true) rfl)
      have haction : (AuditAction.ofName "LOGIN").isSome = true := by decide
      rw [fits_loggedIn _ hfits, haction] at hchange
      simpa using hchange.bind_pure
        (fun user => (createAccessToken ctx user, createRefreshToken ctx user, user))

theorem authenticateUser_follows (db : Database) :
    (loginContract ctx email password ip db.tables).Follows
      (Verifiable ctx email password db.tables) ctx db
      ((authenticateUser ctx email password ip).run { state := db }) := by
  by_cases hemail : textStorable email = true
  · rw [authenticateUser, run_bind_ok (run_liveUser hemail db)]
    cases huser : liveUser email db.tables with
    | none =>
      refine .inl ⟨by simp [Verifiable, huser, hemail], kept_of_guard (e := invalidCredentials) ?_ ?_⟩
      · simp [loginContract, huser, loginGuard]
      · exact run_rejectLogin _ db
    | some user =>
      cases hactive : user.isActive with
      | false =>
        refine .inl ⟨by simp [Verifiable, huser, hemail, hactive],
          kept_of_guard (e := deactivated) ?_ ?_⟩
        · simp [loginContract, huser, loginGuard, hactive]
        · simp [hactive]
      | true =>
        cases hlocked : user.isLocked with
        | true =>
          refine .inl ⟨by simp [Verifiable, huser, hemail, hlocked],
            kept_of_guard (e := locked) ?_ ?_⟩
          · simp [loginContract, huser, loginGuard, hactive, hlocked]
          · simp [hactive, hlocked]
        | false =>
          have hverify := @verifyLogin_follows ctx email password ip db user huser hactive hlocked
          simpa [Verifiable, huser, hemail, hactive, hlocked] using hverify
  · have hnul : textStorable email = false := Bool.eq_false_iff.2 hemail
    refine .inr ⟨fun h => hemail h.1, broken_of_error (e := invalidEncoding) ?_ rfl⟩
    rw [authenticateUser, run_bind_error (run_selectByText_nul hnul _ db)]

end Login

section Refresh

variable (ctx : Context) (refreshTokenStr : String)

def refreshGuard (tables : Tables) : Option PyException :=
  match ctx.decodeToken refreshTokenStr with
  | none => some invalidRefreshToken
  | some payload =>
    if payload.type ≠ "refresh" then some invalidTokenType
    else if (refreshUser payload.sub tables).isNone then some userGone
    else none

/-- A refresh changes no table. -/
def refreshContract (tables : Tables) : Contract where
  guard := refreshGuard ctx refreshTokenStr tables
  change after := after = tables
  entry := (ctx.decodeToken refreshTokenStr).bind fun payload =>
    (refreshUser payload.sub tables).bind fun user =>
      entryOf "TOKEN_REFRESH" (userReport user none)
  stated e he := by
    unfold refreshGuard at he
    split at he
    · cases he
      rfl
    · split at he
      · cases he
        rfl
      · split at he
        · cases he
          rfl
        · cases he

variable {ctx refreshTokenStr}

theorem run_refreshUser (userId : UUID) (db : Database) :
    (selectOne (fun tables => tables.users.rows.filter
      (fun user => decide (user.id = userId) && user.isActive && user.deletedAt.isNone))).run
        { state := db } =
      (.ok (refreshUser userId db.tables), { state := db }) := by
  have hp : ∀ user : User, (decide (user.id = userId) && user.isActive &&
      user.deletedAt.isNone) = true → key user = userId := by
    intro user h
    simp only [Bool.and_eq_true, decide_eq_true_eq] at h
    exact h.1.1
  exact run_selectOne_key hp db

/-- A refresh for a live user fails where it looks up its audit action. -/
theorem run_refresh {payload : TokenPayload} (hpayload : ctx.decodeToken refreshTokenStr = some payload)
    (htype : payload.type = "refresh") (db : Database) :
    (refreshAccessToken ctx refreshTokenStr).run { state := db } =
      (match refreshUser payload.sub db.tables with
        | none => .error userGone
        | some _ => .error (missingAction "TOKEN_REFRESH"),
      { state := db }) := by
  rw [refreshAccessToken, hpayload]
  simp only [htype, ne_eq, not_true_eq_false, if_false]
  rw [run_bind_ok (run_refreshUser payload.sub db)]
  cases refreshUser payload.sub db.tables with
  | none => rfl
  | some user =>
    have hname : AuditAction.ofName "TOKEN_REFRESH" = none := by decide
    simp only
    rw [run_bind_error (run_audit_none hname ctx _ _)]

/-- A refresh ends well only where a guard stops it: its audit action does not exist. -/
theorem refreshAccessToken_follows (db : Database) :
    (refreshContract ctx refreshTokenStr db.tables).Follows
      ((refreshGuard ctx refreshTokenStr db.tables).isSome = true) ctx db
      ((refreshAccessToken ctx refreshTokenStr).run { state := db }) := by
  cases hpayload : ctx.decodeToken refreshTokenStr with
  | none =>
    have hguard : refreshGuard ctx refreshTokenStr db.tables = some invalidRefreshToken := by
      simp [refreshGuard, hpayload]
    refine .inl ⟨by simp [hguard], kept_of_guard hguard ?_⟩
    simp [refreshAccessToken, hpayload]
  | some payload =>
    by_cases htype : payload.type = "refresh"
    · rw [run_refresh hpayload htype db]
      cases huser : refreshUser payload.sub db.tables with
      | none =>
        have hguard : refreshGuard ctx refreshTokenStr db.tables = some userGone := by
          simp [refreshGuard, hpayload, htype, huser]
        exact .inl ⟨by simp [hguard], kept_of_guard hguard rfl⟩
      | some user =>
        have hguard : refreshGuard ctx refreshTokenStr db.tables = none := by
          simp [refreshGuard, hpayload, htype, huser]
        exact .inr ⟨by simp [hguard], broken_of_error (e := missingAction "TOKEN_REFRESH") rfl rfl⟩
    · have hguard : refreshGuard ctx refreshTokenStr db.tables = some invalidTokenType := by
        simp [refreshGuard, hpayload, htype]
      refine .inl ⟨by simp [hguard], kept_of_guard hguard ?_⟩
      simp [refreshAccessToken, hpayload, htype]

end Refresh

section ApiKeys

variable (ctx : Context) (rawKey : String)

def keyGuard (tables : Tables) : Option PyException :=
  match liveKey (ctx.sha256 rawKey) tables with
  | none => some invalidApiKey
  | some apiKey =>
    if !apiKey.isValid ctx.now then some invalidApiKey
    else if (activeUser apiKey.userId tables).isNone then some keyOwnerGone
    else none

def keyContract (tables : Tables) : Contract where
  guard := keyGuard ctx rawKey tables
  change after := ∀ apiKey ∈ liveKey (ctx.sha256 rawKey) tables,
    Updated { apiKey with lastUsedAt := some ctx.now } tables after
  entry := none
  stated e he := by
    unfold keyGuard at he
    split at he
    · cases he
      rfl
    · split at he
      · cases he
        rfl
      · split at he
        · cases he
          rfl
        · cases he

variable {ctx rawKey}

theorem run_liveKey (keyHash : String) (db : Database) :
    (selectOne (fun tables => tables.apiKeys.rows.filter (fun apiKey =>
      decide (apiKey.keyHash = keyHash) && !apiKey.isRevoked && apiKey.deletedAt.isNone))).run
        { state := db } =
      (.ok (liveKey keyHash db.tables), { state := db }) := by
  have hp : ∀ apiKey : ApiKey, (decide (apiKey.keyHash = keyHash) && !apiKey.isRevoked &&
      apiKey.deletedAt.isNone) = true → indexed apiKey = some keyHash := by
    intro apiKey h
    simp only [Bool.and_eq_true, decide_eq_true_eq] at h
    simp only [indexed, h.1.1]
  exact run_selectOne_indexed hp db

theorem run_activeUser (userId : UUID) (db : Database) :
    (selectOne (fun tables => tables.users.rows.filter
      (fun user => decide (user.id = userId) && user.isActive))).run { state := db } =
      (.ok (activeUser userId db.tables), { state := db }) := by
  have hp : ∀ user : User, (decide (user.id = userId) && user.isActive) = true →
      key user = userId := by
    intro user h
    simp only [Bool.and_eq_true, decide_eq_true_eq] at h
    exact h.1
  exact run_selectOne_key hp db

/-- A valid key is marked as used, and then its owner decides. -/
theorem run_validKey {db : Database} {apiKey : ApiKey}
    (hkey : liveKey (ctx.sha256 rawKey) db.tables = some apiKey)
    (hvalid : apiKey.isValid ctx.now = true) :
    ∃ after, Updated { apiKey with lastUsedAt := some ctx.now } db.tables after ∧
      (authenticateApiKey ctx rawKey).run { state := db } =
        (match activeUser apiKey.userId db.tables with
          | none => .error keyOwnerGone
          | some user => .ok (user, { apiKey with lastUsedAt := some ctx.now }),
        { state := { db with tables := after } }) := by
  have hmem : apiKey ∈ db.tables.apiKeys.rows := List.mem_of_find?_eq_some hkey
  have hfits : fits apiKey = true := db.tables.apiKeys.fits_of_mem hmem
  obtain ⟨_, after, hupdate, hafter⟩ | ⟨hnot, _⟩ :=
    updateRow_cases { apiKey with lastUsedAt := some ctx.now } db.tables hmem rfl rfl
  · refine ⟨after, hafter, ?_⟩
    -- the update of the key leaves the users alone
    have husers : activeUser apiKey.userId after = activeUser apiKey.userId db.tables := by
      obtain ⟨t, rfl, _⟩ := hafter
      rfl
    rw [authenticateApiKey, run_bind_ok (run_liveKey _ db), hkey]
    simp only [hvalid, Bool.not_true, Bool.false_eq_true, if_false]
    rw [run_bind_ok (run_flush_ok hupdate), run_bind_ok (run_activeUser apiKey.userId _)]
    simp only [husers]
    cases activeUser apiKey.userId db.tables with
    | none => rfl
    | some user => rfl
  · have hused : fits { apiKey with lastUsedAt := some ctx.now } = fits apiKey := rfl
    rw [hused, hfits] at hnot
    cases hnot

theorem run_invalidKey {db : Database}
    (h : ∀ apiKey, liveKey (ctx.sha256 rawKey) db.tables = some apiKey →
      apiKey.isValid ctx.now = false) :
    (authenticateApiKey ctx rawKey).run { state := db } = (.error invalidApiKey, { state := db }) := by
  rw [authenticateApiKey, run_bind_ok (run_liveKey _ db)]
  cases hkey : liveKey (ctx.sha256 rawKey) db.tables with
  | none => rfl
  | some apiKey => simp [h apiKey hkey]

/-- Authentication by key fails only by its guards. -/
theorem authenticateApiKey_follows (db : Database) :
    (keyContract ctx rawKey db.tables).Follows True ctx db
      ((authenticateApiKey ctx rawKey).run { state := db }) := by
  refine .inl ⟨trivial, ?_⟩
  by_cases hvalid : ∃ apiKey, liveKey (ctx.sha256 rawKey) db.tables = some apiKey ∧
      apiKey.isValid ctx.now = true
  · obtain ⟨apiKey, hkey, hvalid⟩ := hvalid
    obtain ⟨after, hafter, hrun⟩ := run_validKey hkey hvalid
    rw [hrun]
    cases huser : activeUser apiKey.userId db.tables with
    | none =>
      exact kept_of_guard (e := keyOwnerGone)
        (by simp [keyContract, keyGuard, hkey, hvalid, huser]) rfl
    | some user =>
      have hguard : (keyContract ctx rawKey db.tables).guard = none := by
        simp [keyContract, keyGuard, hkey, hvalid, huser]
      have hchange : (keyContract ctx rawKey db.tables).change after := by
        simpa [keyContract, hkey] using hafter
      exact kept_of_ok hguard hchange (by simp [keyContract]) rfl
  · have hinvalid : ∀ apiKey, liveKey (ctx.sha256 rawKey) db.tables = some apiKey →
        apiKey.isValid ctx.now = false := by
      intro apiKey hkey
      exact Bool.eq_false_iff.2 fun h => hvalid ⟨apiKey, hkey, h⟩
    refine kept_of_guard (e := invalidApiKey) ?_ (congrArg Prod.fst (run_invalidKey hinvalid))
    cases hkey : liveKey (ctx.sha256 rawKey) db.tables with
    | none => simp [keyContract, keyGuard, hkey]
    | some apiKey => simp [keyContract, keyGuard, hkey, hinvalid apiKey hkey]

end ApiKeys

section KeyManagement

variable (ctx : Context) (keyId orgId userId : UUID) (name : String) (scopes : List String)
  (expiresInDays : Option Nat) (ip : Option String)

/-- The row that a request for a key adds. -/
def addedKey (tables : Tables) : ApiKey :=
  newKeyRow ctx tables.apiKeys.freshKey userId orgId name scopes expiresInDays

def createKeyContract (tables : Tables) : Contract :=
  insertContract "API_KEY_CREATED" (keyReport tables.apiKeys.freshKey orgId userId ip)
    (addedKey ctx orgId userId name scopes expiresInDays tables) tables

def revokeKeyContract (tables : Tables) : Contract :=
  changeContract "API key" "API_KEY_REVOKED" keyId orgId revoked
    (fun apiKey => keyReport apiKey.id orgId userId ip) tables

variable {ctx keyId orgId userId name scopes expiresInDays ip}

/-- No key is ever created: the audit action does not exist. -/
theorem createApiKeyForUser_follows (db : Database) :
    (createKeyContract ctx orgId userId name scopes expiresInDays ip db.tables).Follows False ctx db
      ((createApiKeyForUser ctx userId orgId name scopes expiresInDays ip).run { state := db }) := by
  have hname : AuditAction.ofName "API_KEY_CREATED" = none := by decide
  have hstore : (createKeyContract ctx orgId userId name scopes expiresInDays ip
      db.tables).Follows False ctx db ((storeRow ctx "API_KEY_CREATED"
        (keyReport db.tables.apiKeys.freshKey orgId userId ip)
        (addedKey ctx orgId userId name scopes expiresInDays db.tables)).run { state := db }) :=
    .inr ⟨not_false, storeRow_broken _ ctx db _ _ _ hname⟩
  exact hstore.bind_pure _

/-- A key is revoked in no state: only the look-up guard ends well. -/
theorem revokeApiKey_follows (db : Database) :
    (revokeKeyContract keyId orgId userId ip db.tables).Follows
      (scopedRow ApiKey keyId orgId db.tables = none) ctx db
      ((revokeApiKey ctx keyId orgId userId ip).run { state := db }) := by
  have hchange := changeScoped_follows_missing ctx db "API key" "API_KEY_REVOKED" keyId orgId revoked
    (fun apiKey => keyReport apiKey.id orgId userId ip) (fun _ => rfl) (fun _ => rfl)
    (fun _ _ _ => Report.fits_plain (by decide : varchar 100 "api_key" = true) rfl) (by decide)
  exact hchange.bind_pure _

end KeyManagement

end EvalEngine.AuthContracts
