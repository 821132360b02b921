import EvalEngine.AuditCommit

namespace EvalEngine.LoginLockout

open EvalEngine.JsonValues EvalEngine.Exceptions EvalEngine.RunModel EvalEngine.ConstrainedTables EvalEngine.ServiceTables
open EvalEngine.Transactions EvalEngine.AuditService EvalEngine.ServiceContracts
open EvalEngine.AuthService EvalEngine.AuthContracts EvalEngine.ServiceRequests EvalEngine.AuditCommit
open Entity Stored Contract

/-- A request to `POST /auth/login`. -/
structure LoginRequest where
  password : String
  now : Time
  headers : Request := {}
  uuid4 : UUID := 0

variable (ctx : Context) (email : String)

/-- One login, in a session of its own. -/
def login (r : LoginRequest) (db : Database) : Except PyException Unit × Database :=
  serve { ctx with now := r.now } r.headers r.uuid4 (.authenticateUser email r.password) db

def logins : List LoginRequest → Database → Database
  | [], db => db
  | r :: rest, db => logins rest (login ctx email r db).2

/-- The committed counter of the account. -/
def failedAttempts (db : Database) : Option Nat :=
  (liveUser email db.tables).map User.failedLoginAttempts

def isWrong (hashedPassword : String) (r : LoginRequest) : Bool :=
  match ctx.verifyPassword r.password hashedPassword with
  | .ok false => true
  | _ => false

/-- The number of wrong passwords since the last successful login, after one more request. -/
def counted (hashedPassword : String) (r : LoginRequest) (db : Database) (n : Nat) : Nat :=
  if (login ctx email r db).1.isOk then 0 else if isWrong ctx hashedPassword r then n + 1 else n

def wrongSince (hashedPassword : String) : List LoginRequest → Database → Nat → Nat
  | [], _, n => n
  | r :: rest, db, n =>
    wrongSince hashedPassword rest (login ctx email r db).2 (counted ctx email hashedPassword r db n)

/-- After every request the counter is the number of wrong passwords, up to the limit. -/
def CountsFailures (hashedPassword : String) (requests : List LoginRequest) (db : Database) : Prop :=
  ∀ served, served <+: requests → failedAttempts email (logins ctx email served db) =
    some (min User.maxFailedAttempts (wrongSince ctx email hashedPassword served db 0))

/-- A live active account whose counter stands at zero. -/
def Unlocked (hashedPassword : String) (db : Database) : Prop :=
  ∃ user, liveUser email db.tables = some user ∧ user.hashedPassword = hashedPassword ∧
    user.isActive = true ∧ user.failedLoginAttempts = 0

variable {ctx email} {hashedPassword : String} {db : Database}

theorem liveUser_loggedIn {user : User} {after : Tables} {now : Time}
    (huser : liveUser email db.tables = some user)
    (hafter : Updated (loggedIn now user) db.tables after) :
    liveUser email after = some (loggedIn now user) := by
  obtain ⟨t, rfl, hrows⟩ := hafter
  have hfound := List.find?_some huser
  change t.rows.find? _ = _
  rw [hrows]
  exact Table.find_replaced db.tables.users.valid.1 huser rfl hfound

theorem commit_logged_tables (ctx : Context) (entry : AuditEntry) (db : Database) (tables : Tables) :
    (commit db (logged ctx entry { db with tables })).tables = tables ∨
      commit db (logged ctx entry { db with tables }) = db := by
  unfold logged
  split
  · exact .inl rfl
  · exact .inr rfl

theorem login_of_error {r : LoginRequest} {e : PyException}
    (h : (login ctx email r db).1 = .error e) : (login ctx email r db).2 = db := by
  unfold login serve transact at h ⊢
  split at h
  · cases h
  · rfl

/-- A login that raises is rolled back, and one that returns leaves the counter at zero. -/
theorem unlocked_login (r : LoginRequest) (h : Unlocked email hashedPassword db) :
    Unlocked email hashedPassword (login ctx email r db).2 := by
  obtain ⟨user, huser, hhash, hactive, hzero⟩ := h
  cases hok : (login ctx email r db).1 with
  | error e =>
    rw [login_of_error hok]
    exact ⟨user, huser, hhash, hactive, hzero⟩
  | ok a =>
    have haction : actionName (.authenticateUser email r.password) = some "LOGIN" := rfl
    obtain ⟨tables, entry, hchange, _, _, _, _, hafter⟩ := transact_of_ok haction hok
    have hupdated := liveUser_loggedIn huser (hchange user huser)
    have hcommit : (login ctx email r db).2 = _ := hafter
    rw [hcommit]
    obtain htables | hback := commit_logged_tables _ entry db tables
    · refine ⟨loggedIn r.now user, ?_, hhash, hactive, rfl⟩
      rw [htables]
      exact hupdated
    · rw [hback]
      exact ⟨user, huser, hhash, hactive, hzero⟩

theorem unlocked_logins (requests : List LoginRequest) (h : Unlocked email hashedPassword db) :
    Unlocked email hashedPassword (logins ctx email requests db) := by
  induction requests generalizing db with
  | nil => exact h
  | cons r rest ih => exact ih (unlocked_login r h)

theorem failedAttempts_unlocked (h : Unlocked email hashedPassword db) :
    failedAttempts email db = some 0 := by
  obtain ⟨user, huser, _, _, hzero⟩ := h
  rw [failedAttempts, huser, Option.map_some, hzero]

theorem run_of_login_ok {r : LoginRequest} (h : (login ctx email r db).1.isOk = true) :
    ∃ t, ((Operation.authenticateUser email r.password).run
      { ctx with now := r.now, requestId := correlationId r.headers r.uuid4 }
      (some (getClientIp r.headers))).run { state := db } = (.ok (), t) := by
  unfold login serve transact at h
  split at h
  next a t hrun => exact ⟨t, hrun⟩
  next => cases h

/-- A wrong password is refused. -/
theorem refused_of_wrong {r : LoginRequest} (h : Unlocked email hashedPassword db)
    (hwrong : isWrong ctx hashedPassword r = true) : (login ctx email r db).1.isOk = false := by
  obtain ⟨user, huser, rfl, hactive, hzero⟩ := h
  rw [Bool.eq_false_iff]
  intro hok
  obtain ⟨t, hrun⟩ := run_of_login_ok hok
  have hfollows := (Operation.authenticateUser email r.password).run_follows
    { ctx with now := r.now, requestId := correlationId r.headers r.uuid4 }
    (some (getClientIp r.headers)) db
  rw [hrun] at hfollows
  obtain ⟨_, hguard, _⟩ := hfollows.of_ok rfl
  have hverify : ctx.verifyPassword r.password user.hashedPassword = .ok false := by
    unfold isWrong at hwrong
    split at hwrong
    · assumption
    · cases hwrong
  have hlocked : user.isLocked = false := by simp [User.isLocked, User.maxFailedAttempts, hzero]
  have hstop : loginGuard { ctx with now := r.now, requestId := correlationId r.headers r.uuid4 }
      r.password (liveUser email db.tables) = some invalidCredentials := by
    simp [loginGuard, huser, hactive, hlocked, hverify]
  rw [show loginGuard _ r.password (liveUser email db.tables) = none from hguard] at hstop
  cases hstop

theorem textStorable_of_liveUser {user : User} (h : liveUser email db.tables = some user) :
    textStorable email = true := by
  have hfits := db.tables.users.fits_of_mem (List.mem_of_find?_eq_some h)
  have hemail := List.find?_some h
  simp only [Bool.and_eq_true, decide_eq_true_eq] at hemail
  simp only [fits, varchar, Bool.and_eq_true, hemail.1] at hfits
  exact hfits.1.1.1.2

/-- The right password is accepted: the account is never locked. -/
theorem accepted_of_right {r : LoginRequest} (h : Unlocked email hashedPassword db)
    (hright : ctx.verifyPassword r.password hashedPassword = .ok true) :
    (login ctx email r db).1 = .ok () := by
  obtain ⟨user, huser, rfl, hactive, hzero⟩ := h
  have hlocked : user.isLocked = false := by simp [User.isLocked, User.maxFailedAttempts, hzero]
  have hguard : ((Operation.authenticateUser email r.password).codeContract
      { ctx with now := r.now, requestId := correlationId r.headers r.uuid4 }
      (some (getClientIp r.headers)) db.tables).guard = none := by
    change loginGuard _ r.password (liveUser email db.tables) = none
    simp [loginGuard, huser, hactive, hlocked, hright]
  obtain ⟨_, hkept⟩ | ⟨hnot, _⟩ := (Operation.authenticateUser email r.password).run_follows
    { ctx with now := r.now, requestId := correlationId r.headers r.uuid4 }
    (some (getClientIp r.headers)) db
  · simp only [Kept, hguard] at hkept
    obtain ⟨a, tables, _, _, hrun⟩ := hkept
    exact congrArg Prod.fst (transact_ok hrun)
  · refine absurd ⟨textStorable_of_liveUser huser, ?_⟩ hnot
    intro user' huser' _ _
    rw [huser] at huser'
    cases huser'
    exact ⟨true, hright⟩

theorem wrongSince_append (served : List LoginRequest) (r : LoginRequest) (db : Database) (n : Nat) :
    wrongSince ctx email hashedPassword (served ++ [r]) db n =
      counted ctx email hashedPassword r (logins ctx email served db)
        (wrongSince ctx email hashedPassword served db n) := by
  induction served generalizing db n with
  | nil => rfl
  | cons r' rest ih => exact ih _ _

theorem wrongSince_right {served : List LoginRequest} (db : Database)
    (h : ∀ r ∈ served, isWrong ctx hashedPassword r = false) :
    wrongSince ctx email hashedPassword served db 0 = 0 := by
  induction served generalizing db with
  | nil => rfl
  | cons r rest ih =>
    have hzero : counted ctx email hashedPassword r db 0 = 0 := by
      simp [counted, h r List.mem_cons_self]
    rw [wrongSince, hzero]
    exact ih _ fun r' hr' => h r' (List.mem_cons_of_mem _ hr')

/-- The counter follows the attempts exactly when none of them is wrong: it never moves. -/
theorem countsFailures_iff (requests : List LoginRequest) {user : User}
    (huser : liveUser email db.tables = some user) (hactive : user.isActive = true)
    (hzero : user.failedLoginAttempts = 0) :
    CountsFailures ctx email user.hashedPassword requests db ↔
      ∀ r ∈ requests, isWrong ctx user.hashedPassword r = false := by
  have hunlocked : Unlocked email user.hashedPassword db := ⟨user, huser, rfl, hactive, hzero⟩
  constructor
  · intro hcounts r hr
    by_contra hwrong
    rw [Bool.not_eq_false] at hwrong
    obtain ⟨before, after, rfl⟩ := List.append_of_mem hr
    have hbefore : Unlocked email user.hashedPassword (logins ctx email before db) :=
      unlocked_logins before hunlocked
    have hprefix : before ++ [r] <+: before ++ r :: after := by simp
    have hcount := hcounts (before ++ [r]) hprefix
    rw [failedAttempts_unlocked (unlocked_logins _ hunlocked), wrongSince_append, counted,
      refused_of_wrong hbefore hwrong, hwrong] at hcount
    simp only [User.maxFailedAttempts, Bool.false_eq_true, if_false, if_true, Option.some.injEq] at hcount
    omega
  · intro hright served hserved
    have hnone : wrongSince ctx email user.hashedPassword served db 0 = 0 :=
      wrongSince_right db fun r hr => hright r (hserved.subset hr)
    rw [failedAttempts_unlocked (unlocked_logins _ hunlocked), hnone, Nat.min_zero]

section Sample

def founder : User where
  id := 1
  email := "founder@startup.io"
  hashedPassword := "$2b$12$correct horse"
  fullName := "Founder"
  role := .admin
  organizationId := 1

def right : LoginRequest := { password := "correct horse", now := 1 }

def wrong : LoginRequest := { password := "wrong horse", now := 1 }

/-- Three right passwords in a row leave the counter at zero, as they should;
with a wrong one between them it is left there too. -/
theorem countsFailures_right :
    CountsFailures sampleContext "founder@startup.io" founder.hashedPassword (List.replicate 3 right)
      registered ∧
    ¬ CountsFailures sampleContext "founder@startup.io" founder.hashedPassword [right, wrong, right]
      registered := by
  have huser : liveUser "founder@startup.io" registered.tables = some founder := rfl
  constructor
  · exact (countsFailures_iff (List.replicate 3 right) huser rfl rfl).2 (by decide)
  · intro hcounts
    exact absurd ((countsFailures_iff [right, wrong, right] huser rfl rfl).1 hcounts) (by decide)

/-- Five wrong passwords leave the counter at zero, and the right one is then accepted. -/
theorem five_failures_uncounted :
    ¬ CountsFailures sampleContext "founder@startup.io" founder.hashedPassword
        (List.replicate 5 wrong) registered ∧
      (login sampleContext "founder@startup.io" right
        (logins sampleContext "founder@startup.io" (List.replicate 5 wrong) registered)).1 = .ok () := by
  have hunlocked : Unlocked "founder@startup.io" founder.hashedPassword registered :=
    ⟨founder, rfl, rfl, rfl, rfl⟩
  constructor
  · intro hcounts
    have hcount := hcounts [wrong] ⟨List.replicate 4 wrong, rfl⟩
    rw [failedAttempts_unlocked (unlocked_logins _ hunlocked)] at hcount
    have hsince : wrongSince sampleContext "founder@startup.io" founder.hashedPassword [wrong]
        registered 0 = 1 := by decide +kernel
    rw [hsince] at hcount
    cases hcount
  · exact accepted_of_right (unlocked_logins _ hunlocked) rfl

end Sample

end EvalEngine.LoginLockout
