import EvalEngine.AuditCommit
import EvalEngine.Transitions
import EvalEngine.UncommittedRows

namespace EvalEngine.RegisterUser

open EvalEngine.JsonValues EvalEngine.Exceptions EvalEngine.RunModel EvalEngine.ConstrainedTables
open EvalEngine.ServiceTables EvalEngine.Transactions EvalEngine.AuditService EvalEngine.QueryResults
open EvalEngine.ServiceContracts EvalEngine.RowOperations EvalEngine.AuthService
open EvalEngine.AuthContracts EvalEngine.AuditCommit EvalEngine.Transitions
open EvalEngine.UncommittedRows
open Entity Stored Contract

/-- The keyword arguments of `register_user`, and what its request reads from outside. -/
structure Registration where
  ctx : Context
  email : String
  password : String
  fullName : String
  organizationName : String
  ip : Option String

namespace Registration

variable (r : Registration)

def slug : String := slugify r.ctx.unicode r.organizationName

def register : Service (User × Organization) :=
  registerUser r.ctx r.email r.password r.fullName r.organizationName r.ip

def askUser : Service Unit := refuseIfFound r.email (usersOf r.email) (emailTaken r.email) (pure ())

def askOrganization : Service Unit :=
  refuseIfFound r.slug (organizationsOf r.slug) (organizationTaken r.organizationName) (pure ())

def organization (id : UUID) : Organization := newOrganization r.ctx r.organizationName id

def user (hashedPassword : String) (id : UUID) (org : Organization) : User :=
  newAdmin r.email hashedPassword r.fullName id org.id

/-- The statements of a registration that write, up to its return. -/
def write (org : Organization) (user : User) : Service User := do
  flush (insertRow org)
  storeRow r.ctx "CREATE" (userReport user r.ip) user

/-- An organization and the user in it as the registration creates them. -/
structure Creates (org : Organization) (user : User) : Prop where
  slug : org.slug = r.slug
  email : user.email = r.email
  member : user.organizationId = org.id
  live : org.deletedAt = none ∧ user.deletedAt = none

end Registration

/-- How far a registration has come, with the rows that it has flushed. -/
inductive Stage
  | asked
  | cleared
  | flushed (org : Organization)
  | enrolled (org : Organization) (user : User)

def Stage.organization : Stage → Option Organization
  | .flushed org | .enrolled org _ => some org
  | _ => none

def Stage.user : Stage → Option User
  | .enrolled _ user => some user
  | _ => none

/-- A transaction that has not ended. -/
structure Opened where
  tx : Nat
  r : Registration
  stage : Stage

inductive Outcome
  | registered (r : Registration) (org : Organization) (user : User)
  | failed (r : Registration)

def Outcome.organization : Outcome → Option Organization
  | .registered _ org _ => some org
  | .failed _ => none

def Outcome.user : Outcome → Option User
  | .registered _ _ user => some user
  | .failed _ => none

/-- The committed database, the open transactions, and how the others ended. -/
structure State where
  db : Database
  opened : List Opened
  outcomes : List Outcome

def start (db : Database) : State := ⟨db, [], []⟩

namespace State

variable (s : State)

def find (tx : Nat) : Option Opened := s.opened.find? (fun o => decide (o.tx = tx))

def others (tx : Nat) : List Opened := s.opened.filter (fun o => !decide (o.tx = tx))

def organizations : List Organization := s.opened.filterMap (·.stage.organization)

def users : List User := s.opened.filterMap (·.stage.user)

def move (o : Opened) : State := { s with opened := o :: s.others o.tx }

def finish (tx : Nat) (db : Database) (outcome : Outcome) : State :=
  { db, opened := s.others tx, outcomes := s.outcomes ++ [outcome] }

/-- ROLLBACK, after an exception. -/
def fail (o : Opened) : State := s.finish o.tx s.db (.failed o.r)

/-- The transaction reaches the next stage, or what it has sent raises. -/
def advance {α : Type} (o : Opened) (stage : Stage) : Except PyException α → State
  | .ok _ => s.move { o with stage }
  | .error _ => s.fail o

end State

inductive Action
  | lookUpUser (tx : Nat) (r : Registration)
  | lookUpOrganization (tx : Nat)
  | flushOrganization (tx : Nat) (id : UUID)
  | flushUser (tx : Nat) (id : UUID)
  | commit (tx : Nat)
  | rollback (tx : Nat)

/-- One statement of one transaction on the rows that are committed by then and its own. -/
def step (s : State) : Action → Option State
  | .lookUpUser tx r =>
    if (s.find tx).isSome then none
    else some (s.advance ⟨tx, r, .asked⟩ .asked (r.askUser.run { state := s.db }).1)
  | .lookUpOrganization tx =>
    match s.find tx with
    | some ⟨tx, r, .asked⟩ =>
      some (s.advance ⟨tx, r, .asked⟩ .cleared (r.askOrganization.run { state := s.db }).1)
    | _ => none
  | .flushOrganization tx id =>
    match s.find tx with
    | some ⟨tx, r, .cleared⟩ =>
      -- an INSERT waits for the open transaction that holds its index entry
      if (s.others tx).any (fun o => o.stage.organization.any (clashes (r.organization id))) then none
      else some (s.advance ⟨tx, r, .cleared⟩ (.flushed (r.organization id))
        ((flush (insertRow (r.organization id))).run { state := s.db }).1)
    | _ => none
  | .flushUser tx id =>
    match s.find tx with
    | some ⟨tx, r, .flushed org⟩ =>
      match r.ctx.hashPassword r.password with
      | .error _ => some (s.fail ⟨tx, r, .flushed org⟩)
      | .ok hashedPassword =>
        if (s.others tx).any (fun o => o.stage.user.any (clashes (r.user hashedPassword id org)))
        then none
        else some (s.advance ⟨tx, r, .flushed org⟩ (.enrolled org (r.user hashedPassword id org))
          ((r.write org (r.user hashedPassword id org)).run { state := s.db }).1)
    | _ => none
  | .commit tx =>
    match s.find tx with
    | some ⟨tx, r, .enrolled org user⟩ =>
      match (r.write org user).run { state := s.db } with
      | (.ok _, t) =>
        if t.aborted then some (s.fail ⟨tx, r, .enrolled org user⟩)
        else some (s.finish tx t.state (.registered r org user))
      | (.error _, _) => some (s.fail ⟨tx, r, .enrolled org user⟩)
    | _ => none
  | .rollback tx => (s.find tx).map s.fail

section Write

variable {ρ : Type} [Stored ρ] {row : ρ} {tables after : Tables}

theorem insertRow_ok_iff : insertRow row tables = .ok after ↔ references tables row = true ∧
    ∃ h : Valid ((table tables : Table ρ).rows ++ [row]), after = put ⟨_, h⟩ tables := by
  by_cases href : references tables row = true
  · by_cases hvalid : Valid ((table tables : Table ρ).rows ++ [row])
    · simp [insertRow, href, Table.insert, Table.write_of_valid hvalid, hvalid, eq_comm]
    · simp [insertRow, href, Table.insert, Table.write_of_not_valid hvalid, hvalid]
  · simp [insertRow, href]

variable {r : Registration} {org : Organization} {user : User} {db : Database} {mid : Tables}

theorem ofName_create : AuditAction.ofName "CREATE" = some .create := by decide

theorem run_write (horg : insertRow org db.tables = .ok mid) (huser : insertRow user mid = .ok after) :
    (r.write org user).run { state := db } =
      (.ok user, logged r.ctx ((userReport user r.ip).entry .create) { db with tables := after }) := by
  rw [Registration.write, run_bind_ok (run_flush_ok horg)]
  exact run_storeRow r.ctx { db with tables := mid } _ _ ofName_create huser

theorem run_write_error {e : PyException} (horg : insertRow org db.tables = .ok mid)
    (huser : insertRow user mid = .error e) :
    (r.write org user).run { state := db } =
      (.error e, { state := { db with tables := mid }, aborted := true }) := by
  rw [Registration.write, run_bind_ok (run_flush_ok horg)]
  exact run_storeRow_error r.ctx { db with tables := mid } "CREATE" _ _ huser

/-- Both rows go in, or the write raises. -/
theorem write_cases (r : Registration) (org : Organization) (user : User) (db : Database) :
    (∃ mid after, insertRow org db.tables = .ok mid ∧ insertRow user mid = .ok after ∧
      (r.write org user).run { state := db } =
        (.ok user, logged r.ctx ((userReport user r.ip).entry .create) { db with tables := after })) ∨
    ∃ e t, (r.write org user).run { state := db } = (.error e, t) := by
  cases horg : insertRow org db.tables with
  | error e =>
    refine .inr ⟨e, { state := db, aborted := true }, ?_⟩
    rw [Registration.write, run_bind_error (run_flush_error horg)]
  | ok mid =>
    cases huser : insertRow user mid with
    | error e => exact .inr ⟨e, _, run_write_error horg huser⟩
    | ok after => exact .inl ⟨mid, after, rfl, huser, run_write horg huser⟩

end Write

/-- What holds of the committed rows, against those from before the registrations. -/
structure Guaranteed (db : Database) (s : State) : Prop where
  emails : s.db.tables.users.rows.Pairwise
    (fun u v => u.deletedAt = none → v.deletedAt = none → u.email ≠ v.email)
  slugs : s.db.tables.organizations.rows.Pairwise
    (fun o p => o.deletedAt = none → p.deletedAt = none → o.slug ≠ p.slug)
  organizations : s.db.tables.organizations.rows =
    db.tables.organizations.rows ++ s.outcomes.filterMap Outcome.organization
  users : s.db.tables.users.rows = db.tables.users.rows ++ s.outcomes.filterMap Outcome.user
  created : ∀ r org user, Outcome.registered r org user ∈ s.outcomes → r.Creates org user

/-- The rows of a stage are those of its registration. -/
def Stage.Of (r : Registration) : Stage → Prop
  | .asked | .cleared => True
  | .flushed org => ∃ id, org = r.organization id
  | .enrolled org user => (∃ id, org = r.organization id) ∧
      ∃ hashedPassword id, user = r.user hashedPassword id org

theorem Stage.Of.creates {r : Registration} {org : Organization} {user : User}
    (h : (Stage.enrolled org user).Of r) : r.Creates org user := by
  obtain ⟨⟨id, rfl⟩, hashedPassword, userId, rfl⟩ := h
  exact ⟨rfl, rfl, rfl, rfl, rfl⟩

/-- The index entries of the open transactions go together with the committed rows. -/
structure Inv (db : Database) (s : State) : Prop where
  organizations : s.db.tables.organizations.rows =
    db.tables.organizations.rows ++ s.outcomes.filterMap Outcome.organization
  users : s.db.tables.users.rows = db.tables.users.rows ++ s.outcomes.filterMap Outcome.user
  created : ∀ r org user, Outcome.registered r org user ∈ s.outcomes → r.Creates org user
  ofStage : ∀ o ∈ s.opened, o.stage.Of o.r
  orgEntries : Valid (s.db.tables.organizations.rows ++ s.organizations)
  userEntries : Valid (s.db.tables.users.rows ++ s.users)

theorem Inv.holds {db : Database} {s : State} (h : Inv db s) : Guaranteed db s := by
  refine ⟨?_, ?_, h.organizations, h.users, h.created⟩
  · have hpair := (valid_iff_pairwise.1 s.db.tables.users.valid).1
    refine hpair.imp fun {u v} hclash hu hv => ?_
    exact (clashes_eq_false.1 hclash).2 _ (by simp [indexed, hu]) _ (by simp [indexed, hv])
  · have hpair := (valid_iff_pairwise.1 s.db.tables.organizations.valid).1
    refine hpair.imp fun {o p} hclash ho hp => ?_
    exact (clashes_eq_false.1 hclash).2 _ (by simp [indexed, ho]) _ (by simp [indexed, hp])

section Steps

variable {db : Database} {s t : State} {o : Opened} {tx : Nat}

theorem inv_start (db : Database) : Inv db (start db) := by
  refine ⟨by simp [start], by simp [start], by rintro r org user ⟨⟩, by rintro o ⟨⟩, ?_, ?_⟩
  · exact (List.append_nil _).symm ▸ db.tables.organizations.valid
  · exact (List.append_nil _).symm ▸ db.tables.users.valid

theorem tx_of_find (h : s.find tx = some o) : o.tx = tx :=
  of_decide_eq_true (List.find?_some (p := fun o : Opened => decide (o.tx = tx)) h)

section Entries

variable {ρ : Type} [Entity ρ] {f : Stage → Option ρ} {committed : List ρ}

/-- The entries of the others are still there when a transaction has ended. -/
theorem valid_others (tx : Nat) (h : Valid (committed ++ s.opened.filterMap (fun o => f o.stage))) :
    Valid (committed ++ (s.others tx).filterMap (fun o => f o.stage)) :=
  valid_of_subperm
    ((List.subperm_append_left _).2 (subperm_filterMap _ List.filter_sublist.subperm)) h

theorem valid_found (hfind : s.find tx = some o)
    (h : Valid (committed ++ s.opened.filterMap (fun o => f o.stage))) :
    Valid (committed ++ (o :: s.others tx).filterMap (fun o => f o.stage)) :=
  valid_of_subperm ((List.subperm_append_left _).2 (subperm_filterMap _ (subperm_of_find hfind))) h

/-- A row that has waited clashes with no entry of the others. -/
theorem no_clash {row : ρ} (hwaited : (s.others tx).any (fun o => (f o.stage).any (clashes row)) = false) :
    ∀ other ∈ (s.others tx).filterMap (fun o => f o.stage), clashes row other = false := by
  intro other hother
  obtain ⟨o, ho, hsome⟩ := List.mem_filterMap.1 hother
  have hnone := List.any_eq_false.1 hwaited o ho
  rw [hsome] at hnone
  exact Bool.eq_false_iff.2 hnone

end Entries

theorem inv_fail (hinv : Inv db s) (o : Opened) : Inv db (s.fail o) := by
  refine ⟨?_, ?_, ?_, ?_, ?_, ?_⟩
  · simpa [State.fail, State.finish, List.filterMap_cons, Outcome.organization] using hinv.organizations
  · simpa [State.fail, State.finish, List.filterMap_cons, Outcome.user] using hinv.users
  · intro r org user h
    obtain h | h := List.mem_append.1 h
    · exact hinv.created r org user h
    · cases List.mem_singleton.1 h
  · intro p hp
    exact hinv.ofStage p (List.mem_of_mem_filter hp)
  · exact valid_others (f := Stage.organization) o.tx hinv.orgEntries
  · exact valid_others (f := Stage.user) o.tx hinv.userEntries

/-- The rows of the next stage go together with the others'. -/
theorem inv_move (hinv : Inv db s) (hof : o.stage.Of o.r)
    (horg : Valid (s.db.tables.organizations.rows ++
      (o :: s.others o.tx).filterMap (fun o => o.stage.organization)))
    (huser : Valid (s.db.tables.users.rows ++ (o :: s.others o.tx).filterMap (fun o => o.stage.user))) :
    Inv db (s.move o) := by
  refine ⟨hinv.organizations, hinv.users, hinv.created, ?_, horg, huser⟩
  intro p hp
  obtain rfl | hp := List.mem_cons.1 hp
  · exact hof
  · exact hinv.ofStage p (List.mem_of_mem_filter hp)

/-- The next stage without a new row. -/
theorem inv_advance_asking {α : Type} (hinv : Inv db s) {stage : Stage}
    (hstage : stage = .asked ∨ stage = .cleared) (result : Except PyException α) :
    Inv db (s.advance o stage result) := by
  cases result with
  | error e => exact inv_fail hinv o
  | ok a =>
    have horg : stage.organization = none := by obtain rfl | rfl := hstage <;> rfl
    have huser : stage.user = none := by obtain rfl | rfl := hstage <;> rfl
    refine inv_move hinv (by obtain rfl | rfl := hstage <;> trivial) ?_ ?_
    · rw [List.filterMap_cons, horg]
      exact valid_others (f := Stage.organization) o.tx hinv.orgEntries
    · rw [List.filterMap_cons, huser]
      exact valid_others (f := Stage.user) o.tx hinv.userEntries

theorem inv_flushOrganization (hinv : Inv db s) {id : UUID}
    (h : step s (.flushOrganization tx id) = some t) : Inv db t := by
  simp only [step] at h
  split at h
  next tx' r hfind =>
    split at h
    · cases h
    next hwaited =>
      cases h
      have htx : tx' = tx := tx_of_find hfind
      subst htx
      rw [Bool.not_eq_true] at hwaited
      cases hinsert : insertRow (r.organization id) s.db.tables with
      | error e =>
        rw [run_flush_error hinsert]
        exact inv_fail hinv _
      | ok after =>
        rw [run_flush_ok hinsert]
        obtain ⟨-, hvalid, -⟩ := insertRow_ok_iff.1 hinsert
        refine inv_move hinv ⟨id, rfl⟩ ?_ ?_
        · exact valid_insert (valid_others (f := Stage.organization) tx' hinv.orgEntries) hvalid
            (no_clash (f := Stage.organization) hwaited)
        · exact valid_others (f := Stage.user) tx' hinv.userEntries
  · cases h

theorem inv_flushUser (hinv : Inv db s) {id : UUID} (h : step s (.flushUser tx id) = some t) :
    Inv db t := by
  simp only [step] at h
  split at h
  next tx' r org hfind =>
    have htx : tx' = tx := tx_of_find hfind
    subst htx
    split at h
    · cases h
      exact inv_fail hinv _
    next hashedPassword hhash =>
      split at h
      · cases h
      next hwaited =>
        cases h
        rw [Bool.not_eq_true] at hwaited
        obtain ⟨mid, after, horg, huser, hrun⟩ | ⟨e, t, hrun⟩ :=
          write_cases r org (r.user hashedPassword id org) s.db
        · rw [hrun]
          obtain ⟨-, _, rfl⟩ := insertRow_ok_iff.1 horg
          obtain ⟨-, hvalid, -⟩ := insertRow_ok_iff.1 huser
          have hof := hinv.ofStage _ (List.mem_of_find?_eq_some hfind)
          have hfound := valid_found (f := Stage.organization) hfind hinv.orgEntries
          refine inv_move hinv ⟨hof, hashedPassword, id, rfl⟩ ?_ ?_
          · exact hfound
          · exact valid_insert (valid_others (f := Stage.user) tx' hinv.userEntries) hvalid
              (no_clash (f := Stage.user) hwaited)
        · rw [hrun]
          exact inv_fail hinv _
  · cases h

/-- Both rows of a registration are committed together. -/
theorem inv_registered (hinv : Inv db s) {r : Registration} {org : Organization} {user : User}
    (hfind : s.find tx = some ⟨tx, r, .enrolled org user⟩) {after : Database}
    (horgs : after.tables.organizations.rows = s.db.tables.organizations.rows ++ [org])
    (husers : after.tables.users.rows = s.db.tables.users.rows ++ [user]) :
    Inv db (s.finish tx after (.registered r org user)) := by
  have hof : (Stage.enrolled org user).Of r := hinv.ofStage _ (List.mem_of_find?_eq_some hfind)
  have hflyingOrgs := valid_found (f := Stage.organization) hfind hinv.orgEntries
  have hflyingUsers := valid_found (f := Stage.user) hfind hinv.userEntries
  refine ⟨?_, ?_, ?_, ?_, ?_, ?_⟩
  · simp [State.finish, horgs, hinv.organizations, Outcome.organization]
  · simp [State.finish, husers, hinv.users, Outcome.user]
  · intro r' org' user' h
    obtain h | h := List.mem_append.1 h
    · exact hinv.created r' org' user' h
    · cases List.mem_singleton.1 h
      exact hof.creates
  · intro p hp
    exact hinv.ofStage p (List.mem_of_mem_filter hp)
  · change Valid (after.tables.organizations.rows ++ _)
    rw [horgs, List.append_assoc]
    exact hflyingOrgs
  · change Valid (after.tables.users.rows ++ _)
    rw [husers, List.append_assoc]
    exact hflyingUsers

theorem inv_commit (hinv : Inv db s) (h : step s (.commit tx) = some t) : Inv db t := by
  simp only [step] at h
  split at h
  next tx' r org user hfind =>
    have htx : tx' = tx := tx_of_find hfind
    subst htx
    obtain ⟨mid, after, horg, huser, hrun⟩ | ⟨e, t', hrun⟩ := write_cases r org user s.db
    · rw [hrun] at h
      simp only [logged] at h
      split at h
      · cases h
        obtain ⟨-, _, rfl⟩ := insertRow_ok_iff.1 horg
        obtain ⟨-, _, rfl⟩ := insertRow_ok_iff.1 huser
        exact inv_registered hinv hfind rfl rfl
      · cases h
        exact inv_fail hinv _
    · rw [hrun] at h
      cases h
      exact inv_fail hinv _
  · cases h

/-- The step lemma of the invariant. -/
theorem inv_step (s : State) (a : Action) (t : State) (hinv : Inv db s) (_ : free s a)
    (h : step s a = some t) : Inv db t := by
  cases a with
  | lookUpUser tx r =>
    simp only [step] at h
    split at h
    · cases h
    · cases h
      exact inv_advance_asking hinv (.inl rfl) _
  | lookUpOrganization tx =>
    simp only [step] at h
    split at h
    · obtain rfl := Option.some.inj h
      exact inv_advance_asking hinv (.inr rfl) _
    · cases h
  | flushOrganization tx id => exact inv_flushOrganization hinv h
  | flushUser tx id => exact inv_flushUser hinv h
  | commit tx => exact inv_commit hinv h
  | rollback tx =>
    obtain ⟨o, -, rfl⟩ := Option.map_eq_some_iff.1 h
    exact inv_fail hinv o

theorem guaranteed_of_exec (h : Exec step free (start db) s) : Guaranteed db s :=
  (h.invariant (inv_start db) inv_step).holds

/-- Once both rows are flushed, the indexes cannot refuse them any more. -/
theorem write_of_enrolled (h : Exec step free (start db) s) {r : Registration} {org : Organization}
    {user : User} (hfind : s.find tx = some ⟨tx, r, .enrolled org user⟩) :
    ((r.write org user).run { state := s.db }).1 = .ok user := by
  have hinv := h.invariant (inv_start db) inv_step
  obtain ⟨-, hashedPassword, id, rfl⟩ :
      (Stage.enrolled org user).Of r := hinv.ofStage _ (List.mem_of_find?_eq_some hfind)
  have hflyingOrgs := valid_found (f := Stage.organization) hfind hinv.orgEntries
  have hflyingUsers := valid_found (f := Stage.user) hfind hinv.userEntries
  have horgs : Valid ((table s.db.tables : Table Organization).rows ++ [org]) :=
    valid_of_subperm ((List.subperm_append_left _).2 (by simp [Stage.organization])) hflyingOrgs
  have husers : Valid ((table s.db.tables : Table User).rows ++ [r.user hashedPassword id org]) :=
    valid_of_subperm ((List.subperm_append_left _).2 (by simp [Stage.user])) hflyingUsers
  have hmid : insertRow org s.db.tables = .ok (put ⟨_, horgs⟩ s.db.tables) :=
    insertRow_ok_iff.2 ⟨rfl, horgs, rfl⟩
  have hmember : references (put ⟨_, horgs⟩ s.db.tables) (r.user hashedPassword id org) = true :=
    List.any_eq_true.2 ⟨org, List.mem_append_right _ List.mem_cons_self, decide_eq_true rfl⟩
  rw [run_write hmid (insertRow_ok_iff.2 ⟨hmember, husers, rfl⟩)]

end Steps

section Alone

variable (r : Registration) (db : Database)

/-- The registration returns, and its organization and its user are committed. -/
def Succeeds : Prop :=
  (∃ result, (transact r.register db).1 = .ok result) ∧ ∃ org user, r.Creates org user ∧
    (transact r.register db).2.tables.organizations.rows = db.tables.organizations.rows ++ [org] ∧
    (transact r.register db).2.tables.users.rows = db.tables.users.rows ++ [user]

/-- No live user has the address, and no live organization the slug. -/
def Free : Prop :=
  (∀ user ∈ db.tables.users.rows, user.deletedAt = none → user.email ≠ r.email) ∧
    ∀ org ∈ db.tables.organizations.rows, org.deletedAt = none → org.slug ≠ r.slug

/-- No soft-deleted row has them either. -/
def Unheld : Prop :=
  (∀ user ∈ db.tables.users.rows, user.deletedAt ≠ none → user.email ≠ r.email) ∧
    ∀ org ∈ db.tables.organizations.rows, org.deletedAt ≠ none → org.slug ≠ r.slug

/-- The password can be hashed, and every value that is sent fits its column. -/
def Storable : Prop :=
  varchar 255 r.organizationName = true ∧ Enrollable r.ctx r.email r.password r.fullName ∧
    "CREATE" ∈ db.auditLabels ∧ r.ip.all (varchar 45) = true ∧ varchar 36 r.ctx.requestId = true

variable {r db}

theorem free_and_unheld_iff : (Free r db ∧ Unheld r db) ↔
    usersOf r.email db.tables = [] ∧ organizationsOf r.slug db.tables = [] := by
  have hboth : ∀ {ρ : Type} {rows : List ρ} {deleted : ρ → Option Time} {p : ρ → Prop},
      ((∀ row ∈ rows, deleted row = none → p row) ∧ ∀ row ∈ rows, deleted row ≠ none → p row) ↔
        ∀ row ∈ rows, p row := by
    intro ρ rows deleted p
    constructor
    · rintro ⟨hlive, hdeleted⟩ row hrow
      by_cases h : deleted row = none
      · exact hlive row hrow h
      · exact hdeleted row hrow h
    · intro h
      exact ⟨fun row hrow _ => h row hrow, fun row hrow _ => h row hrow⟩
  simp only [Free, Unheld, usersOf, organizationsOf, List.filter_eq_nil_iff, decide_eq_true_eq]
  rw [and_and_and_comm, hboth, hboth]

/-- The contract of the registration on the tables that it finds. -/
abbrev owed (r : Registration) (tables : Tables) : Contract :=
  registerContract r.ctx r.email r.password r.fullName r.organizationName r.ip tables

theorem owed_guard_iff {tables : Tables} : (owed r tables).guard = none ↔
    usersOf r.email tables = [] ∧ organizationsOf r.slug tables = [] := by
  by_cases husers : usersOf r.email tables = []
  · by_cases horgs : organizationsOf (slugify r.ctx.unicode r.organizationName) tables = []
    · simp [registerContract, Registration.slug, husers, horgs]
    · simp [registerContract, Registration.slug, husers, horgs]
  · simp [registerContract, husers]

theorem rows_of_change {after : Tables} (h : (owed r db.tables).change after) :
    ∃ org user, r.Creates org user ∧
      after.organizations.rows = db.tables.organizations.rows ++ [org] ∧
      after.users.rows = db.tables.users.rows ++ [user] := by
  obtain ⟨hashedPassword, mid, -, ⟨t, rfl, horgs⟩, t', rfl, husers⟩ := h
  have hcreates : ∀ orgId userId, r.Creates (r.organization orgId)
      (r.user hashedPassword userId (r.organization orgId)) := by
    intro orgId userId
    exact Stage.Of.creates ⟨⟨orgId, rfl⟩, hashedPassword, userId, rfl⟩
  exact ⟨_, _, hcreates _ _, horgs, husers⟩

/-- The entry of a registration, and when its row is accepted. -/
theorem owed_entry (r : Registration) (db : Database) : ∃ entry, (owed r db.tables).entry = some entry ∧
    (entry.fits = true → ((auditRow r.ctx entry).fits db.auditLabels = true ↔
      "CREATE" ∈ db.auditLabels ∧ r.ip.all (varchar 45) = true ∧ varchar 36 r.ctx.requestId = true)) := by
  obtain ⟨entry, hentry, hname, haddress⟩ :=
    @entryOf_some "CREATE" (registerReport r.ip db.tables) (by decide)
  refine ⟨entry, hentry, fun hfits => ?_⟩
  rw [auditRow_fits r.ctx hfits, hname, haddress]
  simp [registerReport, and_assoc]

theorem register_follows (r : Registration) (db : Database) :
    (owed r db.tables).Follows
      (Registrable r.ctx r.email r.password r.fullName r.organizationName db.tables) r.ctx db
      (r.register.run { state := db }) := registerUser_follows db

/-- What a registration that returns has found, and what it leaves. -/
theorem of_returns {result : User × Organization} (hok : (transact r.register db).1 = .ok result) :
    Registrable r.ctx r.email r.password r.fullName r.organizationName db.tables ∧
      (owed r db.tables).guard = none ∧ ∃ tables, (owed r db.tables).change tables ∧
        (∀ entry ∈ (owed r db.tables).entry, entry.fits = true) ∧
        (transact r.register db).2 = commit db ((owed r db.tables).close r.ctx { db with tables }) := by
  cases hrun : r.register.run { state := db } with
  | mk answer t =>
    cases answer with
    | error e =>
      rw [transact_error hrun] at hok
      cases hok
    | ok a =>
      have hfollows := register_follows r db
      rw [hrun] at hfollows
      obtain ⟨hcond, hguard, tables, hchange, hfits, ht⟩ := hfollows.of_ok rfl
      refine ⟨hcond, hguard, tables, hchange, hfits, ?_⟩
      rw [transact_ok hrun]
      exact congrArg (commit db) ht

/-- A registration that finds nothing returns where its values fit. -/
theorem returns_of_unheld (hguard : (owed r db.tables).guard = none)
    (hcond : Registrable r.ctx r.email r.password r.fullName r.organizationName db.tables) :
    ∃ result, (transact r.register db).1 = .ok result := by
  obtain ⟨-, hkept⟩ | ⟨hnot, -⟩ := register_follows r db
  · simp only [Kept, hguard] at hkept
    obtain ⟨result, tables, -, -, hrun⟩ := hkept
    exact ⟨result, congrArg Prod.fst (transact_ok hrun)⟩
  · exact absurd hcond hnot

theorem succeeds_iff : Succeeds r db ↔ (Free r db ∧ Unheld r db) ∧ Storable r db := by
  obtain ⟨entry, hentry, hrow⟩ := owed_entry r db
  have hclose : ∀ tables, (owed r db.tables).close r.ctx { db with tables } =
      logged r.ctx entry { db with tables } := by
    intro tables
    rw [close, hentry]
  rw [free_and_unheld_iff]
  constructor
  · rintro ⟨⟨result, hok⟩, org, user, -, horgs, -⟩
    obtain ⟨⟨-, -, hvalues⟩, hguard, tables, -, hfits, hafter⟩ := of_returns hok
    obtain ⟨husersOf, horgsOf⟩ := owed_guard_iff.1 hguard
    obtain ⟨hname, henroll⟩ := (hvalues husersOf).2 horgsOf
    rw [hafter, hclose] at horgs
    refine ⟨⟨husersOf, horgsOf⟩, hname, henroll, (hrow (hfits entry hentry)).1 ?_⟩
    -- a refused audit row would have taken the organization with it
    by_contra hrefused
    rw [logged, if_neg hrefused, commit_aborted] at horgs
    simp at horgs
  · rintro ⟨⟨husersOf, horgsOf⟩, hname, henroll, haudit⟩
    obtain ⟨hashedPassword, hhash, hemail, hrest⟩ := henroll
    have hcond : Registrable r.ctx r.email r.password r.fullName r.organizationName db.tables := by
      refine ⟨(Bool.and_eq_true_iff.1 hemail).2, by simp [husersOf], fun _ => ⟨?_, fun _ => ?_⟩⟩
      · exact (congrArg List.length horgsOf).trans_le (Nat.zero_le 1)
      · exact ⟨hname, hashedPassword, hhash, hemail, hrest⟩
    obtain ⟨result, hok⟩ := returns_of_unheld (owed_guard_iff.2 ⟨husersOf, horgsOf⟩) hcond
    obtain ⟨-, -, tables, hchange, hfits, hafter⟩ := of_returns hok
    refine ⟨⟨result, hok⟩, ?_⟩
    rw [hafter, hclose, logged, if_pos ((hrow (hfits entry hentry)).2 haudit), commit_open]
    exact rows_of_change hchange

/-- A transaction that is open alone. -/
def lone (db : Database) (r : Registration) (stage : Stage) : State := ⟨db, [⟨0, r, stage⟩], []⟩

@[simp]
theorem find_lone (stage : Stage) : (lone db r stage).find 0 = some ⟨0, r, stage⟩ := rfl

@[simp]
theorem others_lone (stage : Stage) : (lone db r stage).others 0 = [] := rfl

/-- The two ways in which a registration that is alone ends. -/
def EndsAlone (r : Registration) (db after : Database) : Prop :=
  (∃ org user, Exec step free (start db) ⟨after, [], [.registered r org user]⟩) ∨
    (after = db ∧ Exec step free (start db) ⟨db, [], [.failed r]⟩)

theorem refuseIfFound_cases {ρ : Type} (value : String) (rows : Tables → List ρ) (e : PyException)
    (db : Database) :
    (∀ {α : Type} (rest : Service α), (refuseIfFound value rows e rest).run { state := db } =
      rest.run { state := db }) ∨
    ∃ e' t, ∀ {α : Type} (rest : Service α),
      (refuseIfFound value rows e rest).run { state := db } = (.error e', t) := by
  cases hvalue : textStorable value with
  | false =>
    refine .inr ⟨invalidEncoding, { state := db, aborted := true }, fun rest => ?_⟩
    rw [refuseIfFound, run_bind_error (run_selectByText_nul hvalue rows db)]
  | true =>
    have hselect := (run_selectByText hvalue rows db).trans (run_selectOne rows db)
    cases hfound : scalarOneOrNone (rows db.tables) with
    | error e' =>
      rw [hfound] at hselect
      exact .inr ⟨e', { state := db }, fun rest => by rw [refuseIfFound, run_bind_error hselect]⟩
    | ok found =>
      rw [hfound] at hselect
      cases found with
      | none => exact .inl fun rest => by rw [refuseIfFound, run_bind_ok hselect]
      | some row =>
        exact .inr ⟨e, { state := db }, fun rest => by rw [refuseIfFound, run_bind_ok hselect, run_raise]⟩

theorem step_flushUser_lone (db : Database) (org : Organization) {hashedPassword : String}
    (hhash : r.ctx.hashPassword r.password = .ok hashedPassword) (id : UUID) :
    step (lone db r (.flushed org)) (.flushUser 0 id) =
      some ((lone db r (.flushed org)).advance ⟨0, r, .flushed org⟩
        (.enrolled org (r.user hashedPassword id org))
        ((r.write org (r.user hashedPassword id org)).run { state := db }).1) := by
  simp only [step, find_lone, hhash, others_lone]
  rfl

theorem alone_enrolled {org : Organization} {user user' : User} {t : Transaction Database}
    (h : Exec step free (start db) (lone db r (.enrolled org user)))
    (hwrite : (r.write org user).run { state := db } = (.ok user', t)) :
    EndsAlone r db (commit db t) := by
  have hcommit : step (lone db r (.enrolled org user)) (.commit 0) =
      some (if t.aborted then (lone db r (.enrolled org user)).fail ⟨0, r, .enrolled org user⟩
        else (lone db r (.enrolled org user)).finish 0 t.state (.registered r org user)) := by
    change (match (r.write org user).run { state := db } with
      | (.ok _, t) => if t.aborted then _ else _
      | (.error _, _) => _) = _
    rw [hwrite]
    exact (apply_ite some _ _ _).symm
  have hended := h.tail trivial hcommit
  unfold commit
  cases haborted : t.aborted with
  | true =>
    rw [haborted] at hended
    exact .inr ⟨rfl, hended⟩
  | false =>
    rw [haborted] at hended
    exact .inl ⟨org, user, hended⟩

theorem run_enroll (org : Organization) {hashedPassword : String}
    (hhash : r.ctx.hashPassword r.password = .ok hashedPassword) (db : Database) :
    ∃ userId, (enroll r.ctx r.email r.password r.fullName org r.ip).run { state := db } =
      (storeRow r.ctx "CREATE" (userReport (r.user hashedPassword userId org) r.ip)
        (r.user hashedPassword userId org) >>= fun user => pure (user, org)).run { state := db } := by
  refine ⟨(table db.tables : Table User).freshKey, ?_⟩
  rw [enroll, run_bind_ok (run_external_ok hhash _), run_bind_ok (run_newKey _)]
  rfl

/-- The second half, from the flush of the organization on. -/
theorem alone_flushed {org : Organization} {mid : Tables}
    (h : Exec step free (start db) (lone db r (.flushed org)))
    (hmid : insertRow org db.tables = .ok mid) {m : Service (User × Organization)}
    (hm : m.run { state := db } = (enroll r.ctx r.email r.password r.fullName org r.ip).run
      { state := { db with tables := mid } }) : EndsAlone r db (transact m db).2 := by
  cases hhash : r.ctx.hashPassword r.password with
  | error message =>
    rw [enroll, run_bind_error (run_external_error hhash _)] at hm
    rw [transact_error hm]
    refine .inr ⟨rfl, h.tail (a := .flushUser 0 0) trivial ?_⟩
    simp only [step, find_lone, hhash]
    rfl
  | ok hashedPassword =>
    obtain ⟨userId, henroll⟩ := run_enroll org hhash { db with tables := mid }
    rw [henroll] at hm
    have hflush := step_flushUser_lone db org hhash userId
    cases huser : insertRow (r.user hashedPassword userId org) mid with
    | error e =>
      have hstore := run_storeRow_error r.ctx { db with tables := mid } "CREATE"
        (userReport (r.user hashedPassword userId org) r.ip) _ huser
      rw [run_bind_error hstore] at hm
      rw [transact_error hm]
      refine .inr ⟨rfl, h.tail (a := .flushUser 0 userId) trivial ?_⟩
      rw [hflush, run_write_error hmid huser]
      rfl
    | ok after =>
      have hstore := run_storeRow r.ctx { db with tables := mid }
        (userReport (r.user hashedPassword userId org) r.ip) _ ofName_create huser
      rw [run_bind_ok hstore, run_pure] at hm
      rw [transact_ok hm]
      have hwrite := run_write (r := r) hmid huser
      have henrolled : Exec step free (start db)
          (lone db r (.enrolled org (r.user hashedPassword userId org))) := by
        refine h.tail (a := .flushUser 0 userId) trivial ?_
        rw [hflush, hwrite]
        rfl
      exact alone_enrolled henrolled hwrite

/-- A registration by itself is a run of the transactions in which no other one is open. -/
theorem alone (r : Registration) (db : Database) : EndsAlone r db (transact r.register db).2 := by
  have hregister : r.register = refuseIfFound r.email (usersOf r.email) (emailTaken r.email)
      (refuseIfFound r.slug (organizationsOf r.slug) (organizationTaken r.organizationName) do
        let orgId ← newKey Organization
        flush (insertRow (r.organization orgId))
        enroll r.ctx r.email r.password r.fullName (r.organization orgId) r.ip) := rfl
  have hask : step (start db) (.lookUpUser 0 r) = some ((start db).advance ⟨0, r, .asked⟩ .asked
      (r.askUser.run { state := db }).1) := rfl
  obtain hnone | ⟨e, t, hfound⟩ := refuseIfFound_cases r.email (usersOf r.email) (emailTaken r.email) db
  · rw [Registration.askUser, hnone, run_pure] at hask
    have hasked : Exec step free (start db) (lone db r .asked) := .single trivial hask
    have hclear : step (lone db r .asked) (.lookUpOrganization 0) =
        some ((lone db r .asked).advance ⟨0, r, .asked⟩ .cleared
          (r.askOrganization.run { state := db }).1) := rfl
    obtain hnone' | ⟨e, t, hfound⟩ :=
      refuseIfFound_cases r.slug (organizationsOf r.slug) (organizationTaken r.organizationName) db
    · rw [Registration.askOrganization, hnone', run_pure] at hclear
      have hcleared : Exec step free (start db) (lone db r .cleared) := hasked.tail trivial hclear
      have hinsert : ∀ id, step (lone db r .cleared) (.flushOrganization 0 id) =
          some ((lone db r .cleared).advance ⟨0, r, .cleared⟩ (.flushed (r.organization id))
            ((flush (insertRow (r.organization id))).run { state := db }).1) := fun _ => rfl
      have hrun : ∃ id, r.register.run { state := db } = (flush (insertRow (r.organization id)) >>=
          fun _ => enroll r.ctx r.email r.password r.fullName (r.organization id) r.ip).run
            { state := db } := by
        rw [hregister, hnone, hnone', run_bind_ok (run_newKey _)]
        exact ⟨_, rfl⟩
      obtain ⟨id, hrun⟩ := hrun
      cases hmid : insertRow (r.organization id) db.tables with
      | error e =>
        rw [run_bind_error (run_flush_error hmid)] at hrun
        rw [transact_error hrun]
        refine .inr ⟨rfl, hcleared.tail (a := .flushOrganization 0 id) trivial ?_⟩
        rw [hinsert, run_flush_error hmid]
        rfl
      | ok mid =>
        rw [run_bind_ok (run_flush_ok hmid)] at hrun
        refine alone_flushed (hcleared.tail (a := .flushOrganization 0 id) trivial ?_) hmid hrun
        rw [hinsert, run_flush_ok hmid]
        rfl
    · rw [Registration.askOrganization, hfound] at hclear
      have hrun : r.register.run { state := db } = (.error e, t) := by rw [hregister, hnone, hfound]
      rw [transact_error hrun]
      exact .inr ⟨rfl, hasked.tail trivial hclear⟩
  · rw [Registration.askUser, hfound] at hask
    have hrun : r.register.run { state := db } = (.error e, t) := by rw [hregister, hfound]
    rw [transact_error hrun]
    exact .inr ⟨rfl, .single trivial hask⟩

/-- Alone, a registration succeeds when its transaction commits both rows. -/
theorem succeeds_iff_registered : Succeeds r db ↔ ∃ org user,
    Exec step free (start db) ⟨(transact r.register db).2, [], [.registered r org user]⟩ := by
  constructor
  · rintro ⟨-, org, user, -, horgs, -⟩
    obtain hregistered | ⟨hafter, -⟩ := alone r db
    · exact hregistered
    · rw [hafter] at horgs
      simp at horgs
  · rintro ⟨org, user, hexec⟩
    have hguaranteed := guaranteed_of_exec hexec
    have horgs := hguaranteed.organizations
    refine ⟨?_, org, user, hguaranteed.created r org user List.mem_cons_self, horgs, hguaranteed.users⟩
    cases hrun : r.register.run { state := db } with
    | mk result t =>
      cases result with
      | ok result => exact ⟨result, congrArg Prod.fst (transact_ok hrun)⟩
      | error e =>
        rw [transact_error hrun] at horgs
        simp [Outcome.organization] at horgs

end Alone

/-- What registrations promise: over any interleaving, and for one that is alone. -/
def Promised (r : Registration) (db : Database) : Prop :=
  (∀ s, Exec step free (start db) s → Guaranteed db s) ∧ (Succeeds r db ↔ Free r db)

/-- Every interleaving keeps the rows unique and the inserts together. A registration by itself
succeeds on a free address and slug exactly where no soft-deleted row has them and its
values can be stored. -/
theorem promised_iff (r : Registration) (db : Database) :
    Promised r db ↔ (Free r db → Unheld r db ∧ Storable r db) := by
  have hruns : ∀ s, Exec step free (start db) s → Guaranteed db s := fun s h => guaranteed_of_exec h
  rw [Promised, and_iff_right hruns, succeeds_iff, and_assoc, and_iff_left_iff_imp]

section Sample

open EvalEngine.ServiceRequests

/-- The founder's account is deleted softly. -/
def departed : Database :=
  { Database.created with
    tables := { Tables.empty with
      organizations := ⟨[{ id := 1, name := "Startup One", slug := "startup-one" }], by decide⟩
      users := ⟨[{ id := 1, email := "founder@startup.io", hashedPassword := "$2b$12$", fullName := "Founder",
                   organizationId := 1, deletedAt := some 0 }], by decide⟩ } }

def comeback : Registration where
  ctx := sampleContext
  email := "founder@startup.io"
  password := "correct horse"
  fullName := "Founder"
  organizationName := "Startup Two"
  ip := none

/-- The address of a deleted account can not be registered again. -/
theorem comeback_refused : ¬ ∀ r db, Promised r db := by
  intro h
  have hfree : Free comeback departed := by
    refine ⟨?_, ?_⟩
    · decide
    · decide +kernel
  obtain ⟨⟨result, hok⟩, -⟩ := (h comeback departed).2.2 hfree
  have hraised : ((transact comeback.register departed).1.isOk) = false := by decide +kernel
  rw [hok] at hraised
  cases hraised

end Sample

end EvalEngine.RegisterUser
