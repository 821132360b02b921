import EvalEngine.CacheAside
import EvalEngine.Exceptions
import Mathlib.Data.List.Dedup

namespace EvalEngine.SubmissionCache

open EvalEngine.JsonValues EvalEngine.Exceptions EvalEngine.Transitions EvalEngine.CacheAside

/-- The arguments of `get_cached_submissions`. -/
structure Call where
  orgId : UUID
  cursor : Option String := none
  limit : Int := 20
  filters : Dict := []

/-- `cursor or "start"`. -/
def curKey (cursor : Option String) : String := (cursor.filter (· != "")).getD "start"

def keyPrefix (orgId : UUID) : String := "submissions:" ++ uuidText orgId ++ ":"

/-- `submissions:{org_id}:{cursor}:{filters_hash}`. -/
def cacheKey (filtersHash : Dict → String) (call : Call) : String :=
  keyPrefix call.orgId ++ (curKey call.cursor ++ ":" ++ filtersHash call.filters)

/-- The pattern `submissions:{org_id}:*`. The text before the star has no
other wildcard. -/
def matchesPattern (orgId : UUID) (key : String) : Bool :=
  (keyPrefix orgId).toList.isPrefixOf key.toList

/-- The mutations of the repository: the organizations of the new rows, or that
of the live row that `soft_delete` looks for, if there is one. -/
inductive Mutation
  | create (organizationId : UUID)
  | createMany (organizationIds : List UUID)
  | softDelete (row : Option UUID) (orgId : Option UUID)

namespace Mutation

/-- The organization of the row that is deleted. -/
def deleted (row orgId : Option UUID) : Option UUID :=
  row.filter fun organizationId => orgId.all fun orgId => decide (organizationId = orgId)

def touched : Mutation → List UUID
  | .create organizationId => [organizationId]
  | .createMany organizationIds => organizationIds
  | .softDelete row orgId => (deleted row orgId).toList

/-- The organizations whose pages are invalidated. -/
def targets : Mutation → List UUID
  | .create organizationId => [organizationId]
  | .createMany organizationIds => organizationIds.dedup
  | .softDelete row orgId => if (deleted row orgId).isSome then orgId.toList else []

end Mutation

theorem matchesPattern_cacheKey (filtersHash : Dict → String) (call : Call) :
    matchesPattern call.orgId (cacheKey filtersHash call) = true := by
  rw [matchesPattern, cacheKey, String.toList_append, List.isPrefixOf_iff_prefix]
  exact List.prefix_append _ _

variable {δ π : Type}

/-- `list_paginated` takes no filters; it reads the committed rows, and the
hash of the filters is that of their JSON text. Whether a process can call these
functions at all is in `SubmissionModules`. -/
def protocol (listPaginated : δ → UUID → Option String → Int → π) (filtersHash : Dict → String) :
    Protocol Call String UUID δ π Mutation where
  key := cacheKey filtersHash
  group := Call.orgId
  covers := matchesPattern
  load rows call := listPaginated rows call.orgId call.cursor call.limit
  touched := Mutation.touched
  targets := Mutation.targets
  covers_key := matchesPattern_cacheKey filtersHash

variable (listPaginated : δ → UUID → Option String → Int → π) (filtersHash : Dict → String)

/-- In every run the cache answers a call with a page that was read for the same
organization, cursor, limit and filters, and after every mutation of the
organization that had committed when the call started. -/
def Transparent (ok : State Call String UUID δ π → Action Call String δ Mutation → Prop) : Prop :=
  ∀ rows s, Exec (step (protocol listPaginated filtersHash)) ok (start rows) s →
    ∀ a ∈ s.answers, a.entry.args = a.args ∧ a.since ≤ a.entry.epoch

/-- The calls have different keys where they differ, a deletion names the
organization, Redis carries every invalidation out, and a page is stored only
between the last commit and the next invalidation of its organization. -/
theorem transparent_of_timely :
    Transparent listPaginated filtersHash (Timely (protocol listPaginated filtersHash)) :=
  fun _ _ h a ha => answers_good h a ha

section Keys

variable {filtersHash}

theorem append_inj_of_length {p q r t : String} (hlength : p.length = q.length) :
    p ++ r = q ++ t ↔ p = q ∧ r = t := by
  constructor
  · intro h
    have hlists := congrArg String.toList h
    rw [String.toList_append, String.toList_append] at hlists
    obtain ⟨hp, hr⟩ := List.append_inj hlists (by rwa [String.length_toList, String.length_toList])
    exact ⟨String.toList_injective hp, String.toList_injective hr⟩
  · rintro ⟨rfl, rfl⟩
    rfl

theorem append_inj_of_length_right {p q r t : String} (hlength : r.length = t.length) :
    p ++ r = q ++ t ↔ p = q ∧ r = t := by
  constructor
  · intro h
    have hlists := congrArg String.toList h
    rw [String.toList_append, String.toList_append] at hlists
    obtain ⟨hp, hr⟩ := List.append_inj' hlists (by rwa [String.length_toList, String.length_toList])
    exact ⟨String.toList_injective hp, String.toList_injective hr⟩
  · rintro ⟨rfl, rfl⟩
    rfl

/-- What the key says of a call: neither the limit, nor whether the cursor is
missing, empty or `"start"`, nor more of the filters than the hash. -/
theorem cacheKey_eq_iff (hhash : ∀ filters, (filtersHash filters).length = 16) (a b : Call) :
    cacheKey filtersHash a = cacheKey filtersHash b ↔ uuidText a.orgId = uuidText b.orgId ∧
      curKey a.cursor = curKey b.cursor ∧ filtersHash a.filters = filtersHash b.filters := by
  have hlength : ∀ call : Call, (keyPrefix call.orgId).length = 49 := by
    intro call
    rw [keyPrefix, String.length_append, String.length_append, length_uuidText]
    rfl
  rw [cacheKey, cacheKey, append_inj_of_length ((hlength a).trans (hlength b).symm),
    append_inj_of_length_right ((hhash _).trans (hhash _).symm), String.append_left_inj, keyPrefix,
    keyPrefix, String.append_left_inj, String.append_right_inj]

/-- A mutation leaves pages behind exactly if it is a deletion that does not
name the organization. -/
theorem touched_subset_targets_iff (m : Mutation) :
    m.touched ⊆ m.targets ↔ ∀ row, m ≠ .softDelete (some row) none := by
  cases m with
  | create organizationId => simp [Mutation.touched, Mutation.targets]
  | createMany organizationIds =>
    simp only [Mutation.touched, Mutation.targets, ne_eq, reduceCtorEq, not_false_eq_true, implies_true,
      iff_true]
    exact fun g hg => List.mem_dedup.2 hg
  | softDelete row orgId =>
    cases row with
    | none => simp [Mutation.touched, Mutation.deleted]
    | some row =>
      cases orgId with
      | none => simp [Mutation.touched, Mutation.targets, Mutation.deleted]
      | some orgId =>
        by_cases h : row = orgId <;>
          simp [Mutation.touched, Mutation.targets, Mutation.deleted, Option.filter, h]

end Keys

section Sample

/-- `list_paginated` shows the number of the submissions, up to the limit. -/
def countListed (rows : ℕ) (_ : UUID) (_ : Option String) (limit : Int) : Int := min rows limit

def emptyHash : Dict → String := fun _ => "44136fa355b3678a"

/-- A submission of the organization 1 is created, and before its transaction
commits, a call caches the page without it; a later call gets that page. -/
def staleRefill : List (Action Call String ℕ Mutation) :=
  [.write 0 (.create 1), .scan 0, .finish 0,
    .ask 0 { orgId := 1 }, .miss 0, .load 0, .store 0,
    .commit 0 1,
    .ask 0 { orgId := 1 }, .hit 0]

/-- A call for ten submissions is answered with the page of a call for two. -/
def otherLimit : List (Action Call String ℕ Mutation) :=
  [.ask 0 { orgId := 1, limit := 2 }, .miss 0, .load 0, .store 0,
    .ask 0 { orgId := 1, limit := 10 }, .hit 0]

theorem cache_serves_stale :
    (∃ s, Exec (step (protocol countListed emptyHash)) free (start 0) s ∧
      ∃ a ∈ s.answers, ¬ a.since ≤ a.entry.epoch) ∧
    (∃ s, Exec (step (protocol countListed emptyHash)) free (start 5) s ∧
      ∃ a ∈ s.answers, a.args.limit = 10 ∧ a.entry.args.limit = 2) :=
  ⟨⟨_, exec_get _ _ staleRefill (by decide +kernel), _, List.mem_cons_self, by decide +kernel⟩,
    ⟨_, exec_get _ _ otherLimit (by decide +kernel), _, List.mem_cons_self, by decide +kernel⟩⟩

end Sample

end EvalEngine.SubmissionCache
