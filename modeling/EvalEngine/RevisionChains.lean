import EvalEngine.Catalogs
import Mathlib.Order.Lattice

namespace EvalEngine.RevisionChains

open EvalEngine.Catalogs

variable {α β : Type} [DecidableEq α]

structure Revision (α β : Type) where
  upgrade : List (Statement α β)
  downgrade : List (Statement α β)

/-- The objects of a database, and how many revisions of the chain it has recorded. -/
structure Database (α β : Type) where
  entries : List (Entry α β)
  applied : ℕ

inductive Command
  | upgrade (target : ℕ)
  | downgrade (target : ℕ)

section Commands

variable (chain : List (Revision α β))

def upgrades (source target : ℕ) : List (Statement α β) :=
  ((chain.take target).drop source).flatMap Revision.upgrade

def downgrades (source target : ℕ) : List (Statement α β) :=
  ((chain.take source).drop target).reverse.flatMap Revision.downgrade

/-- What the first revisions make of an empty database. -/
def schemaOf (n : ℕ) : List (Entry α β) := (run [] (upgrades chain 0 n)).getD []

/-- All the scripts of a command run in one transaction. -/
def execute (db : Database α β) : Command → Option (Database α β)
  | .upgrade target =>
    if chain.length < target then none
    else if target ≤ db.applied then some db
    else (run db.entries (upgrades chain db.applied target)).map fun entries => ⟨entries, target⟩
  | .downgrade target =>
    if db.applied < target then none
    else (run db.entries (downgrades chain db.applied target)).map fun entries => ⟨entries, target⟩

/-- A command that fails is rolled back. -/
def attempt (db : Database α β) (c : Command) : Database α β := (execute chain db c).getD db

def attempts (db : Database α β) (commands : List Command) : Database α β := commands.foldl (attempt chain) db

end Commands

/-- What the scripts of a chain do to an empty database: `schema n` is what the
first `n` revisions leave, and some of them can be taken back. -/
structure Tracks (ours : α → Bool) (chain : List (Revision α β)) (schema : ℕ → List (Entry α β))
    (revertible : ℕ → Bool) : Prop where
  own : ∀ n, Own ours (schema n)
  within : ∀ rev ∈ chain, Within ours (rev.upgrade ++ rev.downgrade)
  up : ∀ i rev, chain[i]? = some rev → run (schema i) rev.upgrade = some (schema (i + 1))
  down : ∀ i rev, chain[i]? = some rev →
    run (schema (i + 1)) rev.downgrade = if revertible i then some (schema i) else none

/-- A database with foreign objects at a revision of the chain. -/
def revisionAt (base : List (Entry α β)) (schema : ℕ → List (Entry α β)) (n : ℕ) : Database α β := ⟨schema n ++ base, n⟩

variable {ours : α → Bool} {chain : List (Revision α β)} {schema : ℕ → List (Entry α β)} {revertible : ℕ → Bool}
  {base : List (Entry α β)} {n source target : ℕ}

omit [DecidableEq α] in
theorem slice_succ (hs : source ≤ n) {rev : Revision α β} (hrev : chain[n]? = some rev) :
    (chain.take (n + 1)).drop source = (chain.take n).drop source ++ [rev] := by
  obtain ⟨hn, hget⟩ := List.getElem?_eq_some_iff.1 hrev
  rw [List.take_add_one, hrev, List.drop_append_of_le_length]
  · rfl
  · rw [List.length_take_of_le (Nat.le_of_lt hn)]
    exact hs

omit [DecidableEq α] in
theorem upgrades_succ (hs : source ≤ n) {rev : Revision α β} (hrev : chain[n]? = some rev) :
    upgrades chain source (n + 1) = upgrades chain source n ++ rev.upgrade := by
  rw [upgrades, slice_succ hs hrev, List.flatMap_append, List.flatMap_singleton]
  rfl

omit [DecidableEq α] in
theorem downgrades_succ (ht : target ≤ n) {rev : Revision α β} (hrev : chain[n]? = some rev) :
    downgrades chain (n + 1) target = rev.downgrade ++ downgrades chain n target := by
  rw [downgrades, slice_succ ht hrev, List.reverse_append, List.reverse_singleton, List.flatMap_append,
    List.flatMap_singleton]
  rfl

omit [DecidableEq α] in
theorem upgrades_self : upgrades chain n n = [] := by
  simp [upgrades]

omit [DecidableEq α] in
theorem downgrades_self : downgrades chain n n = [] := by
  simp [downgrades]

omit [DecidableEq α] in
theorem exists_revision (hn : n + 1 ≤ chain.length) : ∃ rev, chain[n]? = some rev :=
  ⟨chain[n], List.getElem?_eq_getElem hn⟩

omit [DecidableEq α] in
theorem within_upgrades (h : ∀ rev ∈ chain, Within ours (rev.upgrade ++ rev.downgrade)) :
    Within ours (upgrades chain source target) := by
  intro st hst
  obtain ⟨rev, hrev, hmem⟩ := List.mem_flatMap.1 hst
  exact h rev (List.mem_of_mem_take (List.mem_of_mem_drop hrev)) st (List.mem_append_left _ hmem)

omit [DecidableEq α] in
theorem within_downgrades (h : ∀ rev ∈ chain, Within ours (rev.upgrade ++ rev.downgrade)) :
    Within ours (downgrades chain source target) := by
  intro st hst
  obtain ⟨rev, hrev, hmem⟩ := List.mem_flatMap.1 hst
  exact h rev (List.mem_of_mem_take (List.mem_of_mem_drop (List.mem_reverse.1 hrev))) st
    (List.mem_append_right _ hmem)

theorem schemaOf_eq (n : ℕ) (hup : (run [] (upgrades chain 0 chain.length)).isSome = true) :
    run [] (upgrades chain 0 n) = some (schemaOf chain n) := by
  have hsplit : upgrades chain 0 chain.length = upgrades chain 0 n ++ (chain.drop n).flatMap Revision.upgrade := by
    rw [upgrades, upgrades, List.take_length, List.drop_zero, List.drop_zero, ← List.flatMap_append,
      List.take_append_drop]
  rw [hsplit, run_append] at hup
  cases hrun : run [] (upgrades chain 0 n) with
  | none =>
    rw [hrun] at hup
    cases hup
  | some entries =>
    rw [schemaOf, hrun]
    rfl

/-- It is enough to run the chain up once, and each revision down once. -/
theorem tracks_schemaOf (hwithin : ∀ rev ∈ chain, Within ours (rev.upgrade ++ rev.downgrade))
    (hup : (run [] (upgrades chain 0 chain.length)).isSome = true)
    (hdown : ∀ i rev, chain[i]? = some rev → run (schemaOf chain (i + 1)) rev.downgrade =
      if revertible i then some (schemaOf chain i) else none) :
    Tracks ours chain (schemaOf chain) revertible where
  own n := by
    rw [schemaOf]
    cases hrun : run [] (upgrades chain 0 n) with
    | none => exact fun e he => absurd he List.not_mem_nil
    | some entries =>
      have hempty : Own ours ([] : List (Entry α β)) := fun e he => absurd he List.not_mem_nil
      exact hempty.run (within_upgrades hwithin) hrun
  within := hwithin
  up i rev hrev := by
    have hnext := schemaOf_eq (i + 1) hup
    rw [upgrades_succ (Nat.zero_le i) hrev, run_append, schemaOf_eq i hup] at hnext
    exact hnext
  down := hdown

theorem run_upgrades (h : Tracks ours chain schema revertible) (hle : source ≤ target)
    (htarget : target ≤ chain.length) : run (schema source) (upgrades chain source target) = some (schema target) := by
  induction target, hle using Nat.le_induction with
  | base =>
    rw [upgrades_self]
    rfl
  | succ n hle ih =>
    obtain ⟨rev, hrev⟩ := exists_revision htarget
    rw [upgrades_succ hle hrev, run_append, ih (Nat.le_of_succ_le htarget)]
    exact h.up n rev hrev

theorem run_downgrades (h : Tracks ours chain schema revertible) (hle : target ≤ source)
    (hsource : source ≤ chain.length) (hall : ∀ i, target ≤ i → i < source → revertible i = true) :
    run (schema source) (downgrades chain source target) = some (schema target) := by
  induction source, hle using Nat.le_induction with
  | base =>
    rw [downgrades_self]
    rfl
  | succ n hle ih =>
    obtain ⟨rev, hrev⟩ := exists_revision hsource
    rw [downgrades_succ hle hrev, run_append, h.down n rev hrev, if_pos (hall n hle (Nat.lt_succ_self n))]
    exact ih (Nat.le_of_succ_le hsource) fun i hi hlt => hall i hi (Nat.lt_succ_of_lt hlt)

theorem run_downgrades_stuck (h : Tracks ours chain schema revertible) (hsource : source ≤ chain.length) {i : ℕ}
    (hi : target ≤ i) (hlt : i < source) (hstuck : revertible i = false) :
    run (schema source) (downgrades chain source target) = none := by
  induction source, hlt using Nat.le_induction with
  | base =>
    obtain ⟨rev, hrev⟩ := exists_revision hsource
    rw [downgrades_succ hi hrev, run_append, h.down i rev hrev, hstuck]
    rfl
  | succ n hle ih =>
    obtain ⟨rev, hrev⟩ := exists_revision hsource
    have hn : target ≤ n := hi.trans (Nat.le_of_succ_le hle)
    rw [downgrades_succ hn hrev, run_append, h.down n rev hrev]
    split
    · exact ih (Nat.le_of_succ_le hsource)
    · rfl

theorem attempt_failed {db : Database α β} {c : Command} (hnone : execute chain db c = none) :
    attempt chain db c = db := by
  rw [attempt, hnone]
  rfl

section Beside

variable (h : Tracks ours chain schema revertible) (hbase : Foreign ours base)
include h hbase

theorem execute_upgrade (htarget : target ≤ chain.length) :
    execute chain (revisionAt base schema n) (.upgrade target) = some (revisionAt base schema (max n target)) := by
  rw [execute, if_neg (Nat.not_lt.2 htarget)]
  split
  · rename_i hle
    have hmax : max n target = n := max_eq_left hle
    rw [hmax]
  · rename_i hlt
    have hle : n ≤ target := Nat.le_of_lt (Nat.lt_of_not_le hlt)
    have hrun : run (schema n ++ base) (upgrades chain n target) = some (schema target ++ base) := by
      rw [run_frame hbase (h.own n) (within_upgrades h.within), run_upgrades h hle htarget]
      rfl
    rw [max_eq_right hle, revisionAt, hrun]
    rfl

theorem execute_downgrade (hn : n ≤ chain.length) (htarget : target ≤ n)
    (hall : ∀ i, target ≤ i → i < n → revertible i = true) :
    execute chain (revisionAt base schema n) (.downgrade target) = some (revisionAt base schema target) := by
  have hrun : run (schema n ++ base) (downgrades chain n target) = some (schema target ++ base) := by
    rw [run_frame hbase (h.own n) (within_downgrades h.within), run_downgrades h htarget hn hall]
    rfl
  rw [execute, revisionAt, if_neg (Nat.not_lt.2 htarget), hrun]
  rfl

theorem execute_downgrade_stuck (hn : n ≤ chain.length) {i : ℕ} (hi : target ≤ i) (hlt : i < n)
    (hstuck : revertible i = false) : execute chain (revisionAt base schema n) (.downgrade target) = none := by
  have hrun : run (schema n ++ base) (downgrades chain n target) = none := by
    rw [run_frame hbase (h.own n) (within_downgrades h.within), run_downgrades_stuck h hn hi hlt hstuck]
    rfl
  rw [execute, revisionAt, hrun]
  split <;> rfl

/-- A command leads from revision to revision, and never to one below a revision
that cannot be taken back. -/
theorem attempt_tracked (hn : n ≤ chain.length) (c : Command) :
    ∃ m ≤ chain.length, attempt chain (revisionAt base schema n) c = revisionAt base schema m ∧
      ∀ i < n, revertible i = false → i < m := by
  cases c with
  | upgrade target =>
    by_cases htarget : target ≤ chain.length
    · refine ⟨max n target, max_le hn htarget, ?_, fun i hi _ => hi.trans_le (le_max_left n target)⟩
      rw [attempt, execute_upgrade h hbase htarget]
      rfl
    · refine ⟨n, hn, attempt_failed ?_, fun i hi _ => hi⟩
      rw [execute, if_pos (Nat.lt_of_not_le htarget)]
  | downgrade target =>
    by_cases htarget : target ≤ n
    · by_cases hall : ∀ i, target ≤ i → i < n → revertible i = true
      · refine ⟨target, htarget.trans hn, ?_, ?_⟩
        · rw [attempt, execute_downgrade h hbase hn htarget hall]
          rfl
        · intro i hi hstuck
          by_contra hle
          rw [hall i (Nat.le_of_not_lt hle) hi] at hstuck
          cases hstuck
      · push Not at hall
        obtain ⟨i, hi, hlt, hstuck⟩ := hall
        have hnone := execute_downgrade_stuck h hbase hn hi hlt (Bool.eq_false_iff.2 hstuck)
        exact ⟨n, hn, attempt_failed hnone, fun i hi _ => hi⟩
    · refine ⟨n, hn, attempt_failed ?_, fun i hi _ => hi⟩
      rw [execute, revisionAt, if_pos (Nat.lt_of_not_le htarget)]

theorem attempts_tracked (hn : n ≤ chain.length) (commands : List Command) :
    ∃ m ≤ chain.length, attempts chain (revisionAt base schema n) commands = revisionAt base schema m ∧
      ∀ i < n, revertible i = false → i < m := by
  induction commands generalizing n with
  | nil => exact ⟨n, hn, rfl, fun i hi _ => hi⟩
  | cons c commands ih =>
    obtain ⟨m, hm, hattempt, hstay⟩ := attempt_tracked h hbase hn c
    obtain ⟨m', hm', hattempts, hstay'⟩ := ih hm
    refine ⟨m', hm', ?_, fun i hi hstuck => hstay' i (hstay i hi hstuck) hstuck⟩
    rw [attempts, List.foldl_cons, hattempt]
    exact hattempts

end Beside

end EvalEngine.RevisionChains
