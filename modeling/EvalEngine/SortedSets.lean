import Mathlib.Data.Finset.Card
import Mathlib.Data.List.Nodup

namespace EvalEngine.SortedSets

variable {μ τ : Type*}

/-- Members with a score, at most one score for each member. -/
structure SortedSet (μ τ : Type*) where
  entries : List (μ × τ)
  nodup : (entries.map Prod.fst).Nodup

namespace SortedSet

def empty : SortedSet μ τ := ⟨[], List.nodup_nil⟩

def members [DecidableEq μ] (s : SortedSet μ τ) : Finset μ := (s.entries.map Prod.fst).toFinset

/-- ZCARD. -/
def card (s : SortedSet μ τ) : ℕ := s.entries.length

/-- ZREMRANGEBYSCORE with both ends included. -/
def removeRangeByScore [LinearOrder τ] (s : SortedSet μ τ) (lo hi : τ) : SortedSet μ τ where
  entries := s.entries.filter (fun e => ¬ (lo ≤ e.2 ∧ e.2 ≤ hi))
  nodup := s.nodup.sublist (List.filter_sublist.map Prod.fst)

theorem nodup_add [DecidableEq μ] (s : SortedSet μ τ) (m : μ) (t : τ) :
    (((m, t) :: s.entries.filter (fun e => e.1 ≠ m)).map Prod.fst).Nodup := by
  have hrest := s.nodup.sublist ((List.filter_sublist (p := fun e => e.1 ≠ m)).map Prod.fst)
  apply List.nodup_cons.2 ⟨?_, hrest⟩
  simp

/-- ZADD of one member: a member that is there gets the new score. -/
def add [DecidableEq μ] (s : SortedSet μ τ) (m : μ) (t : τ) : SortedSet μ τ where
  entries := (m, t) :: s.entries.filter (fun e => e.1 ≠ m)
  nodup := s.nodup_add m t

/-- The score that ZRANGE 0 0 gives, the least one. -/
def leastScore [LinearOrder τ] (s : SortedSet μ τ) : Option τ := (s.entries.map Prod.snd).min?

variable [DecidableEq μ]

theorem mem_members {s : SortedSet μ τ} {m : μ} : m ∈ s.members ↔ ∃ t, (m, t) ∈ s.entries := by
  simp [members]

theorem card_eq (s : SortedSet μ τ) : s.card = s.members.card := by
  rw [members, List.toFinset_card_of_nodup s.nodup, List.length_map, card]

@[simp]
theorem members_add (s : SortedSet μ τ) (m : μ) (t : τ) :
    (s.add m t).members = insert m s.members := by
  ext n
  by_cases h : n = m <;> simp [mem_members, add, h]

theorem mem_removeRangeByScore [LinearOrder τ] {s : SortedSet μ τ} {lo hi : τ} {m : μ} :
    m ∈ (s.removeRangeByScore lo hi).members ↔
      ∃ t, (m, t) ∈ s.entries ∧ ¬ (lo ≤ t ∧ t ≤ hi) := by
  simp only [mem_members, removeRangeByScore, List.mem_filter, decide_eq_true_eq]

end SortedSet

end EvalEngine.SortedSets
