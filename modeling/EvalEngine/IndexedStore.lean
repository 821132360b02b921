import Mathlib.Data.List.Nodup
import Mathlib.Logic.Function.Basic

namespace EvalEngine.IndexedStore

variable {K V : Type} [DecidableEq K]

/-- Values under keys, and beside them a list of the keys. -/
structure Store (K V : Type) where
  values : K → Option V
  index : List K

/-- The values found under the first `n` keys of the list. -/
def Store.window (n : ℕ) (s : Store K V) : List V := (s.index.take n).filterMap s.values

/-- A key is listed once if there is a value under it, and not at all otherwise. -/
structure Store.Mirrored (s : Store K V) : Prop where
  nodup : s.index.Nodup
  mem_index : ∀ k, k ∈ s.index ↔ (s.values k).isSome = true

def Store.put (k : K) (v : V) (s : Store K V) : Store K V :=
  ⟨Function.update s.values k (some v), k :: s.index⟩

def Store.drop (k : K) (s : Store K V) : Store K V :=
  ⟨Function.update s.values k none, s.index.erase k⟩

variable {s : Store K V} {k : K} {v : V}

omit [DecidableEq K] in
theorem mirrored_empty : Store.Mirrored (⟨fun _ => none, []⟩ : Store K V) := by
  constructor
  · exact List.nodup_nil
  · intro k
    simp

theorem Store.Mirrored.put (h : s.Mirrored) (hk : k ∉ s.index) (v : V) : (s.put k v).Mirrored := by
  constructor
  · exact List.nodup_cons.2 ⟨hk, h.nodup⟩
  · intro k'
    by_cases hsame : k' = k
    · simp [Store.put, hsame]
    · simp [Store.put, hsame, h.mem_index]

theorem Store.Mirrored.drop (h : s.Mirrored) (k : K) : (s.drop k).Mirrored := by
  constructor
  · exact h.nodup.erase k
  · intro k'
    by_cases hsame : k' = k
    · simp [Store.drop, hsame, h.nodup.not_mem_erase]
    · simp [Store.drop, hsame, h.nodup.mem_erase_iff, h.mem_index]

omit [DecidableEq K] in
/-- What the window shows, by a label of the values: the labels of the keys. -/
theorem map_filterMap_eq {A : Type} {keyOf : A → K} {label : V → A} {values : K → Option V}
    {labels : List A} (h : ∀ a ∈ labels, ∃ v, values (keyOf a) = some v ∧ label v = a) :
    ((labels.map keyOf).filterMap values).map label = labels := by
  induction labels with
  | nil => rfl
  | cons a labels ih =>
    obtain ⟨v, hv, hlabel⟩ := h a List.mem_cons_self
    have htail := ih fun b hb => h b (List.mem_cons_of_mem _ hb)
    rw [List.map_cons, List.filterMap_cons_some hv, List.map_cons, hlabel, htail]

/-- Keys that are all different are erased as their labels are. -/
theorem erase_map {A : Type} [BEq A] [LawfulBEq A] {keyOf : A → K} {labels : List A}
    (h : (labels.map keyOf).Nodup) {a : A} (ha : a ∈ labels) :
    (labels.map keyOf).erase (keyOf a) = (labels.erase a).map keyOf := by
  induction labels with
  | nil => cases ha
  | cons b labels ih =>
    rw [List.map_cons, List.nodup_cons] at h
    by_cases hsame : b = a
    · subst hsame
      rw [List.map_cons, List.erase_cons_head, List.erase_cons_head]
    · have hmem : a ∈ labels := (List.mem_cons.1 ha).resolve_left fun hab => hsame hab.symm
      have hkey : keyOf b ≠ keyOf a := fun heq => h.1 (heq ▸ List.mem_map_of_mem hmem)
      rw [List.map_cons, List.erase_cons_tail (by simpa using hkey),
        List.erase_cons_tail (by simpa using hsame), List.map_cons, ih h.2 hmem]

/-- A key that is put while it is listed is shown twice. -/
theorem Store.window_put_of_mem (hk : k ∈ s.index) (v : V) :
    ∃ before after, (s.put k v).window (s.index.length + 1) = v :: (before ++ v :: after) := by
  obtain ⟨xs, ys, hsplit⟩ := List.append_of_mem hk
  have hall : (s.put k v).index.take (s.index.length + 1) = k :: (xs ++ k :: ys) := by
    rw [Store.put, hsplit, List.take_of_length_le]
    simp
  have hself : (s.put k v).values k = some v := Function.update_self _ _ _
  refine ⟨xs.filterMap (s.put k v).values, ys.filterMap (s.put k v).values, ?_⟩
  rw [Store.window, hall, List.filterMap_cons_some hself, List.filterMap_append,
    List.filterMap_cons_some hself]

end EvalEngine.IndexedStore
