import EvalEngine.ConstrainedTables
import Mathlib.Data.List.Perm.Subperm

namespace EvalEngine.UncommittedRows

open EvalEngine.ConstrainedTables
open Entity

variable {ρ α : Type} [Entity ρ] {rows rows' committed flying : List ρ} {row : ρ}

/-- Two rows that the unique indexes do not take together. -/
def clashes (row other : ρ) : Bool :=
  decide (key row = key other) || (indexed row).any (fun v => decide (indexed other = some v))

theorem clashes_eq_false {row other : ρ} :
    clashes row other = false ↔
      key row ≠ key other ∧ ∀ v, indexed row = some v → ∀ w, indexed other = some w → v ≠ w := by
  simp only [clashes, Bool.or_eq_false_iff, decide_eq_false_iff_not, Option.any_eq_false]
  refine and_congr_right fun _ => forall₂_congr fun v _ => ?_
  constructor
  · rintro h w hw rfl
    exact h hw
  · intro h hv
    exact h v hv rfl

theorem clashes_symm {row other : ρ} (h : clashes row other = false) : clashes other row = false := by
  rw [clashes_eq_false] at h ⊢
  exact ⟨h.1.symm, fun v hv w hw => (h.2 w hw v hv).symm⟩

theorem valid_iff_pairwise : Valid rows ↔
    rows.Pairwise (fun row other => clashes row other = false) ∧ ∀ row ∈ rows, fits row = true := by
  rw [Valid, List.Nodup, List.pairwise_map, List.Nodup, List.pairwise_filterMap, ← and_assoc,
    ← List.pairwise_and_iff]
  simp only [clashes_eq_false]

/-- Rows that are allowed together stay so when some of them go. -/
theorem valid_of_subperm (h : rows'.Subperm rows) (hvalid : Valid rows) : Valid rows' := by
  rw [valid_iff_pairwise] at hvalid ⊢
  obtain ⟨hpair, hfits⟩ := hvalid
  refine ⟨?_, fun row hrow => hfits row (h.subset hrow)⟩
  obtain ⟨mid, hperm, hsub⟩ := h
  exact (hpair.sublist hsub).perm hperm fun hclash => clashes_symm hclash

/-- The INSERT of a row: the index compares it with the committed rows, and it has
waited for those of the open transactions. -/
theorem valid_insert (hall : Valid (committed ++ flying)) (hrow : Valid (committed ++ [row]))
    (hwaited : ∀ other ∈ flying, clashes row other = false) : Valid (committed ++ row :: flying) := by
  rw [valid_iff_pairwise] at hall hrow ⊢
  obtain ⟨hpair, hfits⟩ := hall
  obtain ⟨hcommitted, hflying, hacross⟩ := List.pairwise_append.1 hpair
  obtain ⟨-, -, hnew⟩ := List.pairwise_append.1 hrow.1
  refine ⟨List.pairwise_append.2 ⟨hcommitted, List.pairwise_cons.2 ⟨hwaited, hflying⟩, ?_⟩, ?_⟩
  · intro r hr other hother
    obtain rfl | hother := List.mem_cons.1 hother
    · exact hnew r hr other List.mem_cons_self
    · exact hacross r hr other hother
  · intro r hr
    obtain hr | hr := List.mem_append.1 hr
    · exact hfits r (List.mem_append_left _ hr)
    · obtain rfl | hr := List.mem_cons.1 hr
      · exact hrow.2 r (List.mem_append_right _ List.mem_cons_self)
      · exact hfits r (List.mem_append_right _ hr)

omit [Entity ρ] in
/-- What a search finds, beside what it passes over. -/
theorem subperm_of_find {p : α → Bool} {xs : List α} {x : α} (h : xs.find? p = some x) :
    (x :: xs.filter (fun y => !p y)).Subperm xs := by
  obtain ⟨hx, as, bs, rfl, -⟩ := List.find?_eq_some_iff_append.1 h
  have hfilter : (as ++ x :: bs).filter (fun y => !p y) = (as ++ bs).filter (fun y => !p y) := by
    simp [List.filter_append, hx]
  rw [hfilter]
  exact ((List.subperm_cons x).2 List.filter_sublist.subperm).trans List.perm_middle.symm.subperm

omit [Entity ρ] in
theorem subperm_filterMap {xs ys : List α} (f : α → Option ρ) (h : xs.Subperm ys) :
    (xs.filterMap f).Subperm (ys.filterMap f) := by
  obtain ⟨mid, hperm, hsub⟩ := h
  exact ⟨mid.filterMap f, hperm.filterMap f, hsub.filterMap f⟩

end EvalEngine.UncommittedRows
