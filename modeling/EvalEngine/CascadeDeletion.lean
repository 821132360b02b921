import Mathlib.Data.List.Basic

namespace EvalEngine.CascadeDeletion

/-- A row as a deletion sees it: its key, whether it has to go, and the keys
of the rows that take it along when they go. -/
structure Record (κ : Type) where
  key : κ
  expired : Bool
  parents : List κ

variable {κ : Type} {before mid after : List (Record κ)}

def keys (records : List (Record κ)) : List κ := records.map Record.key

theorem keys_subset (h : after ⊆ before) : keys after ⊆ keys before := by
  intro k hk
  obtain ⟨r, hr, rfl⟩ := List.mem_map.1 hk
  exact List.mem_map_of_mem (h hr)

/-- The row was expired, or a parent of it has gone from the database. -/
def Accounted (before after : List (Record κ)) (r : Record κ) : Prop :=
  r.expired = true ∨ ∃ p ∈ r.parents, p ∈ keys before ∧ p ∉ keys after

/-- One table of a database that becomes another: nothing is added, and what
is missing is accounted for. -/
structure Part (before after rows rows' : List (Record κ)) : Prop where
  subset : rows' ⊆ rows
  removed : ∀ r ∈ rows, r ∉ rows' → Accounted before after r

/-- A deletion removes what is expired and what a foreign key drags along. -/
def Spares (before after : List (Record κ)) : Prop := Part before after before after

theorem Part.refl (rows : List (Record κ)) : Part before after rows rows where
  subset := List.Subset.refl rows
  removed := fun _ hr hnot => absurd hr hnot

theorem Part.append {xs xs' ys ys' : List (Record κ)} (hx : Part before after xs xs')
    (hy : Part before after ys ys') : Part before after (xs ++ ys) (xs' ++ ys') where
  subset := List.append_subset.2 ⟨List.subset_append_of_subset_left _ hx.subset,
    List.subset_append_of_subset_right _ hy.subset⟩
  removed := by
    intro r hr hnot
    rw [List.mem_append, not_or] at hnot
    cases List.mem_append.1 hr with
    | inl hr => exact hx.removed r hr hnot.1
    | inr hr => exact hy.removed r hr hnot.2

theorem Spares.trans (h : Spares before mid) (k : Spares mid after) : Spares before after where
  subset := List.Subset.trans k.subset h.subset
  removed := by
    intro r hr hnot
    by_cases hmid : r ∈ mid
    · obtain hexpired | ⟨p, hp, hpmid, hpafter⟩ := k.removed r hmid hnot
      · exact .inl hexpired
      · exact .inr ⟨p, hp, keys_subset h.subset hpmid, hpafter⟩
    · obtain hexpired | ⟨p, hp, hpbefore, hpmid⟩ := h.removed r hr hmid
      · exact .inl hexpired
      · exact .inr ⟨p, hp, hpbefore, fun hpafter => hpmid (keys_subset k.subset hpafter)⟩

variable {α : Type}

/-- The rows of one table, each as its record, filtered. -/
theorem part_filter {record : α → Record κ} {keep : α → Bool} {rows : List α}
    (h : ∀ x ∈ rows, keep x = false → Accounted before after (record x)) :
    Part before after (rows.map record) ((rows.filter keep).map record) where
  subset := List.map_subset record (List.filter_subset_self rows)
  removed := by
    intro r hr hnot
    obtain ⟨x, hx, rfl⟩ := List.mem_map.1 hr
    cases hkeep : keep x with
    | true => exact absurd (List.mem_map_of_mem (List.mem_filter.2 ⟨hx, hkeep⟩)) hnot
    | false => exact h x hx hkeep

end EvalEngine.CascadeDeletion
