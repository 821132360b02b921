import Mathlib.Data.List.Nodup

namespace EvalEngine.KeyedRows

variable {α κ : Type*} [DecidableEq κ] (key : α → κ)

/-- Change the rows that carry the key `k`. -/
def update (k : κ) (f : α → α) (rows : List α) : List α :=
  rows.map (fun r => if key r = k then f r else r)

/-- Change the rows with the key of each snapshot, one snapshot after the other. -/
def updateAll (u : α → α → α) (snapshots rows : List α) : List α :=
  snapshots.foldl (fun acc c => update key (key c) (u c) acc) rows

variable {u : α → α → α}

theorem map_key_update (k : κ) (f : α → α) (hf : ∀ r, key (f r) = key r) (rows : List α) :
    (update key k f rows).map key = rows.map key := by
  induction rows with
  | nil => rfl
  | cons r rows ih =>
    have hr : key (if key r = k then f r else r) = key r := by
      split
      · exact hf r
      · rfl
    simpa only [update, List.map_cons, hr, List.cons.injEq, true_and] using ih

/-- Under distinct keys, a row is what its key finds. -/
theorem find?_key {rows : List α} (hk : (rows.map key).Nodup) {r : α} (hr : r ∈ rows) :
    rows.find? (fun c => key c = key r) = some r := by
  cases hf : rows.find? (fun c => key c = key r) with
  | none =>
    have hnone := List.find?_eq_none.1 hf r hr
    simp at hnone
  | some c =>
    have hmem := List.mem_of_find?_eq_some hf
    have hkey : key c = key r := by simpa using List.find?_some hf
    rw [List.inj_on_of_nodup_map hk hmem hr hkey]

theorem updateAll_eq (hu : ∀ c r, key (u c r) = key r) (snapshots : List α)
    (hs : (snapshots.map key).Nodup) (rows : List α) :
    updateAll key u snapshots rows =
      rows.map (fun r => match snapshots.find? (fun c => key c = key r) with
        | some c => u c r
        | none => r) := by
  induction snapshots generalizing rows with
  | nil => simp [updateAll]
  | cons c snapshots ih =>
    obtain ⟨hc, hrest⟩ := List.nodup_cons.1 hs
    have hstep : updateAll key u (c :: snapshots) rows =
        updateAll key u snapshots (update key (key c) (u c) rows) := rfl
    rw [hstep, ih hrest, update, List.map_map]
    apply List.map_congr_left
    intro r _
    by_cases hr : key r = key c
    · -- no later snapshot has the key that has just been served
      have hnone : snapshots.find? (fun c' => key c' = key (u c r)) = none := by
        apply List.find?_eq_none.2
        intro c' hc' heq
        have hkey : key c' = key c := by simpa [hu, hr] using heq
        exact hc (hkey ▸ List.mem_map_of_mem hc')
      simp [hr, hnone]
    · have hne : ¬ key c = key r := fun h => hr h.symm
      simp [hr, hne]

/-- Snapshots of rows with distinct keys: each is applied to its own row. -/
theorem updateAll_filter (hu : ∀ c r, key (u c r) = key r) (p : α → Bool) (rows : List α)
    (hk : (rows.map key).Nodup) :
    updateAll key u (rows.filter p) rows = rows.map (fun r => if p r then u r r else r) := by
  have hs : ((rows.filter p).map key).Nodup :=
    List.Nodup.sublist (List.filter_sublist.map key) hk
  rw [updateAll_eq key hu _ hs]
  apply List.map_congr_left
  intro r hr
  have hinj : ∀ c ∈ rows, key c = key r → c = r :=
    fun c hc h => List.inj_on_of_nodup_map hk hc hr h
  cases hp : p r with
  | true =>
    have hfind : (rows.filter p).find? (fun c => key c = key r) = some r :=
      find?_key key hs (List.mem_filter.2 ⟨hr, hp⟩)
    simp [hfind]
  | false =>
    have hfind : (rows.filter p).find? (fun c => key c = key r) = none := by
      apply List.find?_eq_none.2
      intro c hc heq
      obtain ⟨hcr, hpc⟩ := List.mem_filter.1 hc
      have hkey : key c = key r := by simpa using heq
      rw [hinj c hcr hkey, hp] at hpc
      cases hpc
    simp [hfind]

end EvalEngine.KeyedRows
