import Mathlib.Data.List.Nodup

namespace EvalEngine.ConstrainedTables

/-- What a table demands of its rows: a primary key, the values of a unique
index on some of them, and types that the values of the columns fit. -/
class Entity (ρ : Type) where
  key : ρ → Nat
  indexed : ρ → Option String
  fits : ρ → Bool

open Entity

variable {ρ : Type} [Entity ρ]

def Valid (rows : List ρ) : Prop :=
  (rows.map key).Nodup ∧ (rows.filterMap indexed).Nodup ∧ ∀ row ∈ rows, fits row = true

instance (rows : List ρ) : Decidable (Valid rows) := inferInstanceAs (Decidable (_ ∧ _ ∧ _))

structure Table (ρ : Type) [Entity ρ] where
  rows : List ρ
  valid : Valid rows

namespace Table

def empty : Table ρ := ⟨[], by simp [Valid]⟩

/-- The statement's effect on the rows, refused where it violates a constraint. -/
def write (rows : List ρ) : Option (Table ρ) :=
  if h : Valid rows then some ⟨rows, h⟩ else none

def insert (table : Table ρ) (row : ρ) : Option (Table ρ) := write (table.rows ++ [row])

/-- The rows with the one of the same key replaced. -/
def replaced (row : ρ) (rows : List ρ) : List ρ :=
  rows.map (fun r => if key r = key row then row else r)

def update (table : Table ρ) (row : ρ) : Option (Table ρ) := write (replaced row table.rows)

/-- A key that no row has. -/
def freshKey (table : Table ρ) : Nat := (table.rows.map key).foldr max 0 + 1

theorem write_some {rows : List ρ} {table : Table ρ} (h : write rows = some table) :
    table.rows = rows := by
  unfold write at h
  split at h
  · cases h
    rfl
  · cases h

theorem write_of_valid {rows : List ρ} (h : Valid rows) : write rows = some ⟨rows, h⟩ := by
  simp [write, h]

theorem write_of_not_valid {rows : List ρ} (h : ¬ Valid rows) : write rows = none := by
  simp [write, h]

theorem lt_freshKey (table : Table ρ) {row : ρ} (h : row ∈ table.rows) :
    key row < table.freshKey := by
  have hle : ∀ keys : List Nat, ∀ k ∈ keys, k ≤ keys.foldr max 0 := by
    intro keys
    induction keys with
    | nil => simp
    | cons k' keys ih =>
      intro k hk
      obtain rfl | hk := List.mem_cons.1 hk
      · exact Nat.le_max_left _ _
      · exact Nat.le_trans (ih k hk) (Nat.le_max_right _ _)
  exact Nat.lt_succ_of_le (hle _ _ (List.mem_map_of_mem h))

theorem fits_of_mem (table : Table ρ) {row : ρ} (h : row ∈ table.rows) : fits row = true :=
  table.valid.2.2 row h

theorem eq_of_key (table : Table ρ) {r s : ρ} (hr : r ∈ table.rows) (hs : s ∈ table.rows)
    (h : key r = key s) : r = s :=
  List.inj_on_of_nodup_map table.valid.1 hr hs h

theorem valid_append {table : Table ρ} {row : ρ} (hkey : ∀ r ∈ table.rows, key r ≠ key row)
    (hindex : ∀ v ∈ indexed row, v ∉ table.rows.filterMap indexed) (hfits : fits row = true) :
    Valid (table.rows ++ [row]) := by
  obtain ⟨hkeys, hindexed, hall⟩ := table.valid
  refine ⟨?_, ?_, ?_⟩
  · have hnot : key row ∉ table.rows.map key := by
      intro hmem
      obtain ⟨r, hr, heq⟩ := List.mem_map.1 hmem
      exact hkey r hr heq
    simpa using hkeys.concat hnot
  · cases hv : indexed row with
    | none => simpa [List.filterMap_append, hv] using hindexed
    | some v =>
      have hnot := hindex v hv
      have hconcat := hindexed.concat hnot
      simpa [List.filterMap_append, hv] using hconcat
  · intro r hr
    obtain hr | hr := List.mem_append.1 hr
    · exact hall r hr
    · obtain rfl := List.mem_singleton.1 hr
      exact hfits

/-- INSERT of a row with a fresh key and a fresh index value succeeds
exactly when its values fit. -/
theorem insert_fresh (table : Table ρ) {row : ρ} (hkey : key row = table.freshKey)
    (hindex : ∀ v ∈ indexed row, v ∉ table.rows.filterMap indexed) :
    (fits row = true ∧ ∃ table', table.insert row = some table' ∧
      table'.rows = table.rows ++ [row]) ∨
    (fits row = false ∧ table.insert row = none) := by
  cases hfits : fits row with
  | true =>
    have hnew : ∀ r ∈ table.rows, key r ≠ key row := by
      intro r hr heq
      have hlt := table.lt_freshKey hr
      omega
    have hvalid := valid_append hnew hindex hfits
    exact .inl ⟨rfl, ⟨_, hvalid⟩, write_of_valid hvalid, rfl⟩
  | false =>
    have hnot : ¬ Valid (table.rows ++ [row]) := by
      intro hvalid
      have hrow := hvalid.2.2 row (by simp)
      rw [hfits] at hrow
      cases hrow
    exact .inr ⟨rfl, write_of_not_valid hnot⟩

theorem valid_replaced {table : Table ρ} {old row : ρ} (hold : old ∈ table.rows)
    (hkey : key row = key old) (hindex : indexed row = indexed old) (hfits : fits row = true) :
    Valid (replaced row table.rows) := by
  obtain ⟨hkeys, hindexed, hall⟩ := table.valid
  have hsame : ∀ r ∈ table.rows,
      key (if key r = key row then row else r) = key r ∧
      indexed (if key r = key row then row else r) = indexed r := by
    intro r hr
    by_cases h : key r = key row
    · have hr_old : r = old := table.eq_of_key hr hold (h.trans hkey)
      subst hr_old
      simp [h, hindex]
    · simp [h]
  refine ⟨?_, ?_, ?_⟩
  · have hmap : (replaced row table.rows).map key = table.rows.map key := by
      rw [replaced, List.map_map]
      exact List.map_congr_left fun r hr => (hsame r hr).1
    rw [hmap]
    exact hkeys
  · have hmap : (replaced row table.rows).filterMap indexed = table.rows.filterMap indexed := by
      rw [replaced, List.filterMap_map]
      exact List.filterMap_congr fun r hr => (hsame r hr).2
    rw [hmap]
    exact hindexed
  · intro r hr
    obtain ⟨r', hr', rfl⟩ := List.mem_map.1 hr
    split
    · exact hfits
    · exact hall r' hr'

/-- UPDATE of a row that keeps its key and its index value succeeds exactly
when the new values fit. -/
theorem update_existing (table : Table ρ) {old row : ρ} (hold : old ∈ table.rows)
    (hkey : key row = key old) (hindex : indexed row = indexed old) :
    (fits row = true ∧ ∃ table', table.update row = some table' ∧
      table'.rows = replaced row table.rows) ∨
    (fits row = false ∧ table.update row = none) := by
  cases hfits : fits row with
  | true =>
    have hvalid := valid_replaced hold hkey hindex hfits
    exact .inl ⟨rfl, ⟨_, hvalid⟩, write_of_valid hvalid, rfl⟩
  | false =>
    have hnot : ¬ Valid (replaced row table.rows) := by
      intro hvalid
      have hmem : row ∈ replaced row table.rows :=
        List.mem_map.2 ⟨old, hold, by simp [hkey]⟩
      have hrow := hvalid.2.2 row hmem
      rw [hfits] at hrow
      cases hrow
    exact .inr ⟨rfl, write_of_not_valid hnot⟩

/-- Different rows for the same key leave different tables. -/
theorem replaced_inj {rows : List ρ} {old row row' : ρ} (hold : old ∈ rows)
    (hkey : key row = key old) (hkey' : key row' = key old)
    (h : replaced row rows = replaced row' rows) : row = row' := by
  have hat := List.map_inj_left.1 h old hold
  simpa [hkey, hkey'] using hat

/-- One replacement changes a count by the old and the new row. -/
theorem countP_replaced {rows : List ρ} (p : ρ → Bool) {old row : ρ} (hkeys : (rows.map key).Nodup)
    (hold : old ∈ rows) (hkey : key row = key old) :
    (replaced row rows).countP p + (p old).toNat = rows.countP p + (p row).toNat := by
  induction rows with
  | nil => cases hold
  | cons r rows ih =>
    obtain ⟨hnot, hrest⟩ := List.nodup_cons.1 hkeys
    by_cases hr : key r = key row
    · have hsame : rows.map (fun s => if key s = key row then row else s) = rows := by
        apply (List.map_congr_left fun s hs => ?_).trans (List.map_id rows)
        have hne : key s ≠ key row := fun heq => hnot (hr ▸ heq ▸ List.mem_map_of_mem hs)
        exact if_neg hne
      have hhead : r = old := by
        obtain rfl | hmem := List.mem_cons.1 hold
        · rfl
        · exact absurd (List.mem_map_of_mem (f := key) hmem) (by rwa [← hkey, ← hr])
      subst hhead
      simp only [replaced, List.map_cons, if_pos hr, hsame, List.countP_cons]
      cases p r <;> cases p row <;> simp
    · have hmem : old ∈ rows := by
        obtain rfl | hmem := List.mem_cons.1 hold
        · exact absurd hkey.symm hr
        · exact hmem
      have hcount := ih hrest hmem
      simp only [replaced] at hcount
      simp only [replaced, List.map_cons, if_neg hr, List.countP_cons]
      omega

/-- A replacement that a search cannot tell from the old row is what the
search finds afterwards. -/
theorem find_replaced {rows : List ρ} {p : ρ → Bool} {old row : ρ} (hkeys : (rows.map key).Nodup)
    (hold : rows.find? p = some old) (hkey : key row = key old) (hp : p row = true) :
    (replaced row rows).find? p = some row := by
  induction rows with
  | nil => cases hold
  | cons r rows ih =>
    by_cases hr : p r = true
    · obtain rfl : r = old := by simpa [hr] using hold
      simp [replaced, hkey, hp]
    · have hrest : rows.find? p = some old := by simpa [hr] using hold
      have hne : key r ≠ key row := by
        intro heq
        have hmem := List.mem_map_of_mem (f := key) (List.mem_of_find?_eq_some hrest)
        rw [← hkey, ← heq] at hmem
        exact (List.nodup_cons.1 hkeys).1 hmem
      have hfound := ih (List.nodup_cons.1 hkeys).2 hrest
      simp only [replaced, List.map_cons, if_neg hne, List.find?_cons, hr]
      exact hfound

omit [Entity ρ] in
/-- A filter that fixes a value which no two rows share keeps at most the one
row that `find?` finds. -/
theorem filter_eq_find {κ : Type} (value : ρ → Option κ) (rows : List ρ)
    (hrows : (rows.filterMap value).Nodup) (p : ρ → Bool) (k : κ)
    (hp : ∀ r, p r = true → value r = some k) : rows.filter p = (rows.find? p).toList := by
  induction rows with
  | nil => rfl
  | cons r rows ih =>
    by_cases h : p r = true
    · -- no row of the rest has the value
      have hnone : rows.filter p = [] := by
        apply List.filter_eq_nil_iff.2
        intro s hs hps
        rw [List.filterMap_cons_some (hp r h)] at hrows
        exact (List.nodup_cons.1 hrows).1 (List.mem_filterMap.2 ⟨s, hs, hp s hps⟩)
      simp [h, hnone]
    · have hrest : (rows.filterMap value).Nodup :=
        hrows.sublist ((List.sublist_cons_self r rows).filterMap value)
      have hfind := ih hrest
      simp only [Bool.not_eq_true] at h
      simpa [h] using hfind

theorem filter_key (table : Table ρ) (p : ρ → Bool) (k : Nat) (hp : ∀ r, p r = true → key r = k) :
    table.rows.filter p = (table.rows.find? p).toList := by
  have hrows : (table.rows.filterMap (fun r => some (key r))).Nodup := by
    simpa using table.valid.1
  exact filter_eq_find _ table.rows hrows p k fun r hr => congrArg some (hp r hr)

theorem filter_indexed (table : Table ρ) (p : ρ → Bool) (v : String)
    (hp : ∀ r, p r = true → indexed r = some v) :
    table.rows.filter p = (table.rows.find? p).toList :=
  filter_eq_find indexed table.rows table.valid.2.1 p v hp

end Table

end EvalEngine.ConstrainedTables
