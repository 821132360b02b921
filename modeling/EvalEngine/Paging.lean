import Mathlib.Data.List.Nodup
import Mathlib.Data.List.Perm.Basic
import Mathlib.Order.Lattice

namespace EvalEngine.Paging

variable {ρ κ : Type} [LinearOrder κ] {key : ρ → κ}

/-- The rows in an order that the key allows: rows with the same key may stand
in any order. -/
structure Arranged (key : ρ → κ) (rows l : List ρ) : Prop where
  perm : l.Perm rows
  sorted : l.Pairwise fun a b => key a ≤ key b

/-- How a query orders the rows that it finds. -/
structure Arrangement (key : ρ → κ) where
  order : List ρ → List ρ
  arranged : ∀ rows, Arranged key rows (order rows)

def page (n i : ℕ) (l : List ρ) : List ρ := (l.drop (i * n)).take n

/-- The number of pages of `n` rows: the quotient, rounded up. -/
def pageCount (n total : ℕ) : ℕ := (total + n - 1) / n

/-- A page ends where the key changes: the rows up to some key fill the pages
before. -/
def Splits (key : ρ → κ) (n : ℕ) (rows : List ρ) : Prop :=
  ∀ i, 0 < i → i * n < rows.length → ∃ v, rows.countP (fun row => decide (key row ≤ v)) = i * n

/-- Reading page after page, each in an order of its own, shows every row once. -/
def ShowsAll (key : ρ → κ) (n : ℕ) (rows : List ρ) : Prop :=
  ∀ arrange : ℕ → Arrangement key,
    ((List.range (pageCount n rows.length)).flatMap fun i =>
      page n i ((arrange i).order rows)).Perm rows

theorem arranged_mergeSort (key : ρ → κ) (rows : List ρ) :
    Arranged key rows (rows.mergeSort fun a b => decide (key a ≤ key b)) where
  perm := List.mergeSort_perm rows _
  sorted := by
    have h := @List.pairwise_mergeSort ρ (fun a b => decide (key a ≤ key b))
      (fun a b c hab hbc => decide_eq_true ((of_decide_eq_true hab).trans (of_decide_eq_true hbc)))
      (fun a b => by simpa using le_total (key a) (key b)) rows
    exact h.imp fun hab => of_decide_eq_true hab

def sorting (key : ρ → κ) : Arrangement key where
  order rows := rows.mergeSort fun a b => decide (key a ≤ key b)
  arranged := arranged_mergeSort key

open Classical in
/-- The arrangement that answers one list of rows with a chosen one. -/
noncomputable def Arranged.arrangement {rows l : List ρ} (h : Arranged key rows l) :
    Arrangement key where
  order rows' := if rows' = rows then l else (sorting key).order rows'
  arranged rows' := by
    by_cases heq : rows' = rows
    · subst heq
      simpa using h
    · simpa [heq] using (sorting key).arranged rows'

theorem Arranged.arrangement_order {rows l : List ρ} (h : Arranged key rows l) :
    h.arrangement.order rows = l := if_pos rfl

theorem lt_pageCount {n total i : ℕ} (hn : 0 < n) : i < pageCount n total ↔ i * n < total := by
  unfold pageCount
  rw [Nat.lt_iff_add_one_le, Nat.le_div_iff_mul_le hn, Nat.add_mul]
  omega

theorem le_pageCount_mul {n : ℕ} (total : ℕ) (hn : 0 < n) : total ≤ pageCount n total * n := by
  by_contra h
  exact Nat.lt_irrefl _ ((lt_pageCount hn).2 (Nat.lt_of_not_le h))

theorem mem_page {n i k : ℕ} {l : List ρ} {x : ρ} (hk : l[k]? = some x) (hlo : i * n ≤ k)
    (hhi : k < (i + 1) * n) : x ∈ page n i l := by
  rw [Nat.add_mul, Nat.one_mul] at hhi
  refine List.mem_of_getElem? (i := k - i * n) ?_
  rw [page, List.getElem?_take_of_lt (by omega), List.getElem?_drop, Nat.add_sub_cancel' hlo, hk]

theorem take_append_page (n i : ℕ) (l : List ρ) :
    l.take (i * n) ++ page n i l = l.take ((i + 1) * n) := by
  rw [Nat.add_mul, Nat.one_mul, List.take_add, page]

/-- In a sorted list the rows up to a key come first. -/
theorem filter_eq_take {l : List ρ} (hl : l.Pairwise fun a b => key a ≤ key b) (v : κ) :
    l.filter (fun row => decide (key row ≤ v)) =
      l.take (l.countP fun row => decide (key row ≤ v)) := by
  induction l with
  | nil => rfl
  | cons a l ih =>
    have htail := List.pairwise_cons.1 hl
    by_cases ha : key a ≤ v
    · rw [List.filter_cons_of_pos (by simpa using ha), List.countP_cons_of_pos (by simpa using ha),
        List.take_succ_cons, ih htail.2]
    · have hrest : ∀ b ∈ l, ¬ key b ≤ v := fun b hb hbv => ha ((htail.1 b hb).trans hbv)
      rw [List.filter_cons_of_neg (by simpa using ha), List.countP_cons_of_neg (by simpa using ha),
        List.countP_eq_zero.2 (by simpa using hrest), List.take_zero, List.filter_eq_nil_iff]
      simpa using hrest

/-- The rows before a boundary that the key respects do not depend on the
order. -/
theorem take_perm {rows l l' : List ρ} {b : ℕ} (hl : Arranged key rows l) (hl' : Arranged key rows l')
    (hb : ∃ v, rows.countP (fun row => decide (key row ≤ v)) = b) : (l.take b).Perm (l'.take b) := by
  obtain ⟨v, rfl⟩ := hb
  have hfilter : ∀ {k : List ρ}, Arranged key rows k →
      (k.take (rows.countP fun row => decide (key row ≤ v))).Perm
        (rows.filter fun row => decide (key row ≤ v)) := by
    intro k hk
    rw [← hk.perm.countP_eq, ← filter_eq_take hk.sorted v]
    exact hk.perm.filter _
  exact (hfilter hl).trans (hfilter hl').symm

/-- The first pages show the rows that stand at the beginning of any order. -/
theorem pages_perm_take {n : ℕ} {rows l : List ρ} (hs : Splits key n rows)
    (arrange : ℕ → Arrangement key) (hl : Arranged key rows l) (k : ℕ) :
    ((List.range k).flatMap fun i => page n i ((arrange i).order rows)).Perm (l.take (k * n)) := by
  induction k with
  | zero => simp
  | succ k ih =>
    have harr := (arrange k).arranged rows
    have hnext : ∀ {m m' : List ρ}, Arranged key rows m → Arranged key rows m' → ∀ j,
        (m.take (j * n)).Perm (m'.take (j * n)) := by
      intro m m' hm hm' j
      by_cases hj : j * n < rows.length
      · rcases Nat.eq_zero_or_pos j with rfl | hpos
        · simp
        · exact take_perm hm hm' (hs j hpos hj)
      · rw [List.take_of_length_le (by rw [hm.perm.length_eq]; omega),
          List.take_of_length_le (by rw [hm'.perm.length_eq]; omega)]
        exact hm.perm.trans hm'.perm.symm
    rw [List.range_succ, List.flatMap_append, List.flatMap_singleton]
    refine ((ih.trans (hnext hl harr k)).append_right _).trans ?_
    rw [take_append_page]
    exact hnext harr hl (k + 1)

theorem showsAll_of_splits {n : ℕ} {rows : List ρ} (hn : 0 < n) (hs : Splits key n rows) :
    ShowsAll key n rows := by
  intro arrange
  have hl := arranged_mergeSort key rows
  have h := pages_perm_take hs arrange hl (pageCount n rows.length)
  rw [List.take_of_length_le (by rw [hl.perm.length_eq]; exact le_pageCount_mul _ hn)] at h
  exact h.trans hl.perm

/-- Neighbours with one key may change places. -/
theorem Arranged.swap {rows before after : List ρ} {x y : ρ}
    (h : Arranged key rows (before ++ x :: y :: after)) (hxy : key y ≤ key x) :
    Arranged key rows (before ++ y :: x :: after) where
  perm := ((List.Perm.swap x y after).append_left before).trans h.perm
  sorted := by
    have hs := h.sorted
    simp only [List.pairwise_append, List.pairwise_cons, List.mem_cons, forall_eq_or_imp] at hs ⊢
    obtain ⟨hbefore, ⟨⟨-, hx⟩, hy, hafter⟩, hacross⟩ := hs
    refine ⟨hbefore, ⟨⟨hxy, hy⟩, hx, hafter⟩, ?_⟩
    intro a ha
    obtain ⟨hax, hay, hrest⟩ := hacross a ha
    exact ⟨hay, hax, hrest⟩

/-- A boundary between different keys is one that the key respects. -/
theorem Arranged.countP_boundary {rows before after : List ρ} {x y : ρ}
    (h : Arranged key rows (before ++ x :: y :: after)) (hxy : key x < key y) :
    rows.countP (fun row => decide (key row ≤ key x)) = before.length + 1 := by
  have hs := h.sorted
  simp only [List.pairwise_append, List.pairwise_cons, List.mem_cons, forall_eq_or_imp] at hs
  obtain ⟨-, ⟨-, hy, -⟩, hacross⟩ := hs
  have hbefore : before.countP (fun row => decide (key row ≤ key x)) = before.length :=
    List.countP_eq_length.2 fun a ha => decide_eq_true (hacross a ha).1
  have hafter : after.countP (fun row => decide (key row ≤ key x)) = 0 := by
    refine List.countP_eq_zero.2 fun a ha hle => ?_
    exact absurd (of_decide_eq_true hle) (not_le.2 (hxy.trans_le (hy a ha)))
  rw [← h.perm.countP_eq, List.countP_append, hbefore, List.countP_cons_of_pos (by simp),
    List.countP_cons_of_neg (by simpa using hxy), hafter]

/-- Where a boundary falls between rows with one key, the last row of a page
can come first on the next. -/
theorem splits_of_showsAll {n : ℕ} {rows : List ρ} (hn : 0 < n) (hrows : rows.Nodup)
    (h : ShowsAll key n rows) : Splits key n rows := by
  intro i hi hlt
  have hl := arranged_mergeSort key rows
  generalize rows.mergeSort (fun a b => decide (key a ≤ key b)) = l at hl
  have hlen := hl.perm.length_eq
  obtain ⟨b, hb⟩ : ∃ b, b + 1 = i * n := ⟨i * n - 1, Nat.sub_add_cancel (Nat.mul_pos hi hn)⟩
  obtain ⟨before, x, y, after, rfl, hbefore⟩ :
      ∃ before x y after, l = before ++ x :: y :: after ∧ before.length = b := by
    have hx : b < l.length := by omega
    have hy : b + 1 < l.length := by omega
    refine ⟨l.take b, l[b], l[b + 1], l.drop (b + 1 + 1), ?_, by simp; omega⟩
    rw [← List.drop_eq_getElem_cons, ← List.drop_eq_getElem_cons, List.take_append_drop]
  by_contra hno
  have hxy : key y ≤ key x := by
    by_contra hxy
    exact hno ⟨key x, by rw [hl.countP_boundary (not_le.1 hxy), hbefore, hb]⟩
  let arrange : ℕ → Arrangement key := fun j =>
    if j < i then hl.arrangement else (hl.swap hxy).arrangement
  have hnodup := (h arrange).nodup_iff.2 hrows
  have hdisjoint := (List.nodup_flatMap.1 hnodup).2
  have hpages : i < pageCount n rows.length := (lt_pageCount hn).2 hlt
  have hprev : (i - 1 + 1) * n = i * n := by rw [Nat.sub_add_cancel hi]
  have hstart : (i - 1) * n + n = i * n := by rw [← hprev, Nat.add_mul, Nat.one_mul]
  -- `x` ends the page before the boundary, and after the change of places it starts the next one
  have hlast : x ∈ page n (i - 1) ((arrange (i - 1)).order rows) := by
    have harr : arrange (i - 1) = hl.arrangement := if_pos (Nat.sub_lt hi Nat.one_pos)
    rw [harr, Arranged.arrangement_order]
    exact mem_page (k := b) (by simp [← hbefore]) (by omega) (by omega)
  have hfirst : x ∈ page n i ((arrange i).order rows) := by
    have harr : arrange i = (hl.swap hxy).arrangement := if_neg (Nat.lt_irrefl i)
    rw [harr, Arranged.arrangement_order]
    exact mem_page (k := b + 1) (by simp [← hbefore]) (by omega)
      (by rw [Nat.add_mul]; omega)
  have happart := List.pairwise_iff_getElem.1 hdisjoint (i - 1) i (by simp; omega) (by simpa using hpages)
    (Nat.sub_lt hi Nat.one_pos)
  simp only [Function.onFun, List.getElem_range] at happart
  exact happart hlast hfirst

theorem showsAll_iff {n : ℕ} {rows : List ρ} (hn : 0 < n) (hrows : rows.Nodup) :
    ShowsAll key n rows ↔ Splits key n rows :=
  ⟨splits_of_showsAll hn hrows, showsAll_of_splits hn⟩

/-- A key that is the same for all rows respects no boundary. -/
theorem splits_iff_of_const {n : ℕ} {rows : List ρ} (hn : 0 < n)
    (hconst : ∀ a ∈ rows, ∀ b ∈ rows, key a = key b) : Splits key n rows ↔ rows.length ≤ n := by
  constructor
  · intro hs
    by_contra hlt
    obtain ⟨v, hv⟩ := hs 1 Nat.one_pos (by omega)
    obtain ⟨a, ha, hav⟩ := List.countP_pos_iff.1 (hv ▸ (by omega : 0 < 1 * n))
    have hall : rows.countP (fun row => decide (key row ≤ v)) = rows.length :=
      List.countP_eq_length.2 fun b hb => by rwa [hconst b hb a ha]
    omega
  · intro hle i hi hlt
    have hpage : 1 * n ≤ i * n := Nat.mul_le_mul_right n hi
    omega

end EvalEngine.Paging
