import Mathlib.Data.List.Perm.Basic

namespace EvalEngine.PairwiseLoop

variable {α β : Type}

/-- What a loop over all pairs of places finds, each pair once and the earlier
place first. -/
def pairs (f : α → α → Option β) : List α → List β
  | [] => []
  | a :: rest => rest.filterMap (f a) ++ pairs f rest

theorem mem_pairs {f : α → α → Option β} {xs : List α} {x : β} (h : x ∈ pairs f xs) :
    ∃ a ∈ xs, ∃ b ∈ xs, f a b = some x := by
  induction xs with
  | nil => cases h
  | cons a rest ih =>
    obtain hrow | hrest := List.mem_append.1 h
    · obtain ⟨b, hb, hx⟩ := List.mem_filterMap.1 hrow
      exact ⟨a, List.mem_cons_self, b, List.mem_cons_of_mem _ hb, hx⟩
    · obtain ⟨b, hb, c, hc, hx⟩ := ih hrest
      exact ⟨b, List.mem_cons_of_mem _ hb, c, List.mem_cons_of_mem _ hc, hx⟩

/-- Where the order of a pair does not matter, the order of the list does not. -/
theorem pairs_perm {f : α → α → Option β} {xs ys : List α} (h : xs.Perm ys)
    (hf : ∀ a ∈ xs, ∀ b ∈ xs, f a b = f b a) : (pairs f xs).Perm (pairs f ys) := by
  induction h with
  | nil => exact .refl _
  | cons a hperm ih =>
    apply List.Perm.append (hperm.filterMap (f a))
    exact ih (fun b hb c hc => hf b (List.mem_cons_of_mem _ hb) c (List.mem_cons_of_mem _ hc))
  | swap a b rest =>
    have hab : f b a = f a b := hf b List.mem_cons_self a (List.mem_cons_of_mem _ List.mem_cons_self)
    simp only [pairs, List.filterMap_cons, hab]
    cases f a b with
    | none => exact (List.perm_append_comm_assoc _ _ _)
    | some x => exact .cons x (List.perm_append_comm_assoc _ _ _)
  | trans hxy hyz ihxy ihyz =>
    refine (ihxy hf).trans (ihyz ?_)
    intro a ha b hb
    exact hf a (hxy.mem_iff.2 ha) b (hxy.mem_iff.2 hb)

theorem eq_of_toList_perm {o o' : Option β} (h : o.toList.Perm o'.toList) : o = o' := by
  cases o with
  | none =>
    cases o' with
    | none => rfl
    | some y => exact absurd h.length_eq Nat.zero_ne_one
  | some x =>
    cases o' with
    | none => exact absurd h.length_eq Nat.one_ne_zero
    | some y => exact congrArg some (List.singleton_perm_singleton.1 h)

/-- Of two lists that differ in the order of their heads, what is found
agrees only if it does for the heads. -/
theorem eq_of_pairs_swap {f : α → α → Option β} {a b : α} {rest : List α}
    (h : (pairs f (a :: b :: rest)).Perm (pairs f (b :: a :: rest))) : f a b = f b a := by
  have hshape : ∀ a b, (pairs f (a :: b :: rest)).Perm
      ((f a b).toList ++ (rest.filterMap (f a) ++ (rest.filterMap (f b) ++ pairs f rest))) := by
    intro a b
    simp only [pairs, List.filterMap_cons]
    cases f a b with
    | none => exact .refl _
    | some x => exact .refl _
  have hswap : ((f a b).toList ++
      (rest.filterMap (f a) ++ (rest.filterMap (f b) ++ pairs f rest))).Perm
      ((f b a).toList ++ (rest.filterMap (f a) ++ (rest.filterMap (f b) ++ pairs f rest))) := by
    refine (hshape a b).symm.trans (h.trans ((hshape b a).trans ?_))
    exact List.Perm.append_left _ (List.perm_append_comm_assoc _ _ _)
  exact eq_of_toList_perm ((List.perm_append_right_iff _).1 hswap)

/-- Two members are the same, or stand together at the head of a reordering. -/
theorem exists_perm_heads {xs : List α} {a b : α} (ha : a ∈ xs) (hb : b ∈ xs) :
    a = b ∨ ∃ rest, xs.Perm (a :: b :: rest) := by
  obtain ⟨before, after, rfl⟩ := List.append_of_mem ha
  have hmiddle : (before ++ a :: after).Perm (a :: (before ++ after)) := List.perm_middle
  obtain rfl | hb := List.mem_cons.1 (hmiddle.mem_iff.1 hb)
  · exact .inl rfl
  · obtain ⟨before', after', hsplit⟩ := List.append_of_mem hb
    right
    refine ⟨before' ++ after', hmiddle.trans (.cons a ?_)⟩
    rw [hsplit]
    exact List.perm_middle

/-- The loop does not depend on the order of the list exactly when no pair of
members does. -/
theorem pairs_perm_iff {f : α → α → Option β} {xs : List α} :
    (∀ ys : List α, ys.Perm xs → (pairs f ys).Perm (pairs f xs)) ↔
      ∀ a ∈ xs, ∀ b ∈ xs, f a b = f b a := by
  constructor
  · intro h a ha b hb
    obtain rfl | ⟨rest, hrest⟩ := exists_perm_heads ha hb
    · rfl
    · have hab := h _ hrest.symm
      have hba := h (b :: a :: rest) ((List.Perm.swap a b rest).trans hrest.symm)
      exact eq_of_pairs_swap (hab.trans hba.symm)
  · intro h ys hys
    exact (pairs_perm hys.symm h).symm

end EvalEngine.PairwiseLoop
