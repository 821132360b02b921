import Mathlib.Data.List.DropRight
import Mathlib.Data.List.Infix

namespace EvalEngine.WordRuns

variable {α : Type} {p keep : α → Bool} {sep c : α} {cs w : List α}

def trim (p : α → Bool) (cs : List α) : List α := (cs.dropWhile p).rdropWhile p

/-- Every run of characters of the class becomes one separator. -/
def collapse (p : α → Bool) (sep : α) : Bool → List α → List α
  | _, [] => []
  | inRun, c :: cs =>
    if p c then
      if inRun then collapse p sep true cs else sep :: collapse p sep true cs
    else c :: collapse p sep false cs

/-- The runs of characters outside of the class. -/
def words (p : α → Bool) (cs : List α) : List (List α) := (cs.splitOnP p).filter (fun w => !w.isEmpty)

structure Trimmed (p : α → Bool) (cs : List α) : Prop where
  leading : ∀ c ∈ cs.head?, p c = false
  trailing : ∀ c ∈ cs.getLast?, p c = false

/-- Words that stand one separator apart. -/
structure Spaced (p : α → Bool) (sep : α) (cs : List α) : Prop extends Trimmed p cs where
  only : ∀ c ∈ cs, p c = true → c = sep
  single : ¬ [sep, sep] <:+: cs

theorem words_append_cons (hc : p c = true) (xs ys : List α) :
    words p (xs ++ c :: ys) = words p xs ++ words p ys := by
  unfold words
  rw [List.splitOnP_append_cons xs ys hc, List.filter_append]

@[simp] theorem words_nil : words p [] = [] := rfl

theorem words_cons (hc : p c = true) : words p (c :: cs) = words p cs :=
  words_append_cons hc [] cs

theorem words_concat (hc : p c = true) : words p (cs ++ [c]) = words p cs := by
  rw [words_append_cons hc, words_nil, List.append_nil]

theorem words_singleton (hw : ∀ c ∈ w, p c = false) (hne : w ≠ []) : words p w = [w] := by
  unfold words
  rw [List.splitOnP_eq_singleton hw]
  simp [hne]

theorem words_dropWhile (cs : List α) : words p (cs.dropWhile p) = words p cs := by
  induction cs with
  | nil => rfl
  | cons c cs ih =>
    by_cases hc : p c = true
    · rw [List.dropWhile_cons_of_pos hc, words_cons hc, ih]
    · rw [List.dropWhile_cons_of_neg hc]

theorem words_rdropWhile (cs : List α) : words p (cs.rdropWhile p) = words p cs := by
  induction cs using List.reverseRecOn with
  | nil => rfl
  | append_singleton cs c ih =>
    by_cases hc : p c = true
    · rw [List.rdropWhile_concat_pos p cs c hc, words_concat hc, ih]
    · rw [List.rdropWhile_concat_neg p cs c hc]

theorem words_trim (cs : List α) : words p (trim p cs) = words p cs := by
  unfold trim
  rw [words_rdropWhile, words_dropWhile]

theorem head_dropWhile (cs : List α) : ∀ c ∈ (cs.dropWhile p).head?, p c = false := by
  intro c hc
  have hfirst := List.head?_dropWhile_not p cs
  rw [show (cs.dropWhile p).head? = some c from hc] at hfirst
  simpa using hfirst

theorem trimmed_trim (p : α → Bool) (cs : List α) : Trimmed p (trim p cs) where
  leading := by
    intro c hc
    obtain ⟨t, ht⟩ := List.rdropWhile_prefix p (cs.dropWhile p)
    apply head_dropWhile cs c
    rw [← ht, List.head?_append, show ((cs.dropWhile p).rdropWhile p).head? = some c from hc]
    rfl
  trailing := by
    intro c hc
    have hlast := head_dropWhile (p := p) (cs.dropWhile p).reverse c
    rw [List.head?_eq_getLast?_reverse] at hlast
    exact hlast hc

theorem trim_of_trimmed (h : Trimmed p cs) : trim p cs = cs := by
  have hleft : cs.dropWhile p = cs := by
    cases cs with
    | nil => rfl
    | cons c cs => exact List.dropWhile_cons_of_neg (Bool.eq_false_iff.1 (h.leading c rfl))
  unfold trim
  rw [hleft]
  induction cs using List.reverseRecOn with
  | nil => rfl
  | append_singleton cs c =>
    have hc : p c = false := h.trailing c (by simp)
    exact List.rdropWhile_concat_neg p cs c (Bool.eq_false_iff.1 hc)

theorem collapse_true (cs : List α) : collapse p sep true cs = collapse p sep false (cs.dropWhile p) := by
  induction cs with
  | nil => rfl
  | cons c cs ih =>
    by_cases hc : p c = true
    · rw [List.dropWhile_cons_of_pos hc, collapse, if_pos hc, if_pos rfl, ih]
    · rw [List.dropWhile_cons_of_neg hc, collapse, collapse, if_neg hc, if_neg hc]

theorem collapse_append (sep : α) (hw : ∀ c ∈ w, p c = false) (cs : List α) :
    collapse p sep false (w ++ cs) = w ++ collapse p sep false cs := by
  induction w with
  | nil => rfl
  | cons c w ih =>
    obtain ⟨hc, hw⟩ := List.forall_mem_cons.1 hw
    rw [List.cons_append, collapse, if_neg (Bool.eq_false_iff.1 hc), ih hw, List.cons_append]

theorem mem_collapse {b : Bool} (h : c ∈ collapse p sep b cs) : c = sep ∨ c ∈ cs ∧ p c = false := by
  induction cs generalizing b with
  | nil => cases h
  | cons d cs ih =>
    rw [collapse] at h
    have hrest : ∀ b, c ∈ collapse p sep b cs → c = sep ∨ c ∈ d :: cs ∧ p c = false := by
      intro b h
      exact (ih h).imp_right (And.imp_left (List.mem_cons_of_mem d))
    by_cases hd : p d = true
    · rw [if_pos hd] at h
      cases b with
      | true => exact hrest _ h
      | false =>
        obtain rfl | h := List.mem_cons.1 h
        · exact .inl rfl
        · exact hrest _ h
    · rw [if_neg hd] at h
      obtain rfl | h := List.mem_cons.1 h
      · exact .inr ⟨List.mem_cons_self, Bool.eq_false_iff.2 hd⟩
      · exact hrest _ h

theorem collapse_ne_nil (h : cs ≠ []) : collapse p sep false cs ≠ [] := by
  obtain ⟨c, cs, rfl⟩ := List.exists_cons_of_ne_nil h
  rw [collapse]
  split
  · exact List.cons_ne_nil _ _
  · exact List.cons_ne_nil _ _

/-- A text that is spaced already is left as it is. -/
theorem collapse_of_spaced (honly : ∀ c ∈ cs, p c = true → c = sep) (hsingle : ¬ [sep, sep] <:+: cs) :
    collapse p sep false cs = cs := by
  induction cs with
  | nil => rfl
  | cons c cs ih =>
    obtain ⟨hc, honly⟩ := List.forall_mem_cons.1 honly
    have hsame := ih honly fun h => hsingle (h.trans (List.infix_cons List.infix_rfl))
    by_cases hpc : p c = true
    · obtain rfl := hc hpc
      have hdrop : cs.dropWhile p = cs := by
        cases cs with
        | nil => rfl
        | cons d cs =>
          apply List.dropWhile_cons_of_neg
          intro hd
          obtain rfl := honly d List.mem_cons_self hd
          exact hsingle ⟨[], cs, rfl⟩
      rw [collapse, if_pos hpc, if_neg Bool.false_ne_true, collapse_true, hdrop, hsame]
    · rw [collapse, if_neg hpc, hsame]

theorem Trimmed.dropWhile {d : α} {rest : List α} (h : Trimmed p (w ++ d :: rest)) (hd : p d = true) :
    rest.dropWhile p ≠ [] ∧ Trimmed p (rest.dropWhile p) := by
  have hne : rest.dropWhile p ≠ [] := by
    intro hnil
    have hall : ∀ c ∈ d :: rest, p c = true := List.forall_mem_cons.2 ⟨hd, List.dropWhile_eq_nil_iff.1 hnil⟩
    have hlast := h.trailing ((d :: rest).getLast (List.cons_ne_nil d rest))
      (by rw [List.getLast?_append_of_ne_nil _ (List.cons_ne_nil d rest)]; exact List.getLast?_eq_getLast_of_ne_nil _)
    rw [hall _ (List.getLast_mem _)] at hlast
    cases hlast
  refine ⟨hne, head_dropWhile rest, ?_⟩
  intro c hc
  apply h.trailing c
  have hsplit : w ++ d :: rest = (w ++ d :: rest.takeWhile p) ++ rest.dropWhile p := by
    rw [List.append_assoc, List.cons_append, List.takeWhile_append_dropWhile]
  rw [hsplit, List.getLast?_append_of_ne_nil _ hne]
  exact hc

/-- Once trimmed, a text collapses to its words with separators between them. -/
theorem collapse_of_trimmed (sep : α) (cs : List α) (h : Trimmed p cs) :
    collapse p sep false cs = [sep].intercalate (words p cs) := by
  induction hn : cs.length using Nat.strong_induction_on generalizing cs with
  | _ n ih =>
    have hword : ∀ c ∈ cs.takeWhile (fun c => !p c), p c = false := by
      intro c hc
      simpa using List.mem_takeWhile_imp hc
    have hsplit := List.takeWhile_append_dropWhile (p := fun c => !p c) (l := cs)
    generalize cs.takeWhile (fun c => !p c) = w at hword hsplit
    cases hrest : cs.dropWhile (fun c => !p c) with
    | nil =>
      rw [hrest, List.append_nil] at hsplit
      subst hsplit
      have hself := collapse_append sep hword []
      rw [List.append_nil] at hself
      by_cases hw : w = []
      · subst hw
        rfl
      · rw [hself, words_singleton hword hw]
        simp [collapse]
    | cons d rest =>
      rw [hrest] at hsplit
      subst hsplit
      have hd : p d = true := by
        have hfirst := head_dropWhile (p := fun c => !p c) (w ++ d :: rest) d (by rw [hrest]; rfl)
        simpa using hfirst
      have hw : w ≠ [] := by
        rintro rfl
        rw [h.leading d rfl] at hd
        cases hd
      obtain ⟨hne, htrimmed⟩ := h.dropWhile hd
      have hlt : (rest.dropWhile p).length < n := by
        have hle := (List.dropWhile_sublist p (l := rest)).length_le
        simp only [List.length_append, List.length_cons] at hn
        omega
      have hjoined := ih _ hlt _ htrimmed rfl
      have hwords : words p rest ≠ [] := by
        intro hnil
        rw [words_dropWhile, hnil] at hjoined
        exact collapse_ne_nil hne hjoined
      rw [collapse_append sep hword, collapse, if_pos hd, if_neg Bool.false_ne_true, collapse_true, hjoined,
        words_append_cons hd, words_singleton hword hw, words_dropWhile, List.singleton_append,
        List.intercalate_cons_of_ne_nil hwords, List.append_assoc, List.singleton_append]

theorem mem_splitOnP (h : w ∈ cs.splitOnP p) : ∀ c ∈ w, p c = false := by
  induction cs generalizing w with
  | nil =>
    obtain rfl : w = [] := by simpa [List.splitOnP_nil] using h
    exact fun c hc => nomatch hc
  | cons d cs ih =>
    rw [List.splitOnP_cons_eq_if_modifyHead] at h
    by_cases hd : p d = true
    · rw [if_pos hd] at h
      obtain rfl | h := List.mem_cons.1 h
      · exact fun c hc => nomatch hc
      · exact ih h
    · rw [if_neg hd] at h
      cases hsplit : cs.splitOnP p with
      | nil => exact absurd hsplit (List.splitOnP_ne_nil p cs)
      | cons first others =>
        rw [hsplit] at h ih
        obtain rfl | h := List.mem_cons.1 h
        · exact List.forall_mem_cons.2 ⟨Bool.eq_false_iff.2 hd, ih List.mem_cons_self⟩
        · exact ih (List.mem_cons_of_mem _ h)

theorem mem_words (h : w ∈ words p cs) : ∀ c ∈ w, p c = false :=
  mem_splitOnP (List.mem_of_mem_filter h)

theorem filter_intercalate (hsep : keep sep = true) (vs : List (List α)) :
    ([sep].intercalate vs).filter keep = [sep].intercalate (vs.map (List.filter keep)) := by
  induction vs with
  | nil => rfl
  | cons v vs ih =>
    cases vs with
    | nil => simp
    | cons w ws =>
      rw [List.intercalate_cons_cons, List.filter_append, List.filter_append, ih]
      simp [hsep]

theorem mem_intercalate {vs : List (List α)} (h : c ∈ [sep].intercalate vs) : c = sep ∨ ∃ v ∈ vs, c ∈ v := by
  induction vs with
  | nil => cases h
  | cons v vs ih =>
    cases vs with
    | nil => exact .inr ⟨v, List.mem_cons_self, by simpa using h⟩
    | cons w ws =>
      rw [List.intercalate_cons_cons, List.mem_append, List.mem_append, List.mem_singleton] at h
      obtain (h | h) | h := h
      · exact .inr ⟨v, List.mem_cons_self, h⟩
      · exact .inl h
      · obtain h | ⟨u, hu, hc⟩ := ih h
        · exact .inl h
        · exact .inr ⟨u, List.mem_cons_of_mem v hu, hc⟩

/-- The separators of a joined text stand between two neighbouring words. -/
theorem intercalate_eq_iff {vs : List (List α)} (hvs : ∀ v ∈ vs, sep ∉ v) {a b : List α} :
    [sep].intercalate vs = a ++ sep :: b ↔ ∃ us v w ws, vs = us ++ v :: w :: ws ∧
      a = [sep].intercalate (us ++ [v]) ∧ b = [sep].intercalate (w :: ws) := by
  induction vs generalizing a with
  | nil => simp
  | cons v vs ih =>
    cases vs with
    | nil =>
      constructor
      · intro h
        rw [List.intercalate_singleton] at h
        exact absurd (by simp [h]) (hvs v List.mem_cons_self)
      · rintro ⟨us, u, w, ws, h, -⟩
        have hlen := congrArg List.length h
        simp only [List.length_append, List.length_cons, List.length_nil] at hlen
        omega
    | cons w ws =>
      have hjoin : ∀ us : List (List α), us ≠ [] →
          [sep].intercalate (v :: us) = v ++ sep :: [sep].intercalate us := by
        intro us hus
        rw [List.intercalate_cons_of_ne_nil hus, List.append_assoc, List.singleton_append]
      obtain ⟨hv, hws⟩ := List.forall_mem_cons.1 hvs
      rw [hjoin _ (List.cons_ne_nil w ws)]
      constructor
      · intro h
        obtain ⟨t, rfl, ht⟩ | ⟨t, rfl, ht⟩ := List.append_eq_append_iff.1 h
        · cases t with
          | nil =>
            obtain ⟨-, rfl⟩ := List.cons.inj ht
            exact ⟨[], v, w, ws, rfl, by simp, rfl⟩
          | cons d t =>
            obtain ⟨rfl, htail⟩ := List.cons.inj ht
            obtain ⟨us, u, x, xs, hsplit, rfl, rfl⟩ := (ih hws).1 htail
            refine ⟨v :: us, u, x, xs, by rw [hsplit]; rfl, ?_, rfl⟩
            exact (hjoin (us ++ [u]) (List.append_ne_nil_of_right_ne_nil us (List.cons_ne_nil u []))).symm
        · cases t with
          | nil =>
            obtain ⟨-, rfl⟩ := List.cons.inj ht
            exact ⟨[], a, w, ws, by simp, by simp, rfl⟩
          | cons d t =>
            obtain ⟨rfl, -⟩ := List.cons.inj ht
            exact absurd (List.mem_append_right a List.mem_cons_self) hv
      · rintro ⟨us, u, x, xs, hsplit, rfl, rfl⟩
        cases us with
        | nil =>
          obtain ⟨rfl, htail⟩ := List.cons.inj hsplit
          rw [htail]
          simp
        | cons t us =>
          obtain ⟨rfl, htail⟩ := List.cons.inj hsplit
          rw [(ih hws).2 ⟨us, u, x, xs, htail, rfl, rfl⟩, List.cons_append,
            hjoin (us ++ [u]) (List.append_ne_nil_of_right_ne_nil us (List.cons_ne_nil u [])),
            List.append_assoc, List.cons_append]

/-- In a spaced text a separator has a character of a word on either side. -/
theorem trimmed_single_iff (hsep : p sep = true) (honly : ∀ c ∈ cs, p c = true → c = sep) :
    (Trimmed p cs ∧ ¬ [sep, sep] <:+: cs) ↔ ∀ a b, cs = a ++ sep :: b →
      (∃ c ∈ a.getLast?, p c = false) ∧ ∃ c ∈ b.head?, p c = false := by
  constructor
  · rintro ⟨htrimmed, hsingle⟩ a b rfl
    constructor
    · cases a using List.reverseRecOn with
      | nil => exact absurd ((htrimmed.leading sep rfl).symm.trans hsep) Bool.false_ne_true
      | append_singleton a c =>
        refine ⟨c, by simp, Bool.eq_false_iff.2 fun hc => ?_⟩
        obtain rfl := honly c (by simp) hc
        exact hsingle ⟨a, b, by simp⟩
    · cases b with
      | nil => exact absurd ((htrimmed.trailing sep (by simp)).symm.trans hsep) Bool.false_ne_true
      | cons c b =>
        refine ⟨c, rfl, Bool.eq_false_iff.2 fun hc => ?_⟩
        obtain rfl := honly c (by simp) hc
        exact hsingle ⟨a, b, by simp⟩
  · intro h
    refine ⟨⟨?_, ?_⟩, ?_⟩
    · intro c hc
      refine Bool.eq_false_iff.2 fun hpc => ?_
      obtain ⟨b, rfl⟩ : ∃ b, cs = c :: b := List.head?_eq_some_iff.1 hc
      obtain rfl := honly c List.mem_cons_self hpc
      obtain ⟨⟨d, hd, -⟩, -⟩ := h [] b rfl
      cases hd
    · intro c hc
      refine Bool.eq_false_iff.2 fun hpc => ?_
      obtain ⟨a, rfl⟩ : ∃ a, cs = a ++ [c] := List.getLast?_eq_some_iff.1 hc
      obtain rfl := honly c (by simp) hpc
      obtain ⟨-, d, hd, -⟩ := h a [] rfl
      cases hd
    · rintro ⟨a, b, rfl⟩
      obtain ⟨-, d, hd, hpd⟩ := h a (sep :: b) (by simp)
      obtain rfl : sep = d := by simpa using hd
      rw [hsep] at hpd
      cases hpd

theorem intercalate_concat {us : List (List α)} (hus : us ≠ []) (v : List α) :
    [sep].intercalate (us ++ [v]) = [sep].intercalate us ++ sep :: v := by
  induction us with
  | nil => exact absurd rfl hus
  | cons u us ih =>
    cases us with
    | nil => simp
    | cons t us =>
      have htail := ih (List.cons_ne_nil t us)
      rw [List.cons_append, List.cons_append, List.intercalate_cons_cons, List.intercalate_cons_cons,
        ← List.cons_append, htail, List.append_assoc _ _ (sep :: v)]

theorem last_intercalate_iff (hsep : p sep = true) {us : List (List α)} {v : List α} (hv : ∀ c ∈ v, p c = false) :
    (∃ c ∈ ([sep].intercalate (us ++ [v])).getLast?, p c = false) ↔ v ≠ [] := by
  constructor
  · rintro ⟨c, hc, hpc⟩ rfl
    by_cases hus : us = []
    · subst hus
      cases hc
    · rw [intercalate_concat hus] at hc
      obtain rfl : sep = c := by simpa using hc
      exact absurd (hpc.symm.trans hsep) Bool.false_ne_true
  · intro hne
    have hlast : ([sep].intercalate (us ++ [v])).getLast? = v.getLast? := by
      by_cases hus : us = []
      · subst hus
        simp
      · rw [intercalate_concat hus, List.append_cons, List.getLast?_append_of_ne_nil _ hne]
    rw [hlast]
    exact ⟨v.getLast hne, List.getLast?_eq_getLast_of_ne_nil hne, hv _ (List.getLast_mem hne)⟩

theorem head_intercalate_iff (hsep : p sep = true) {w : List α} {ws : List (List α)} (hw : ∀ c ∈ w, p c = false)
    (m : ℕ) : (∃ c ∈ (([sep].intercalate (w :: ws)).take m).head?, p c = false) ↔ w ≠ [] ∧ 0 < m := by
  cases m with
  | zero => simp
  | succ m =>
    cases w with
    | nil =>
      cases ws with
      | nil => simp
      | cons w ws => simp [hsep]
    | cons c w =>
      rw [List.intercalate_cons_cons_left]
      simpa using hw c List.mem_cons_self

theorem take_append_cons {n : ℕ} {a : List α} (h : a.length < n) (b : List α) :
    (a ++ c :: b).take n = a ++ c :: b.take (n - (a.length + 1)) := by
  obtain ⟨m, hm⟩ : ∃ m, n - a.length = m + 1 := ⟨n - (a.length + 1), by omega⟩
  rw [List.take_append, List.take_of_length_le h.le, hm, List.take_succ_cons, show n - (a.length + 1) = m by omega]

theorem take_eq_append_cons_iff {n : ℕ} {a b : List α} : cs.take n = a ++ c :: b ↔
    a.length < n ∧ ∃ b', cs = a ++ c :: b' ∧ b = b'.take (n - (a.length + 1)) := by
  constructor
  · intro h
    have hlt : a.length < n := by
      have hlen := congrArg List.length h
      have hle := List.length_take_le n cs
      simp only [List.length_append, List.length_cons] at hlen
      omega
    obtain ⟨b', rfl⟩ : a ++ [c] <+: cs := by
      refine List.IsPrefix.trans ⟨b, ?_⟩ (List.take_prefix n cs)
      rw [h, List.append_assoc, List.singleton_append]
    rw [List.append_assoc, List.singleton_append] at h ⊢
    rw [take_append_cons hlt] at h
    exact ⟨hlt, b', rfl, (List.cons.inj (List.append_cancel_left h)).2.symm⟩
  · rintro ⟨hlt, b', rfl, rfl⟩
    exact take_append_cons hlt b'

/-- How far a joined text may be cut. -/
theorem spaced_take_iff (hsep : p sep = true) {vs : List (List α)} (hvs : ∀ v ∈ vs, ∀ c ∈ v, p c = false)
    (n : ℕ) : Spaced p sep (([sep].intercalate vs).take n) ↔ ∀ us v w ws, vs = us ++ v :: w :: ws →
      ([sep].intercalate (us ++ [v])).length < n →
        v ≠ [] ∧ w ≠ [] ∧ ([sep].intercalate (us ++ [v])).length + 1 < n := by
  have honly : ∀ c ∈ ([sep].intercalate vs).take n, p c = true → c = sep := by
    intro c hc hpc
    obtain rfl | ⟨v, hv, hcv⟩ := mem_intercalate (List.mem_of_mem_take hc)
    · rfl
    · exact absurd ((hvs v hv c hcv).symm.trans hpc) Bool.false_ne_true
  have hfree : ∀ v ∈ vs, sep ∉ v := by
    intro v hv hmem
    exact absurd ((hvs v hv sep hmem).symm.trans hsep) Bool.false_ne_true
  have hspaced : Spaced p sep (([sep].intercalate vs).take n) ↔
      (Trimmed p (([sep].intercalate vs).take n) ∧ ¬ [sep, sep] <:+: ([sep].intercalate vs).take n) :=
    ⟨fun h => ⟨h.toTrimmed, h.single⟩, fun h => ⟨h.1, honly, h.2⟩⟩
  rw [hspaced, trimmed_single_iff hsep honly]
  constructor
  · rintro h us v w ws rfl hlt
    have hcut := h _ _ (take_eq_append_cons_iff.2
      ⟨hlt, _, (intercalate_eq_iff hfree).2 ⟨us, v, w, ws, rfl, rfl, rfl⟩, rfl⟩)
    have hv := hvs v (by simp)
    have hw := hvs w (by simp)
    rw [last_intercalate_iff hsep hv, head_intercalate_iff hsep hw] at hcut
    exact ⟨hcut.1, hcut.2.1, by omega⟩
  · intro h a b hcut
    obtain ⟨hlt, b', hjoin, rfl⟩ := take_eq_append_cons_iff.1 hcut
    obtain ⟨us, v, w, ws, rfl, rfl, rfl⟩ := (intercalate_eq_iff hfree).1 hjoin
    have hv := hvs v (by simp)
    have hw := hvs w (by simp)
    obtain ⟨hvne, hwne, hroom⟩ := h us v w ws rfl hlt
    rw [last_intercalate_iff hsep hv, head_intercalate_iff hsep hw]
    exact ⟨hvne, hwne, by omega⟩

end EvalEngine.WordRuns
