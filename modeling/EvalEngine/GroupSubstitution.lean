import EvalEngine.RegularExpressions
import Mathlib.Data.List.TakeWhile

namespace EvalEngine.GroupSubstitution

open EvalEngine.RegularExpressions

variable {α : Type}

/-- Where the group and the match of `(r)s` may end, in the order of the search. -/
def groupEnds (r s : Regex α) (place : Place α) : List (Place α × Place α) :=
  (r.ends place).flatMap fun mid => (s.ends mid).map (Prod.mk mid)

/-- `re.sub` with the pattern `(r)s` on the rest of a text, for a pattern that no
empty text matches. The first `skip` characters belong to the match before. -/
def subGroup (r s : Regex α) (repl : List α → List α) : ℕ → Option α → List α → List α
  | _, _, [] => []
  | skip + 1, _, c :: cs => subGroup r s repl skip (some c) cs
  | 0, b, c :: cs =>
    match (groupEnds r s ⟨b, c :: cs⟩).head? with
    | none => c :: subGroup r s repl 0 (some c) cs
    | some (mid, stop) =>
      repl ((c :: cs).take ((c :: cs).length - mid.rest.length)) ++
        subGroup r s repl (cs.length - stop.rest.length) (some c) cs

def sub (r s : Regex α) (repl : List α → List α) (cs : List α) : List α := subGroup r s repl 0 none cs

/-- The group, the run behind it and the rest, where `(r)p+` matches the front of a text. -/
structure Splits (r : Regex α) (p : α → Bool) (cs g run rest : List α) : Prop where
  text : cs = g ++ (run ++ rest)
  group : r.Matches g
  nonempty : run ≠ []
  chars : ∀ c ∈ run, p c = true
  stop : ∀ c ∈ rest.head?, p c = false

def MatchesAt (r : Regex α) (p : α → Bool) (cs : List α) : Prop := ∃ g run rest, Splits r p cs g run rest

/-- A group begins with a character of the class, and the next one behind the
group decides where it ends. -/
structure Determined (r : Regex α) (p : α → Bool) : Prop where
  isLocal : r.Local
  nonempty : ¬ r.Matches []
  front : ∀ {c : α} {g : List α}, r.Matches (c :: g) → p c = true
  unique : ∀ {g g' cs cs' : List α}, r.Matches g → r.Matches g' → g ++ cs = g' ++ cs' →
    (∃ c ∈ cs.head?, p c = true) → (∃ c ∈ cs'.head?, p c = true) → g = g'

variable {r : Regex α} {p : α → Bool} {repl : List α → List α} {cs g run rest : List α}

theorem takeWhile_append_stop {b : α} (hb : p b = false) (cs rest : List α) :
    (cs ++ b :: rest).takeWhile p = cs.takeWhile p := by
  induction cs with
  | nil => exact List.takeWhile_cons_of_neg (Bool.eq_false_iff.1 hb)
  | cons c cs ih =>
    by_cases hc : p c = true
    · rw [List.cons_append, List.takeWhile_cons_of_pos hc, List.takeWhile_cons_of_pos hc, ih]
    · rw [List.cons_append, List.takeWhile_cons_of_neg hc, List.takeWhile_cons_of_neg hc]

theorem head_dropWhile (cs : List α) : ∀ c ∈ (cs.dropWhile p).head?, p c = false := by
  intro c hc
  have hfirst := List.head?_dropWhile_not p cs
  rw [show (cs.dropWhile p).head? = some c from hc] at hfirst
  simpa using hfirst

theorem head_repeated (b : Option α) (cs : List α) :
    ∃ b₁, (repeated p b cs).head? = some ⟨b₁, cs.dropWhile p⟩ := by
  induction cs generalizing b with
  | nil => exact ⟨b, rfl⟩
  | cons c cs ih =>
    rw [repeated]
    by_cases hc : p c = true
    · obtain ⟨b₁, hb⟩ := ih (some c)
      rw [if_pos hc, List.dropWhile_cons_of_pos hc, List.head?_append, hb]
      exact ⟨b₁, rfl⟩
    · rw [if_neg hc, List.dropWhile_cons_of_neg hc]
      exact ⟨b, rfl⟩

theorem head_plus {mid stop : Place α} (h : ((Regex.plus p).ends mid).head? = some stop) :
    ∃ run, run ≠ [] ∧ (∀ c ∈ run, p c = true) ∧ mid.rest = run ++ stop.rest ∧ ∀ c ∈ stop.rest.head?, p c = false := by
  obtain ⟨b, cs⟩ := mid
  cases cs with
  | nil => cases h
  | cons c cs =>
    by_cases hc : p c = true
    · have hends : (Regex.plus p).ends ⟨b, c :: cs⟩ = repeated p (some c) cs := by
        simp [Regex.plus, Regex.ends, single, hc]
      obtain ⟨b₁, hhead⟩ := head_repeated (p := p) (some c) cs
      rw [hends, hhead] at h
      obtain rfl := Option.some.inj h
      refine ⟨c :: cs.takeWhile p, List.cons_ne_nil _ _, ?_, by simp, head_dropWhile cs⟩
      exact List.forall_mem_cons.2 ⟨hc, fun d hd => List.mem_takeWhile_imp hd⟩
    · simp [Regex.plus, Regex.ends, single, hc] at h

theorem Splits.front (h : Splits r p cs g run rest) : ∃ c ∈ (run ++ rest).head?, p c = true := by
  obtain ⟨c, run, rfl⟩ := List.exists_cons_of_ne_nil h.nonempty
  exact ⟨c, rfl, h.chars c List.mem_cons_self⟩

/-- What the search finds first is a match of the pattern. -/
theorem splits_of_head (hr : r.Local) {b : Option α} {mid stop : Place α}
    (h : (groupEnds r (.plus p) ⟨b, cs⟩).head? = some (mid, stop)) :
    ∃ g run, Splits r p cs g run stop.rest ∧ mid.rest = run ++ stop.rest := by
  unfold groupEnds at h
  rw [List.head?_flatMap] at h
  obtain ⟨mid', hmem, hhead⟩ := List.exists_of_findSome?_eq_some h
  rw [List.head?_map] at hhead
  obtain ⟨stop', hstop, heq⟩ := Option.map_eq_some_iff.1 hhead
  obtain ⟨rfl, rfl⟩ := Prod.mk.inj heq
  obtain ⟨g, hg, hmatches⟩ := (mem_ends_iff hr).1 ⟨mid'.before, hmem⟩
  obtain ⟨run, hne, hrun, hrest, hlast⟩ := head_plus hstop
  exact ⟨g, run, ⟨by rw [hg, hrest], hmatches, hne, hrun, hlast⟩, hrest⟩

theorem head_of_splits (hr : r.Local) (h : Splits r p cs g run rest) (b : Option α) :
    (groupEnds r (.plus p) ⟨b, cs⟩).head? ≠ none := by
  obtain ⟨b₁, hmid⟩ := (mem_ends_iff hr (b := b)).2 ⟨g, h.text, h.group⟩
  obtain ⟨b₂, hstop⟩ := (mem_ends_iff (r := Regex.plus p) ⟨trivial, trivial⟩ (b := b₁)).2
    ⟨run, rfl, matches_plus.2 ⟨h.nonempty, h.chars⟩⟩
  rw [ne_eq, List.head?_eq_none_iff]
  exact List.ne_nil_of_mem (List.mem_flatMap.2 ⟨_, hmid, List.mem_map_of_mem hstop⟩)

theorem Splits.takeWhile (h : Splits r p cs g run rest) : (run ++ rest).takeWhile p = run := by
  rw [List.takeWhile_append_of_pos h.chars]
  cases hrest : rest with
  | nil => simp
  | cons c rest =>
    have hc : ¬ p c = true := Bool.eq_false_iff.1 (h.stop c (by rw [hrest]; rfl))
    rw [List.takeWhile_cons_of_neg hc, List.append_nil]

section Determined

variable (hdet : Determined r p)
include hdet

theorem Splits.unique {g' run' rest' : List α} (h : Splits r p cs g run rest) (h' : Splits r p cs g' run' rest') :
    g = g' ∧ run = run' ∧ rest = rest' := by
  obtain rfl : g = g' := hdet.unique h.group h'.group (h.text.symm.trans h'.text) h.front h'.front
  have hbehind : run ++ rest = run' ++ rest' := List.append_cancel_left (h.text.symm.trans h'.text)
  obtain rfl : run = run' := by rw [← h.takeWhile, hbehind, h'.takeWhile]
  exact ⟨rfl, rfl, List.append_cancel_left hbehind⟩

theorem Splits.head (h : Splits r p cs g run rest) (b : Option α) : ∃ mid stop,
    (groupEnds r (.plus p) ⟨b, cs⟩).head? = some (mid, stop) ∧ mid.rest = run ++ rest ∧ stop.rest = rest := by
  obtain ⟨⟨mid, stop⟩, hhead⟩ := Option.ne_none_iff_exists'.1 (head_of_splits hdet.isLocal h b)
  obtain ⟨g', run', h', hmid⟩ := splits_of_head hdet.isLocal hhead
  obtain ⟨rfl, rfl, hrest⟩ := h.unique hdet h'
  exact ⟨mid, stop, hhead, hrest ▸ hmid, hrest.symm⟩

theorem head_of_not_matchesAt (h : ¬ MatchesAt r p cs) (b : Option α) :
    (groupEnds r (.plus p) ⟨b, cs⟩).head? = none := by
  by_contra hne
  obtain ⟨⟨mid, stop⟩, hhead⟩ := Option.ne_none_iff_exists'.1 hne
  obtain ⟨g, run, hsplits, -⟩ := splits_of_head hdet.isLocal hhead
  exact h ⟨g, run, _, hsplits⟩

/-- What stands before the text does not matter. -/
theorem subGroup_before (skip : ℕ) (b b' : Option α) (cs : List α) :
    subGroup r (.plus p) repl skip b cs = subGroup r (.plus p) repl skip b' cs := by
  induction cs generalizing skip b b' with
  | nil => simp only [subGroup]
  | cons c cs ih =>
    cases skip with
    | succ skip => rfl
    | zero =>
      by_cases hm : MatchesAt r p (c :: cs)
      · obtain ⟨g, run, rest, h⟩ := hm
        obtain ⟨mid, stop, hhead, hmid, hstop⟩ := h.head hdet b
        obtain ⟨mid', stop', hhead', hmid', hstop'⟩ := h.head hdet b'
        simp only [subGroup, hhead, hhead', hmid, hmid', hstop, hstop']
      · simp only [subGroup, head_of_not_matchesAt hdet hm]

theorem subGroup_skip (front rest : List α) (b : Option α) :
    subGroup r (.plus p) repl front.length b (front ++ rest) = sub r (.plus p) repl rest := by
  induction front generalizing b with
  | nil => exact subGroup_before hdet 0 b none rest
  | cons c front ih => exact ih (some c)

theorem sub_of_splits (h : Splits r p cs g run rest) :
    sub r (.plus p) repl cs = repl g ++ sub r (.plus p) repl rest := by
  obtain ⟨c, g', rfl⟩ : ∃ c g', g = c :: g' := by
    refine List.exists_cons_of_ne_nil ?_
    rintro rfl
    exact hdet.nonempty h.group
  obtain ⟨mid, stop, hhead, hmid, hstop⟩ := h.head hdet none
  obtain rfl := h.text
  rw [List.cons_append] at hhead ⊢
  have htake : (c :: (g' ++ (run ++ rest))).take ((c :: (g' ++ (run ++ rest))).length - (run ++ rest).length) =
      c :: g' := by
    rw [← List.cons_append, List.length_append, Nat.add_sub_cancel, List.take_left]
  have hskip : (g' ++ (run ++ rest)).length - rest.length = (g' ++ run).length := by
    rw [← List.append_assoc, List.length_append, Nat.add_sub_cancel]
  rw [sub, subGroup, hhead]
  dsimp only
  rw [hmid, hstop, htake, hskip, ← List.append_assoc g', subGroup_skip hdet]

theorem sub_of_not_matchesAt {c : α} (h : ¬ MatchesAt r p (c :: cs)) :
    sub r (.plus p) repl (c :: cs) = c :: sub r (.plus p) repl cs := by
  rw [sub, subGroup, head_of_not_matchesAt hdet h]
  dsimp only
  rw [subGroup_before hdet 0 (some c) none, sub]

end Determined

@[simp] theorem sub_nil : sub r (.plus p) repl [] = [] := by
  rw [sub, subGroup]

theorem not_matchesAt_of_not_starts (hr : r.Local) {b : Option α}
    (h : (Regex.seq r (.plus p)).startsAt ⟨b, cs⟩ = false) : ¬ MatchesAt r p cs := by
  rintro ⟨g, run, rest, hsplits⟩
  have hends : (Regex.seq r (.plus p)).ends ⟨b, cs⟩ = [] := by simpa [Regex.startsAt] using h
  have hgroup : groupEnds r (.plus p) ⟨b, cs⟩ = [] := by
    have hmap : (groupEnds r (.plus p) ⟨b, cs⟩).map Prod.snd = (Regex.seq r (.plus p)).ends ⟨b, cs⟩ := by
      simp [groupEnds, Regex.ends, List.map_flatMap, Function.comp_def]
    rwa [hends, List.map_eq_nil_iff] at hmap
  exact head_of_splits hr hsplits b (by rw [hgroup]; rfl)

theorem sub_of_not_search (hdet : Determined r p) {b : Option α}
    (h : (Regex.seq r (.plus p)).search b cs = false) : sub r (.plus p) repl cs = cs := by
  induction cs generalizing b with
  | nil => exact sub_nil
  | cons c cs ih =>
    obtain ⟨hstarts, hsearch⟩ := Bool.or_eq_false_iff.1 h
    rw [sub_of_not_matchesAt hdet (not_matchesAt_of_not_starts hdet.isLocal hstarts), ih hsearch]

theorem matchesAt_of_group {y : List α} (hg : r.Matches g) (hy : ∃ c ∈ y.head?, p c = true) :
    MatchesAt r p (g ++ y) := by
  obtain ⟨c, hhead, hc⟩ := hy
  obtain ⟨y, rfl⟩ : ∃ y', y = c :: y' := List.head?_eq_some_iff.1 hhead
  refine ⟨g, c :: y.takeWhile p, y.dropWhile p, by simp, hg, List.cons_ne_nil _ _, ?_, head_dropWhile y⟩
  exact List.forall_mem_cons.2 ⟨hc, fun d hd => List.mem_takeWhile_imp hd⟩

/-- A text of the class whose first character is in no group. -/
structure Stamp (r : Regex α) (p : α → Bool) (c : α) (stamp : List α) : Prop where
  chars : ∀ d ∈ c :: stamp, p d = true
  fresh : ∀ g, r.Matches g → c ∉ g

section Stamped

variable {star : α} {stamp : List α} (hdet : Determined r p) (hstamp : Stamp r p star stamp)
include hdet

/-- Where no match begins, the text goes on as it did. -/
theorem head_sub {cs : List α} (h : ∀ c ∈ cs.head?, p c = false) : ∀ c ∈ (sub r (.plus p) repl cs).head?, p c = false := by
  cases cs with
  | nil =>
    rw [sub_nil]
    exact fun c hc => nomatch hc
  | cons c cs =>
    have hc := h c rfl
    have hnone : ¬ MatchesAt r p (c :: cs) := by
      rintro ⟨g, run, rest, hsplits⟩
      cases g with
      | nil => exact hdet.nonempty hsplits.group
      | cons d g =>
        obtain ⟨rfl, -⟩ := List.cons.inj hsplits.text
        exact Bool.false_ne_true (hc.symm.trans (hdet.front hsplits.group))
    rw [sub_of_not_matchesAt hdet hnone]
    exact h

/-- A piece of the new text that no stamp is in was there before. -/
theorem piece_of_sub (cs : List α) {w y : List α} (hw : star ∉ w) (hy : ∃ c ∈ y.head?, p c = true)
    (h : sub r (.plus p) (· ++ star :: stamp) cs = w ++ y) : ∃ y', cs = w ++ y' ∧ ∃ c ∈ y'.head?, p c = true := by
  induction hn : cs.length using Nat.strong_induction_on generalizing cs w y with
  | _ n ih =>
    by_cases hm : MatchesAt r p cs
    · obtain ⟨g, run, rest, hsplits⟩ := hm
      rw [sub_of_splits hdet hsplits, List.append_assoc] at h
      obtain ⟨t, rfl, ht⟩ | ⟨t, rfl, rfl⟩ := List.append_eq_append_iff.1 h
      · cases t with
        | nil => exact ⟨run ++ rest, by rw [List.append_nil]; exact hsplits.text, hsplits.front⟩
        | cons d t =>
          obtain ⟨rfl, -⟩ := List.cons.inj ht
          exact absurd (by simp) hw
      · refine ⟨t ++ (run ++ rest), by rw [hsplits.text, List.append_assoc], ?_⟩
        cases t with
        | nil => exact hsplits.front
        | cons d t => simpa using hy
    · cases cs with
      | nil =>
        rw [sub_nil] at h
        obtain ⟨-, rfl⟩ := List.append_eq_nil_iff.1 h.symm
        obtain ⟨c, hc, -⟩ := hy
        cases hc
      | cons c cs =>
        rw [sub_of_not_matchesAt hdet hm] at h
        cases w with
        | nil =>
          obtain rfl : c :: sub r (.plus p) (· ++ star :: stamp) cs = y := h
          exact ⟨c :: cs, rfl, hy⟩
        | cons d w =>
          obtain ⟨rfl, htail⟩ := List.cons.inj h
          obtain ⟨y', rfl, hy'⟩ := ih cs.length (by simp only [List.length_cons] at hn; omega) cs
            (fun hmem => hw (List.mem_cons_of_mem _ hmem)) hy htail rfl
          exact ⟨y', rfl, hy'⟩

include hstamp

theorem Splits.stamped (h : Splits r p cs g run rest) :
    Splits r p (g ++ (star :: stamp ++ sub r (.plus p) (· ++ star :: stamp) rest)) g (star :: stamp)
      (sub r (.plus p) (· ++ star :: stamp) rest) :=
  ⟨rfl, h.group, List.cons_ne_nil _ _, hstamp.chars, head_sub hdet h.stop⟩

theorem not_matchesAt_sub {c : α} (h : ¬ MatchesAt r p (c :: cs)) :
    ¬ MatchesAt r p (c :: sub r (.plus p) (· ++ star :: stamp) cs) := by
  rintro ⟨g, run, rest, hsplits⟩
  obtain ⟨d, g, rfl⟩ : ∃ d g', g = d :: g' := by
    refine List.exists_cons_of_ne_nil ?_
    rintro rfl
    exact hdet.nonempty hsplits.group
  obtain ⟨rfl, htail⟩ := List.cons.inj hsplits.text
  have hfresh : star ∉ g := fun hmem => hstamp.fresh _ hsplits.group (List.mem_cons_of_mem _ hmem)
  obtain ⟨y, rfl, hy⟩ := piece_of_sub hdet cs hfresh hsplits.front htail
  exact h (matchesAt_of_group hsplits.group hy)

/-- What has been replaced once is left as it is. -/
theorem sub_sub (cs : List α) :
    sub r (.plus p) (· ++ star :: stamp) (sub r (.plus p) (· ++ star :: stamp) cs) =
      sub r (.plus p) (· ++ star :: stamp) cs := by
  induction hn : cs.length using Nat.strong_induction_on generalizing cs with
  | _ n ih =>
    by_cases hm : MatchesAt r p cs
    · obtain ⟨g, run, rest, hsplits⟩ := hm
      have hlt : rest.length < n := by
        have hlength := congrArg List.length hsplits.text
        have hpos := List.length_pos_iff.2 hsplits.nonempty
        simp only [List.length_append] at hlength
        omega
      rw [sub_of_splits hdet hsplits, List.append_assoc, sub_of_splits hdet (hsplits.stamped hdet hstamp),
        ih _ hlt rest rfl, List.append_assoc]
    · cases cs with
      | nil => simp
      | cons c cs =>
        have hlt : cs.length < n := by
          simp only [List.length_cons] at hn
          omega
        rw [sub_of_not_matchesAt hdet hm, sub_of_not_matchesAt hdet (not_matchesAt_sub hdet hstamp hm),
          ih _ hlt cs rfl]

end Stamped

/-- The scan for matches comes to the rest of a text, and no match before
reaches into it. -/
inductive Reaches (r : Regex α) (p : α → Bool) : List α → List α → Prop
  | here (rest : List α) : Reaches r p [] rest
  | step {c : α} {front rest : List α} : ¬ MatchesAt r p (c :: (front ++ rest)) → Reaches r p front rest →
      Reaches r p (c :: front) rest
  | jump {g run front rest : List α} : Splits r p (g ++ (run ++ (front ++ rest))) g run (front ++ rest) →
      Reaches r p front rest → Reaches r p (g ++ (run ++ front)) rest

/-- A word of the class with a character behind it that is not of the class. No
match takes them into its group, unless it begins with the word. -/
structure Marker (r : Regex α) (p : α → Bool) (w : List α) (b : α) : Prop where
  nonempty : w ≠ []
  chars : ∀ c ∈ w, p c = true
  ends : p b = false
  inside : ∀ {u v : List α}, r.Matches (u ++ (w ++ b :: v)) → u = []

section Marked

variable {w : List α} {b : α} {u z : List α}

/-- A match that begins before the word ends before it, or takes it as the end of
its run. What stands behind the word does not matter. -/
theorem Splits.before_marker (hw : Marker r p w b) (hu : u ≠ []) (h : Splits r p (u ++ (w ++ b :: z)) g run rest) :
    (∃ t, u = g ++ (run ++ t) ∧ ∀ z', Splits r p (u ++ (w ++ b :: z')) g run (t ++ (w ++ b :: z'))) ∨
      g ++ run = u ++ w ∧ ∀ z', Splits r p (u ++ (w ++ b :: z')) g run (b :: z') := by
  have htext := h.text
  rw [← List.append_assoc] at htext
  -- the group ends before the character behind the word
  obtain ⟨x, hx, hbehind⟩ : ∃ x, u ++ w = g ++ x ∧ run ++ rest = x ++ b :: z := by
    obtain ⟨t, rfl, ht⟩ | ⟨x, hx, hbehind⟩ := List.append_eq_append_iff.1 htext
    · cases t with
      | nil => exact ⟨[], by simp, ht.symm⟩
      | cons d t =>
        obtain ⟨rfl, -⟩ := List.cons.inj ht
        have hgroup := h.group
        rw [List.append_assoc] at hgroup
        exact absurd (hw.inside hgroup) hu
    · exact ⟨x, hx, hbehind⟩
  have hrun : run = x.takeWhile p := by
    rw [← h.takeWhile, hbehind, takeWhile_append_stop hw.ends]
  have hsplit : x = run ++ x.dropWhile p := by
    rw [hrun, List.takeWhile_append_dropWhile]
  have hstop := head_dropWhile (p := p) x
  generalize x.dropWhile p = d at hsplit hstop
  subst hsplit
  rw [← List.append_assoc] at hx
  obtain ⟨t, ht, rfl⟩ | ⟨t, rfl, rfl⟩ := List.append_eq_append_iff.1 hx
  · have hnil : d = [] := by
      cases d with
      | nil => rfl
      | cons c d =>
        have hc := hw.chars c (by simp)
        rw [hstop c rfl] at hc
        cases hc
    subst hnil
    rw [List.append_nil]
    refine .inr ⟨ht, fun z' => ⟨?_, h.group, h.nonempty, h.chars, ?_⟩⟩
    · rw [← List.append_assoc, ← ht, List.append_assoc]
    · intro c hc
      obtain rfl : b = c := Option.some.inj hc
      exact hw.ends
  · refine .inl ⟨t, List.append_assoc g run t, fun z' => ⟨?_, h.group, h.nonempty, h.chars, ?_⟩⟩
    · simp only [List.append_assoc]
    · intro c hc
      apply hstop c
      rw [← List.append_assoc] at hc
      obtain ⟨d, ds, hd⟩ := List.exists_cons_of_ne_nil (List.append_ne_nil_of_right_ne_nil t hw.nonempty)
      rw [hd] at hc ⊢
      exact hc

theorem reaches_cons {c : α} {front rest : List α} (hm : ¬ MatchesAt r p (c :: (front ++ rest))) :
    Reaches r p (c :: front) rest ↔ Reaches r p front rest := by
  constructor
  · intro h
    generalize hfront : c :: front = cs at h
    cases h with
    | here => cases hfront
    | step _ h =>
      obtain ⟨rfl, rfl⟩ := List.cons.inj hfront
      exact h
    | @jump g run front' _ hsplits _ =>
      refine absurd ⟨g, run, front' ++ rest, ?_⟩ hm
      rw [← List.cons_append, hfront, List.append_assoc, List.append_assoc]
      exact hsplits
  · exact .step hm

variable (hdet : Determined r p)
include hdet

/-- A scan that comes to the rest has jumped over the match that it began with. -/
theorem Reaches.jumped {front rest rest' : List α} (h : Reaches r p front rest) (hne : front ≠ [])
    (hsplits : Splits r p (front ++ rest) g run rest') :
    ∃ front', front = g ++ (run ++ front') ∧ rest' = front' ++ rest ∧ Reaches r p front' rest := by
  cases h with
  | here => exact absurd rfl hne
  | step hm _ => exact absurd ⟨g, run, rest', hsplits⟩ hm
  | @jump g' run' front' _ hsplits' hreaches =>
    rw [List.append_assoc, List.append_assoc] at hsplits
    obtain ⟨rfl, rfl, rfl⟩ := hsplits.unique hdet hsplits'
    exact ⟨front', rfl, rfl, hreaches⟩

/-- A scan that comes to a text, and through the text to the rest, does so from
the text alone. -/
theorem Reaches.suffix {front q rest : List α} (h : Reaches r p front (q ++ rest))
    (hall : Reaches r p (front ++ q) rest) : Reaches r p q rest := by
  generalize hbehind : q ++ rest = behind at h
  induction h with
  | here => exact hall
  | step hm _ ih =>
    subst hbehind
    rw [← List.append_assoc] at hm
    exact ih ((reaches_cons hm).1 hall) rfl
  | @jump g run front _ hsplits _ ih =>
    subst hbehind
    have hne : g ++ (run ++ front) ++ q ≠ [] := by
      simp [hsplits.nonempty]
    obtain ⟨front', -, hfront', hreaches⟩ := hall.jumped hdet hne (by simpa [List.append_assoc] using hsplits)
    rw [← List.append_assoc] at hfront'
    obtain rfl := List.append_cancel_right hfront'
    exact ih hreaches rfl

/-- What comes before the word is replaced in one way, and the scan either comes
to the word or passes over it, whatever stands behind it. -/
theorem sub_before_marker (hw : Marker r p w b) (front : List α) : ∃ out,
    ((∀ z, Reaches r p front (w ++ b :: z)) ∧ ∀ z, sub r (.plus p) repl (front ++ (w ++ b :: z)) =
      out ++ sub r (.plus p) repl (w ++ b :: z)) ∨
    (∀ z, ¬ Reaches r p front (w ++ b :: z)) ∧ ∀ z, sub r (.plus p) repl (front ++ (w ++ b :: z)) =
      out ++ sub r (.plus p) repl (b :: z) := by
  induction hn : front.length using Nat.strong_induction_on generalizing front with
  | _ n ih =>
    obtain rfl | hne := eq_or_ne front []
    · exact ⟨[], .inl ⟨fun z => .here _, fun z => rfl⟩⟩
    by_cases hm : MatchesAt r p (front ++ (w ++ b :: []))
    · obtain ⟨g, run, rest, hsplits⟩ := hm
      obtain ⟨t, ht, hall⟩ | ⟨hcross, hall⟩ := hsplits.before_marker hw hne
      · -- the match ends before the word
        have hlt : t.length < n := by
          have hpos := List.length_pos_iff.2 hsplits.nonempty
          rw [← hn, ht]
          simp only [List.length_append]
          omega
        have hjump : ∀ z, Reaches r p front (w ++ b :: z) ↔ Reaches r p t (w ++ b :: z) := by
          intro z
          constructor
          · intro hreaches
            obtain ⟨t', ht', -, hreaches⟩ := hreaches.jumped hdet hne (hall z)
            obtain rfl : t = t' := List.append_cancel_left (List.append_cancel_left (ht.symm.trans ht'))
            exact hreaches
          · intro hreaches
            have hsplits := hall z
            rw [ht, List.append_assoc, List.append_assoc] at hsplits
            rw [ht]
            exact .jump hsplits hreaches
        simp only [hjump, sub_of_splits hdet (hall _)]
        obtain ⟨out, ⟨hreach, hout⟩ | ⟨hreach, hout⟩⟩ := ih _ hlt t rfl
        · exact ⟨repl g ++ out, .inl ⟨hreach, fun z => by rw [hout, List.append_assoc]⟩⟩
        · exact ⟨repl g ++ out, .inr ⟨hreach, fun z => by rw [hout, List.append_assoc]⟩⟩
      · refine ⟨repl g, .inr ⟨?_, fun z => sub_of_splits hdet (hall z)⟩⟩
        intro z hreaches
        obtain ⟨t, -, ht, -⟩ := hreaches.jumped hdet hne (hall z)
        have hlength := congrArg List.length ht
        have hpos := List.length_pos_iff.2 hw.nonempty
        simp only [List.length_append, List.length_cons] at hlength
        omega
    · obtain ⟨c, front, rfl⟩ := List.exists_cons_of_ne_nil hne
      have hnone : ∀ z, ¬ MatchesAt r p (c :: (front ++ (w ++ b :: z))) := by
        rintro z ⟨g, run, rest, hsplits⟩
        obtain ⟨t, -, hall⟩ | ⟨-, hall⟩ := Splits.before_marker hw hne hsplits
        · exact hm ⟨g, run, _, hall []⟩
        · exact hm ⟨g, run, _, hall []⟩
      have hlt : front.length < n := by
        simp only [List.length_cons] at hn
        omega
      simp only [reaches_cons (hnone _), List.cons_append, sub_of_not_matchesAt hdet (hnone _)]
      obtain ⟨out, ⟨hreach, hout⟩ | ⟨hreach, hout⟩⟩ := ih _ hlt front rfl
      · exact ⟨c :: out, .inl ⟨hreach, fun z => by rw [hout, List.cons_append]⟩⟩
      · exact ⟨c :: out, .inr ⟨hreach, fun z => by rw [hout, List.cons_append]⟩⟩

end Marked

end EvalEngine.GroupSubstitution
