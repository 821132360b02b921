import Mathlib.Data.List.Forall2

namespace EvalEngine.RegularExpressions

variable {α : Type}

/-- A pattern whose alternatives are tried in their order. -/
inductive Regex (α : Type)
  | one (p : α → Bool)
  | many (p : α → Bool)
  | boundary (word : α → Bool)
  | empty
  | seq (r s : Regex α)
  | alt (r s : Regex α)

/-- One or more characters of a class. -/
def Regex.plus (p : α → Bool) : Regex α := .seq (.one p) (.many p)

def Regex.opt (r : Regex α) : Regex α := .alt r .empty

def Regex.literal [DecidableEq α] : List α → Regex α
  | [] => .empty
  | c :: cs => .seq (.one (fun d => decide (d = c))) (Regex.literal cs)

/-- A place in a text: the character before it, and what follows. -/
structure Place (α : Type) where
  before : Option α
  rest : List α

def atBoundary (word : α → Bool) (place : Place α) : Bool :=
  place.before.any word != place.rest.head?.any word

/-- The ends of a greedy repetition, the longest first. -/
def repeated (p : α → Bool) : Option α → List α → List (Place α)
  | b, [] => [⟨b, []⟩]
  | b, c :: cs => if p c then repeated p (some c) cs ++ [⟨b, c :: cs⟩] else [⟨b, c :: cs⟩]

def single (p : α → Bool) : List α → List (Place α)
  | [] => []
  | c :: cs => if p c then [⟨some c, cs⟩] else []

/-- Where a match that starts here may end, in the order of the search. -/
def Regex.ends : Regex α → Place α → List (Place α)
  | .one p, place => single p place.rest
  | .many p, place => repeated p place.before place.rest
  | .boundary word, place => if atBoundary word place then [place] else []
  | .empty, place => [place]
  | .seq r s, place => (r.ends place).flatMap s.ends
  | .alt r s, place => r.ends place ++ s.ends place

def Regex.startsAt (r : Regex α) (place : Place α) : Bool := !(r.ends place).isEmpty

/-- Whether some match starts here or later. -/
def Regex.search (r : Regex α) : Option α → List α → Bool
  | b, [] => r.startsAt ⟨b, []⟩
  | b, c :: cs => r.startsAt ⟨b, c :: cs⟩ || r.search (some c) cs

/-- The length of the match that the search finds here; a match of nothing does not count. -/
def Regex.matchLength (r : Regex α) (place : Place α) : Nat :=
  (r.ends place).head?.elim 0 (fun stop => place.rest.length - stop.rest.length)

/-- The matches from left to right. The first `skip` characters belong to the
match before. -/
def Regex.scan (r : Regex α) : Nat → Option α → List α → List (List α)
  | _, _, [] => []
  | skip + 1, _, c :: cs => r.scan skip (some c) cs
  | 0, b, c :: cs =>
    if r.matchLength ⟨b, c :: cs⟩ = 0 then r.scan 0 (some c) cs
    else (c :: cs).take (r.matchLength ⟨b, c :: cs⟩) ::
      r.scan (r.matchLength ⟨b, c :: cs⟩ - 1) (some c) cs

def Regex.findall (r : Regex α) (cs : List α) : List (List α) := r.scan 0 none cs

/-- Patterns that look at the characters of their match alone. -/
def Regex.Local : Regex α → Prop
  | .boundary _ => False
  | .seq r s | .alt r s => r.Local ∧ s.Local
  | _ => True

theorem local_literal [DecidableEq α] (cs : List α) : (Regex.literal cs).Local := by
  induction cs with
  | nil => trivial
  | cons c cs ih => exact ⟨trivial, ih⟩

theorem mem_repeated_append {p : α → Bool} {cs : List α} {a b : Option α} {stop : Place α}
    (h : stop ∈ repeated p a cs) (v : List α) :
    ∃ b₁, ⟨b₁, stop.rest ++ v⟩ ∈ repeated p b (cs ++ v) := by
  induction cs generalizing a b with
  | nil =>
    obtain rfl := List.mem_singleton.1 h
    -- what the repetition takes of the added text is one more choice
    cases v with
    | nil => exact ⟨b, List.mem_singleton_self _⟩
    | cons d v =>
      refine ⟨b, ?_⟩
      simp only [List.nil_append, repeated]
      split
      · exact List.mem_append_right _ (List.mem_singleton_self _)
      · exact List.mem_singleton_self _
  | cons c cs ih =>
    simp only [repeated, List.cons_append] at h ⊢
    split at h
    next hp =>
      rw [if_pos hp]
      obtain h | h := List.mem_append.1 h
      · obtain ⟨b₁, hmem⟩ := ih (b := some c) h
        exact ⟨b₁, List.mem_append_left _ hmem⟩
      · obtain rfl := List.mem_singleton.1 h
        exact ⟨b, List.mem_append_right _ (List.mem_singleton_self _)⟩
    next hp =>
      rw [if_neg hp]
      obtain rfl := List.mem_singleton.1 h
      exact ⟨b, List.mem_singleton_self _⟩

/-- A match is still one when the text goes on. -/
theorem mem_ends_append {r : Regex α} (hr : r.Local) {cs : List α} {a b : Option α} {stop : Place α}
    (h : stop ∈ r.ends ⟨a, cs⟩) (v : List α) :
    ∃ b₁, ⟨b₁, stop.rest ++ v⟩ ∈ r.ends ⟨b, cs ++ v⟩ := by
  induction r generalizing cs a b stop with
  | one p =>
    cases cs with
    | nil => cases h
    | cons c cs =>
      simp only [Regex.ends, single, List.cons_append] at h ⊢
      split at h
      next hp =>
        obtain rfl := List.mem_singleton.1 h
        rw [if_pos hp]
        exact ⟨some c, List.mem_singleton_self _⟩
      next => cases h
  | many p => exact mem_repeated_append h v
  | boundary word => exact absurd hr id
  | empty =>
    obtain rfl := List.mem_singleton.1 h
    exact ⟨b, List.mem_singleton_self _⟩
  | seq r s ihr ihs =>
    obtain ⟨mid, hmid, hstop⟩ := List.mem_flatMap.1 h
    obtain ⟨b₁, hmid'⟩ := ihr hr.1 (b := b) hmid
    obtain ⟨b₂, hstop'⟩ := ihs hr.2 (b := b₁) hstop
    exact ⟨b₂, List.mem_flatMap.2 ⟨_, hmid', hstop'⟩⟩
  | alt r s ihr ihs =>
    obtain h | h := List.mem_append.1 h
    · obtain ⟨b₁, h⟩ := ihr hr.1 (b := b) h
      exact ⟨b₁, List.mem_append_left _ h⟩
    · obtain ⟨b₁, h⟩ := ihs hr.2 (b := b) h
      exact ⟨b₁, List.mem_append_right _ h⟩

theorem startsAt_append {r : Regex α} (hr : r.Local) {cs : List α} {a b : Option α}
    (h : r.startsAt ⟨a, cs⟩ = true) (v : List α) : r.startsAt ⟨b, cs ++ v⟩ = true := by
  simp only [Regex.startsAt, Bool.not_eq_true', List.isEmpty_eq_false_iff_exists_mem] at h ⊢
  obtain ⟨stop, hstop⟩ := h
  obtain ⟨b₁, hmem⟩ := mem_ends_append hr (b := b) hstop v
  exact ⟨_, hmem⟩

theorem search_of_startsAt {r : Regex α} {a : Option α} {cs : List α}
    (h : r.startsAt ⟨a, cs⟩ = true) : r.search a cs = true := by
  cases cs with
  | nil => exact h
  | cons c cs => simp only [Regex.search, h, Bool.true_or]

/-- What is found in a text is found when the text goes on. -/
theorem search_append_left {r : Regex α} (hr : r.Local) {cs : List α} {a b : Option α}
    (h : r.search a cs = true) (v : List α) : r.search b (cs ++ v) = true := by
  induction cs generalizing a b with
  | nil => exact search_of_startsAt (startsAt_append hr h v)
  | cons c cs ih =>
    obtain h | h := Bool.or_eq_true_iff.1 h
    · exact search_of_startsAt (startsAt_append hr h v)
    · exact Bool.or_eq_true_iff.2 (.inr (ih h))

theorem search_append_right {r : Regex α} (hr : r.Local) {cs : List α} {a b : Option α}
    (h : r.search a cs = true) (v : List α) : r.search b (v ++ cs) = true := by
  induction v generalizing b with
  | nil =>
    have happ := search_append_left hr (b := b) h []
    rwa [List.append_nil] at happ
  | cons d v ih => exact Bool.or_eq_true_iff.2 (.inr ih)

/-- Patterns no class of which has the character. -/
def Regex.Avoids (sep : α) : Regex α → Prop
  | .one p | .many p | .boundary p => p sep = false
  | .empty => True
  | .seq r s | .alt r s => r.Avoids sep ∧ s.Avoids sep

def Place.extend (v : List α) (place : Place α) : Place α := ⟨place.before, place.rest ++ v⟩

theorem repeated_extend {p : α → Bool} {sep : α} (hp : p sep = false) (v : List α)
    (b : Option α) (cs : List α) :
    repeated p b (cs ++ sep :: v) = (repeated p b cs).map (Place.extend (sep :: v)) := by
  induction cs generalizing b with
  | nil => simp [repeated, hp, Place.extend]
  | cons c cs ih =>
    simp only [List.cons_append, repeated]
    split
    · rw [ih, List.map_append]
      rfl
    · rfl

theorem ends_extend {r : Regex α} {sep : α} (hr : r.Avoids sep) (v : List α) (place : Place α) :
    r.ends (place.extend (sep :: v)) = (r.ends place).map (Place.extend (sep :: v)) := by
  induction r generalizing place with
  | one p =>
    obtain ⟨b, cs⟩ := place
    cases cs with
    | nil =>
      have hsep : p sep = false := hr
      simp [Regex.ends, single, Place.extend, hsep]
    | cons c cs =>
      simp only [Regex.ends, single, Place.extend, List.cons_append]
      split <;> rfl
  | many p => exact repeated_extend hr v place.before place.rest
  | boundary word =>
    have hsame : atBoundary word (place.extend (sep :: v)) = atBoundary word place := by
      obtain ⟨b, cs⟩ := place
      have hsep : word sep = false := hr
      cases cs with
      | nil => simp [atBoundary, Place.extend, hsep]
      | cons c cs => rfl
    simp only [Regex.ends, hsame]
    split <;> rfl
  | empty => rfl
  | seq r s ihr ihs =>
    simp only [Regex.ends, ihr hr.1, List.flatMap_map, List.map_flatMap, ihs hr.2]
  | alt r s ihr ihs => simp only [Regex.ends, ihr hr.1, ihs hr.2, List.map_append]

theorem matchLength_extend {r : Regex α} {sep : α} (hr : r.Avoids sep) (v : List α)
    (place : Place α) : r.matchLength (place.extend (sep :: v)) = r.matchLength place := by
  simp only [Regex.matchLength, ends_extend hr, List.head?_map]
  cases (r.ends place).head? with
  | none => rfl
  | some stop =>
    simp only [Option.map_some, Option.elim, Place.extend, List.length_append]
    omega

/-- Two places with the same text to come, one of them behind the separator. -/
inductive Fresh (sep : α) : Place α → Place α → Prop
  | same (place : Place α) : Fresh sep place place
  | start (cs : List α) : Fresh sep ⟨some sep, cs⟩ ⟨none, cs⟩

instance (sep : α) : Std.Refl (Fresh sep) := ⟨Fresh.same⟩

theorem Fresh.rest_eq {sep : α} {place place' : Place α} (h : Fresh sep place place') :
    place.rest = place'.rest := by
  cases h <;> rfl

theorem repeated_fresh {p : α → Bool} {sep : α} {place place' : Place α} (h : Fresh sep place place') :
    List.Forall₂ (Fresh sep) (repeated p place.before place.rest)
      (repeated p place'.before place'.rest) := by
  cases h with
  | same => exact List.forall₂_refl _
  | start cs =>
    cases cs with
    | nil => exact .cons (.start []) .nil
    | cons c cs =>
      simp only [repeated]
      split
      · exact List.rel_append (List.forall₂_refl _) (.cons (.start _) .nil)
      · exact .cons (.start _) .nil

theorem ends_fresh {r : Regex α} {sep : α} (hr : r.Avoids sep) {place place' : Place α}
    (h : Fresh sep place place') : List.Forall₂ (Fresh sep) (r.ends place) (r.ends place') := by
  induction r generalizing place place' with
  | one p =>
    simp only [Regex.ends, h.rest_eq]
    exact List.forall₂_refl _
  | many p => exact repeated_fresh h
  | boundary word =>
    have hsame : atBoundary word place = atBoundary word place' := by
      cases h with
      | same => rfl
      | start cs =>
        have hsep : word sep = false := hr
        simp [atBoundary, hsep]
    simp only [Regex.ends, hsame]
    split
    · exact .cons h .nil
    · exact .nil
  | empty => exact .cons h .nil
  | seq r s ihr ihs => exact List.rel_flatMap (ihr hr.1 h) (fun _ _ hmid => ihs hr.2 hmid)
  | alt r s ihr ihs => exact List.rel_append (ihr hr.1 h) (ihs hr.2 h)

theorem matchLength_fresh {r : Regex α} {sep : α} (hr : r.Avoids sep) {place place' : Place α}
    (h : Fresh sep place place') : r.matchLength place = r.matchLength place' := by
  have hends := ends_fresh hr h
  simp only [Regex.matchLength, h.rest_eq]
  generalize r.ends place = stops at hends
  generalize r.ends place' = stops' at hends
  cases hends with
  | nil => rfl
  | cons hstop _ => simp only [List.head?_cons, Option.elim, hstop.rest_eq]

theorem scan_fresh {r : Regex α} {sep : α} (hr : r.Avoids sep) (cs : List α) :
    r.scan 0 (some sep) cs = r.findall cs := by
  cases cs with
  | nil => rfl
  | cons c cs => simp only [Regex.findall, Regex.scan, matchLength_fresh hr (Fresh.start (c :: cs))]

theorem matchLength_le (r : Regex α) (place : Place α) : r.matchLength place ≤ place.rest.length := by
  simp only [Regex.matchLength]
  cases (r.ends place).head? with
  | none => exact Nat.zero_le _
  | some stop => exact Nat.sub_le _ _

theorem scan_append {r : Regex α} {sep : α} (hr : r.Avoids sep) (v : List α) {cs : List α} {skip : Nat}
    (b : Option α) (hskip : skip ≤ cs.length) :
    r.scan skip b (cs ++ sep :: v) = r.scan skip b cs ++ r.findall v := by
  have hplace : ∀ (b : Option α) (cs : List α),
      r.matchLength ⟨b, cs ++ sep :: v⟩ = r.matchLength ⟨b, cs⟩ :=
    fun b cs => matchLength_extend hr v ⟨b, cs⟩
  induction cs generalizing skip b with
  | nil =>
    obtain rfl := Nat.le_zero.1 hskip
    -- no match starts at the separator
    have hzero : r.matchLength ⟨b, sep :: v⟩ = 0 :=
      (hplace b []).trans (Nat.le_zero.1 (matchLength_le r ⟨b, []⟩))
    simp only [List.nil_append, Regex.scan, hzero, if_true, scan_fresh hr]
  | cons c cs ih =>
    cases skip with
    | succ skip => exact ih (some c) (Nat.le_of_succ_le_succ hskip)
    | zero =>
      have hlength := hplace b (c :: cs)
      rw [List.cons_append] at hlength
      have hle := matchLength_le r ⟨b, c :: cs⟩
      simp only [List.length_cons] at hle
      simp only [List.cons_append, Regex.scan, hlength]
      split
      · exact ih (some c) (Nat.zero_le _)
      · rw [ih (some c) (by omega), ← List.cons_append, ← List.cons_append,
          List.take_append_of_le_length (by simpa using hle)]

/-- A character that no class has cuts a text in two that are searched apart. -/
theorem findall_append {r : Regex α} {sep : α} (hr : r.Avoids sep) (cs v : List α) :
    r.findall (cs ++ sep :: v) = r.findall cs ++ r.findall v :=
  scan_append hr v none (Nat.zero_le _)

/-- The texts of the matches of a pattern that looks at nothing else. -/
def Regex.Matches : Regex α → List α → Prop
  | .one p, w => ∃ c, w = [c] ∧ p c = true
  | .many p, w => ∀ c ∈ w, p c = true
  | .boundary _, _ => False
  | .empty, w => w = []
  | .seq r s, w => ∃ u v, w = u ++ v ∧ r.Matches u ∧ s.Matches v
  | .alt r s, w => r.Matches w ∨ s.Matches w

theorem matches_plus {p : α → Bool} {w : List α} :
    (Regex.plus p).Matches w ↔ w ≠ [] ∧ ∀ c ∈ w, p c = true := by
  constructor
  · rintro ⟨_, v, rfl, ⟨c, rfl, hc⟩, hv⟩
    exact ⟨List.cons_ne_nil c v, List.forall_mem_cons.2 ⟨hc, hv⟩⟩
  · rintro ⟨hne, hall⟩
    obtain ⟨c, v, rfl⟩ := List.exists_cons_of_ne_nil hne
    obtain ⟨hc, hv⟩ := List.forall_mem_cons.1 hall
    exact ⟨[c], v, rfl, ⟨c, rfl, hc⟩, hv⟩

theorem mem_repeated_iff {p : α → Bool} {b : Option α} {cs rest : List α} :
    (∃ b₁, ⟨b₁, rest⟩ ∈ repeated p b cs) ↔ ∃ w, cs = w ++ rest ∧ ∀ c ∈ w, p c = true := by
  induction cs generalizing b with
  | nil =>
    constructor
    · rintro ⟨b₁, h⟩
      obtain ⟨-, rfl⟩ := Place.mk.inj (List.mem_singleton.1 h)
      exact ⟨[], rfl, fun _ hc => nomatch hc⟩
    · rintro ⟨w, hw, -⟩
      obtain ⟨-, rfl⟩ := List.append_eq_nil_iff.1 hw.symm
      exact ⟨b, List.mem_singleton_self _⟩
  | cons c cs ih =>
    -- the repetition ends here, or takes the character and goes on
    have hsplit : (∃ b₁, ⟨b₁, rest⟩ ∈ repeated p b (c :: cs)) ↔
        rest = c :: cs ∨ p c = true ∧ ∃ b₁, ⟨b₁, rest⟩ ∈ repeated p (some c) cs := by
      rw [repeated]
      split
      next hp =>
        simp only [List.mem_append, List.mem_singleton, Place.mk.injEq, hp, true_and, exists_or,
          exists_eq_left]
        exact or_comm
      next hp => simp [hp]
    rw [hsplit, ih]
    constructor
    · rintro (rfl | ⟨hp, w, rfl, hw⟩)
      · exact ⟨[], rfl, fun _ hc => nomatch hc⟩
      · exact ⟨c :: w, rfl, List.forall_mem_cons.2 ⟨hp, hw⟩⟩
    · rintro ⟨w, hcs, hw⟩
      cases w with
      | nil => exact .inl hcs.symm
      | cons d w =>
        obtain ⟨rfl, rfl⟩ := List.cons.inj hcs
        obtain ⟨hp, hw⟩ := List.forall_mem_cons.1 hw
        exact .inr ⟨hp, w, rfl, hw⟩

/-- A match may end wherever a text of the pattern does. -/
theorem mem_ends_iff {r : Regex α} (hr : r.Local) {b : Option α} {cs rest : List α} :
    (∃ b₁, ⟨b₁, rest⟩ ∈ r.ends ⟨b, cs⟩) ↔ ∃ w, cs = w ++ rest ∧ r.Matches w := by
  induction r generalizing b cs rest with
  | one p =>
    cases cs with
    | nil =>
      constructor
      · rintro ⟨b₁, h⟩
        cases h
      · rintro ⟨_, hw, c, rfl, -⟩
        cases hw
    | cons c cs =>
      simp only [Regex.ends, single]
      split
      next hp =>
        constructor
        · rintro ⟨b₁, h⟩
          obtain ⟨-, rfl⟩ := Place.mk.inj (List.mem_singleton.1 h)
          exact ⟨[c], rfl, c, rfl, hp⟩
        · rintro ⟨_, hw, d, rfl, -⟩
          obtain ⟨-, rfl⟩ := List.cons.inj hw
          exact ⟨some c, List.mem_singleton_self _⟩
      next hp =>
        constructor
        · rintro ⟨b₁, h⟩
          cases h
        · rintro ⟨_, hw, d, rfl, hd⟩
          obtain ⟨rfl, -⟩ := List.cons.inj hw
          exact absurd hd hp
  | many p => exact mem_repeated_iff
  | boundary word => exact absurd hr id
  | empty =>
    constructor
    · rintro ⟨b₁, h⟩
      obtain ⟨-, rfl⟩ := Place.mk.inj (List.mem_singleton.1 h)
      exact ⟨[], rfl, rfl⟩
    · rintro ⟨_, rfl, rfl⟩
      exact ⟨b, List.mem_singleton_self _⟩
  | seq r s ihr ihs =>
    constructor
    · rintro ⟨b₁, h⟩
      obtain ⟨⟨b₂, mid⟩, hmid, hstop⟩ := List.mem_flatMap.1 h
      obtain ⟨u, rfl, hu⟩ := (ihr hr.1).1 ⟨b₂, hmid⟩
      obtain ⟨v, rfl, hv⟩ := (ihs hr.2).1 ⟨b₁, hstop⟩
      exact ⟨u ++ v, (List.append_assoc u v rest).symm, u, v, rfl, hu, hv⟩
    · rintro ⟨_, rfl, u, v, rfl, hu, hv⟩
      obtain ⟨b₂, hmid⟩ := (ihr hr.1 (b := b)).2 ⟨u, List.append_assoc u v rest, hu⟩
      obtain ⟨b₁, hstop⟩ := (ihs hr.2 (b := b₂)).2 ⟨v, rfl, hv⟩
      exact ⟨b₁, List.mem_flatMap.2 ⟨_, hmid, hstop⟩⟩
  | alt r s ihr ihs =>
    simp only [Regex.ends, List.mem_append, exists_or, ihr hr.1, ihs hr.2, Regex.Matches]
    constructor
    · rintro (⟨w, hcs, hw⟩ | ⟨w, hcs, hw⟩)
      · exact ⟨w, hcs, .inl hw⟩
      · exact ⟨w, hcs, .inr hw⟩
    · rintro ⟨w, hcs, hw | hw⟩
      · exact .inl ⟨w, hcs, hw⟩
      · exact .inr ⟨w, hcs, hw⟩

/-- `$`: the end of the text, or a line break that ends it. -/
def atEnd [DecidableEq α] (newline : α) (place : Place α) : Bool :=
  decide (place.rest = [] ∨ place.rest = [newline])

/-- `re.match` of `^..$`: some match that starts with the text ends at `$`. -/
def Regex.matchLine [DecidableEq α] (newline : α) (r : Regex α) (cs : List α) : Bool :=
  (r.ends ⟨none, cs⟩).any (atEnd newline)

/-- The anchored pattern matches its texts, and those with a line break behind. -/
theorem matchLine_iff [DecidableEq α] {newline : α} {r : Regex α} (hr : r.Local) {cs : List α} :
    r.matchLine newline cs = true ↔
      r.Matches cs ∨ ∃ w, cs = w ++ [newline] ∧ r.Matches w := by
  have hends : r.matchLine newline cs = true ↔
      (∃ b₁, ⟨b₁, []⟩ ∈ r.ends ⟨none, cs⟩) ∨ ∃ b₁, ⟨b₁, [newline]⟩ ∈ r.ends ⟨none, cs⟩ := by
    rw [Regex.matchLine, List.any_eq_true]
    constructor
    · rintro ⟨⟨b₁, rest⟩, hmem, hend⟩
      obtain rfl | rfl := of_decide_eq_true hend
      · exact .inl ⟨b₁, hmem⟩
      · exact .inr ⟨b₁, hmem⟩
    · rintro (⟨b₁, hmem⟩ | ⟨b₁, hmem⟩)
      · exact ⟨_, hmem, decide_eq_true (.inl rfl)⟩
      · exact ⟨_, hmem, decide_eq_true (.inr rfl)⟩
  rw [hends, mem_ends_iff hr, mem_ends_iff hr]
  simp only [List.append_nil, exists_eq_left']

end EvalEngine.RegularExpressions
