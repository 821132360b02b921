import EvalEngine.RateLimiting

namespace EvalEngine.LimiterRuns

open EvalEngine.RateLimiting EvalEngine.SortedSets

variable {ρ : Type*}

/-- A rate limiter: the key that a request counts under, if any, its clock
reading, and what the request does to Redis and whether it gets through. -/
structure Limiter (ρ : Type*) where
  key : ρ → Option String
  now : ρ → Instant
  serve : Redis → ρ → Redis × Bool

/-- The requests are logged with their outcome, the latest first. -/
structure State (ρ : Type*) where
  redis : Redis
  clock : ℚ
  log : List (ρ × Bool)

def start : State ρ := ⟨fun _ => .empty, 0, []⟩

variable (L : Limiter ρ)

/-- The pipelines are executed one after the other, with clock readings that
never decrease. -/
def step (s : State ρ) (r : ρ) : Option (State ρ) :=
  if s.clock ≤ (L.now r).reading then
    some ⟨(L.serve s.redis r).1, (L.now r).reading, (r, (L.serve s.redis r).2) :: s.log⟩
  else none

/-- The readings of the requests of one key. -/
def arrivals (k : String) (log : List (ρ × Bool)) : List ℚ :=
  (log.filter (fun e => L.key e.1 = some k)).map (fun e => (L.now e.1).reading)

/-- The readings of the requests of one key that got through. -/
def admitted (k : String) (log : List (ρ × Bool)) : List ℚ :=
  arrivals L k (log.filter (fun e => e.2))

/-- The slot of a key as a request counts it. -/
def cleaned (window : ℤ) (now : Instant) (slot : Slot) : Slot :=
  (slot.live now).zremrangebyscore 0 (now.reading - window)

/-- A request slides the window of its own key, records itself there, and is
admitted by what it found. -/
structure Slides (window : ℤ) (admits : Slot → Instant → Bool) : Prop where
  exempt : ∀ redis r, L.key r = none → (L.serve redis r).1 = redis
  keyed : ∀ redis r k, L.key r = some k → ∃ margin : ℤ, 0 < margin ∧
    L.serve redis r = (Function.update redis k
      (((cleaned window (L.now r) (redis k)).zadd (L.now r)).expire (L.now r) (window + margin)),
      admits (cleaned window (L.now r) (redis k)) (L.now r))

/-- A slot holds those arrivals of its key that a request after `clock` still counts. -/
structure Records (window : ℤ) (slot : Slot) (clock : ℚ) (arrived : List ℚ) : Prop where
  past : ∀ x ∈ arrived, x ≤ clock
  known : ∀ x ∈ slot.readings, x ∈ arrived
  kept : ∀ now : ℚ, clock ≤ now → ∀ x ∈ arrived, now - window < x →
    x ∈ slot.readings ∧ now < slot.expiresAt

def Recorded (window : ℤ) (s : State ρ) : Prop :=
  ∀ k, Records window (s.redis k) s.clock (arrivals L k s.log)

variable {L}

theorem admitted_sublist (k : String) (log : List (ρ × Bool)) :
    List.Sublist (admitted L k log) (arrivals L k log) := by
  apply List.Sublist.map
  exact List.filter_sublist.filter _

theorem arrivals_cons_of_key {k : String} {r : ρ} {b : Bool} {log : List (ρ × Bool)}
    (h : L.key r = some k) :
    arrivals L k ((r, b) :: log) = (L.now r).reading :: arrivals L k log := by
  simp [arrivals, h]

theorem arrivals_cons_of_ne {k : String} {r : ρ} {b : Bool} {log : List (ρ × Bool)}
    (h : L.key r ≠ some k) : arrivals L k ((r, b) :: log) = arrivals L k log := by
  simp [arrivals, h]

theorem admitted_cons (k : String) (r : ρ) (b : Bool) (log : List (ρ × Bool)) :
    admitted L k ((r, b) :: log) =
      if b = true ∧ L.key r = some k then (L.now r).reading :: admitted L k log
      else admitted L k log := by
  cases b with
  | false => simp [admitted]
  | true =>
    by_cases h : L.key r = some k
    · simp [admitted, arrivals_cons_of_key h, h]
    · simp [admitted, arrivals_cons_of_ne h, h]

theorem mem_cleaned {window : ℤ} {now : Instant} {slot : Slot} {x : ℚ} :
    x ∈ (cleaned window now slot).readings ↔
      x ∈ slot.readings ∧ now.reading < slot.expiresAt ∧ now.reading - window < x := by
  by_cases hlive : now.reading < slot.expiresAt
  · have hmem : x ∈ (cleaned window now slot).readings ↔
        ∃ t, (x, t) ∈ slot.set.entries ∧ ¬ (0 ≤ t ∧ t ≤ now.reading - window) := by
      rw [cleaned, Slot.live, if_pos hlive]
      exact SortedSet.mem_removeRangeByScore
    rw [hmem, Slot.readings, SortedSet.mem_members]
    constructor
    · rintro ⟨t, ht, hout⟩
      obtain ⟨hx, hpos⟩ := slot.stamped _ ht
      simp only at hx hpos
      subst hx
      exact ⟨⟨x, ht⟩, hlive, not_le.1 (fun hle => hout ⟨hpos, hle⟩)⟩
    · rintro ⟨⟨t, ht⟩, -, hlt⟩
      obtain ⟨hx, -⟩ := slot.stamped _ ht
      simp only at hx
      subst hx
      exact ⟨x, ht, fun hin => absurd hin.2 (not_le.2 hlt)⟩
  · have hempty : (cleaned window now slot).readings = ∅ := by
      rw [cleaned, Slot.live, if_neg hlive]
      rfl
    simp [hempty, hlive]

theorem Slot.readings_zadd (slot : Slot) (now : Instant) :
    (slot.zadd now).readings = insert now.reading slot.readings :=
  SortedSet.members_add slot.set now.reading now.reading

theorem Slot.zcard_eq (slot : Slot) : slot.zcard = (slot.readings.card : ℤ) :=
  congrArg Nat.cast (SortedSet.card_eq slot.set)

theorem Slot.zcard_zadd (slot : Slot) (now : Instant) :
    (slot.zadd now).zcard =
      if now.reading ∈ slot.readings then slot.zcard else slot.zcard + 1 := by
  rw [Slot.zcard_eq, Slot.zcard_eq, Slot.readings_zadd]
  split
  · rename_i hmem
    rw [Finset.insert_eq_of_mem hmem]
  · rename_i hmem
    rw [Finset.card_insert_of_notMem hmem]
    push_cast
    rfl

namespace Records

variable {window : ℤ} {slot : Slot} {clock : ℚ} {arrived : List ℚ}

theorem mem_cleaned (h : Records window slot clock arrived) {now : Instant}
    (hnow : clock ≤ now.reading) (x : ℚ) :
    x ∈ (cleaned window now slot).readings ↔ x ∈ arrived ∧ now.reading - window < x := by
  rw [LimiterRuns.mem_cleaned]
  constructor
  · rintro ⟨hx, -, hlt⟩
    exact ⟨h.known x hx, hlt⟩
  · rintro ⟨hx, hlt⟩
    obtain ⟨hmem, hexp⟩ := h.kept now.reading hnow x hx hlt
    exact ⟨hmem, hexp, hlt⟩

theorem empty (window : ℤ) : Records window Slot.empty 0 [] := by
  constructor
  · intro x hx
    exact absurd hx List.not_mem_nil
  · intro x hx
    exact absurd hx (Finset.notMem_empty x)
  · intro now _ x hx
    exact absurd hx List.not_mem_nil

theorem later (h : Records window slot clock arrived) {now : ℚ} (hnow : clock ≤ now) :
    Records window slot now arrived where
  past := fun x hx => (h.past x hx).trans hnow
  known := h.known
  kept := fun t ht => h.kept t (hnow.trans ht)

/-- The request that slides the window is recorded beside those it counted. -/
theorem slide (h : Records window slot clock arrived) {now : Instant}
    (hnow : clock ≤ now.reading) {margin : ℤ} (hmargin : 0 < margin) :
    Records window (((cleaned window now slot).zadd now).expire now (window + margin))
      now.reading (now.reading :: arrived) := by
  have hmarginQ : (0 : ℚ) < margin := Int.cast_pos.2 hmargin
  have hmem : ∀ x,
      x ∈ (((cleaned window now slot).zadd now).expire now (window + margin)).readings ↔
        x = now.reading ∨ x ∈ arrived ∧ now.reading - window < x := by
    intro x
    rw [← h.mem_cleaned hnow x]
    exact (Finset.ext_iff.1 (Slot.readings_zadd _ _) x).trans Finset.mem_insert
  have hpast : ∀ x ∈ now.reading :: arrived, x ≤ now.reading := by
    intro x hx
    cases List.mem_cons.1 hx with
    | inl heq => exact heq.le
    | inr hold => exact (h.past x hold).trans hnow
  constructor
  · exact hpast
  · intro x hx
    cases (hmem x).1 hx with
    | inl heq => rw [heq]; exact List.mem_cons_self
    | inr hold => exact List.mem_cons_of_mem _ hold.1
  · intro t ht x hx hlt
    have hx' := hpast x hx
    constructor
    · rw [hmem]
      cases List.mem_cons.1 hx with
      | inl heq => exact Or.inl heq
      | inr hold => exact Or.inr ⟨hold, by linarith⟩
    · have hexp : (((cleaned window now slot).zadd now).expire now (window + margin)).expiresAt =
          now.reading + ((window + margin : ℤ) : ℚ) := rfl
      rw [hexp]
      push_cast
      linarith

/-- A request counts the arrivals of its window, readings that coincide once. -/
theorem zcard_cleaned (h : Records window slot clock arrived) {now : Instant}
    (hnow : clock ≤ now.reading) :
    (cleaned window now slot).zcard =
      ((arrived.filter (fun x => now.reading - window < x)).toFinset.card : ℤ) := by
  rw [Slot.zcard_eq]
  congr 2
  ext x
  rw [List.mem_toFinset, List.mem_filter, decide_eq_true_eq]
  exact h.mem_cleaned hnow x

end Records

theorem start_recorded (window : ℤ) : Recorded L window start := fun _ => Records.empty window

theorem step_eq_some {s t : State ρ} {r : ρ} (h : step L s r = some t) :
    s.clock ≤ (L.now r).reading ∧
      t = ⟨(L.serve s.redis r).1, (L.now r).reading, (r, (L.serve s.redis r).2) :: s.log⟩ := by
  rw [step] at h
  split at h
  · rename_i hclock
    exact ⟨hclock, (Option.some.inj h).symm⟩
  · cases h

variable {window : ℤ} {admits : Slot → Instant → Bool}

/-- Requests of other keys, and exempt ones, leave a slot alone. -/
theorem serve_other (hL : Slides L window admits) (redis : Redis) {r : ρ} {k : String}
    (hk : L.key r ≠ some k) : (L.serve redis r).1 k = redis k := by
  cases hkey : L.key r with
  | none => rw [hL.exempt _ _ hkey]
  | some k' =>
    obtain ⟨margin, -, hserve⟩ := hL.keyed redis r k' hkey
    have hne : k ≠ k' := fun heq => hk (heq ▸ hkey)
    rw [hserve]
    exact Function.update_of_ne hne _ _

theorem step_recorded (hL : Slides L window admits) {s t : State ρ} {r : ρ}
    (hs : Recorded L window s) (h : step L s r = some t) : Recorded L window t := by
  obtain ⟨hclock, rfl⟩ := step_eq_some h
  intro k
  change Records window ((L.serve s.redis r).1 k) (L.now r).reading
    (arrivals L k ((r, (L.serve s.redis r).2) :: s.log))
  by_cases hk : L.key r = some k
  · obtain ⟨margin, hmargin, hserve⟩ := hL.keyed s.redis r k hk
    have hslot : (L.serve s.redis r).1 k =
        ((cleaned window (L.now r) (s.redis k)).zadd (L.now r)).expire (L.now r)
          (window + margin) := by
      rw [hserve]
      exact Function.update_self k _ _
    rw [hslot, arrivals_cons_of_key hk]
    exact (hs k).slide hclock hmargin
  · rw [serve_other hL s.redis hk, arrivals_cons_of_ne hk]
    exact (hs k).later hclock

end EvalEngine.LimiterRuns
