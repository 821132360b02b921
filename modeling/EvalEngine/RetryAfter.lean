import EvalEngine.WindowSafety

namespace EvalEngine.RetryAfter

open EvalEngine.Rounding EvalEngine.SortedSets EvalEngine.RateLimiting EvalEngine.LimiterRuns
open EvalEngine.WindowSafety EvalEngine.Transitions

/-- The readings of the requests of a key, this one included, that are later than `since`. -/
def readingsSince (limit window : ℤ) (s : State Caller) (caller : Caller) (since : ℚ) : Finset ℚ :=
  (insert caller.now.reading
    (arrivals (calls limit window) (callKey caller.identifier caller.endpoint window) s.log).toFinset).filter
      (since < ·)

/-- A request with the key of `caller` at this moment is admitted, if none has
come in between. -/
def AdmittedAt (limit window : ℤ) (s : State Caller) (caller : Caller) (moment : ℚ) : Prop :=
  ∀ t, Exec (step (calls limit window))
      (fun _ other => (calls limit window).key other ≠ (calls limit window).key caller) s t →
    t.clock ≤ moment → ∀ later : Instant, later.reading = moment →
      (checkRateLimit .up t.redis later caller.identifier caller.endpoint limit window).2 = none

variable {limit window : ℤ} {slot : Slot} {now : Instant}

theorem mem_entries_iff {x : ℚ} : x ∈ slot.set.entries.map Prod.snd ↔ x ∈ slot.readings := by
  rw [Slot.readings, SortedSet.mem_members, List.mem_map]
  constructor
  · rintro ⟨⟨m, t⟩, he, rfl⟩
    obtain rfl : m = t := (slot.stamped _ he).1
    exact ⟨m, he⟩
  · rintro ⟨t, ht⟩
    exact ⟨(x, t), ht, (slot.stamped _ ht).1.symm⟩

/-- The first entry of a slot is the least of its readings. -/
theorem leastScore_eq_some {oldest : ℚ} (h : slot.set.leastScore = some oldest) :
    oldest ∈ slot.readings ∧ ∀ x ∈ slot.readings, oldest ≤ x := by
  obtain ⟨hmem, hle⟩ := List.min?_eq_some_iff.1 h
  refine ⟨mem_entries_iff.1 hmem, ?_⟩
  intro x hx
  exact hle x (mem_entries_iff.2 hx)

theorem leastScore_of_mem {x : ℚ} (h : x ∈ slot.readings) : ∃ oldest, slot.set.leastScore = some oldest := by
  have hne : slot.set.entries.map Prod.snd ≠ [] := List.ne_nil_of_mem (mem_entries_iff.2 h)
  exact Option.ne_none_iff_exists'.1 fun hnone => hne (List.min?_eq_none_iff.1 hnone)

/-- The slot that a call leaves behind. -/
def recordedSlot (window : ℤ) (now : Instant) (slot : Slot) : Slot :=
  ((cleaned window now slot).zadd now).expire now (window + 5)

theorem readings_recordedSlot (window : ℤ) (now : Instant) (slot : Slot) :
    (recordedSlot window now slot).readings = ((cleaned window now slot).zadd now).readings := rfl

theorem mem_recordedSlot {clock : ℚ} {arrived : List ℚ} (h : Records window slot clock arrived)
    (hnow : clock ≤ now.reading) {x : ℚ} : x ∈ (recordedSlot window now slot).readings ↔
      x = now.reading ∨ x ∈ arrived ∧ now.reading - window < x := by
  rw [readings_recordedSlot, Slot.readings_zadd, Finset.mem_insert, h.mem_cleaned hnow]

/-- When the hint is more than a second, hardly any entry is gone by then, so
that waiting a second would do or nothing does. -/
theorem crowded_iff {S : Finset ℚ} {oldest t : ℚ} (hmem : oldest ∈ S) (hleast : ∀ x ∈ S, oldest ≤ x)
    (hfull : limit < S.card) :
    ((S.filter (t + (max 1 ⌊oldest + window - t⌋ : ℤ) - window < ·)).card : ℤ) < limit ↔
      ((S.filter (t + 1 - window < ·)).card : ℤ) < limit := by
  obtain hsoon | hlate := le_or_gt ⌊oldest + window - t⌋ 1
  · rw [max_eq_left hsoon, Int.cast_one]
  · have hfloor : (⌊oldest + window - t⌋ : ℚ) ≤ oldest + window - t := Int.floor_le _
    have htwo : (2 : ℚ) ≤ ⌊oldest + window - t⌋ := by exact_mod_cast hlate
    -- all entries but the oldest are later than the hint allows for
    have hrest : S.erase oldest ⊆
        S.filter (t + (max 1 ⌊oldest + window - t⌋ : ℤ) - window < ·) := by
      intro x hx
      obtain ⟨hne, hx⟩ := Finset.mem_erase.1 hx
      have hlt : oldest < x := lt_of_le_of_ne (hleast x hx) (Ne.symm hne)
      rw [Finset.mem_filter, max_eq_right hlate.le]
      exact ⟨hx, by linarith⟩
    have hcard := Finset.card_le_card hrest
    rw [Finset.card_erase_of_mem hmem] at hcard
    have hall : S.filter (t + 1 - window < ·) = S := by
      apply Finset.filter_true_of_mem
      intro x hx
      have := hleast x hx
      linarith
    rw [hall]
    constructor
    · intro h
      omega
    · intro h
      omega

theorem admitted_iff {redis : Redis} {identifier endpoint : String} :
    (checkRateLimit .up redis now identifier endpoint limit window).2 = none ↔
      (recordedSlot window now (redis (callKey identifier endpoint window))).zcard ≤ limit := by
  have hstored : (recordedSlot window now (redis (callKey identifier endpoint window))).zcard =
      ((cleaned window now (redis (callKey identifier endpoint window))).zadd now).zcard := rfl
  rw [hstored]
  simp only [checkRateLimit]
  split
  next hlt =>
    apply iff_of_false
    · split <;> simp
    · exact not_le.2 hlt
  next hle => exact iff_of_true rfl (not_lt.1 hle)

/-- A refused call names the seconds that the oldest entry has left. -/
theorem refused_seconds {redis : Redis} {identifier endpoint : String} {seconds : ℤ}
    (h : (checkRateLimit .up redis now identifier endpoint limit window).2 = some seconds) :
    (((recordedSlot window now (redis (callKey identifier endpoint window))).live now).set.leastScore.elim
      window fun oldest => max 1 (truncate (oldest + window - now.reading))) = seconds := by
  have hstored : recordedSlot window now (redis (callKey identifier endpoint window)) =
      ((((redis (callKey identifier endpoint window)).live now).zremrangebyscore 0
        (now.reading - window)).zadd now).expire now (window + 5) := rfl
  rw [hstored]
  simp only [checkRateLimit, Function.update_self] at h
  split at h
  next hlt =>
    split at h
    next oldest holdest =>
      rw [holdest]
      exact Option.some.inj h
    next hnone =>
      rw [hnone]
      exact Option.some.inj h
  next => cases h

/-- The slot of its key that a caller leaves behind. -/
def leftSlot (window : ℤ) (s : State Caller) (caller : Caller) : Slot :=
  recordedSlot window caller.now (s.redis (callKey caller.identifier caller.endpoint window))

/-- Requests with other keys leave the slot as it is. -/
theorem slot_eq_of_others {caller : Caller} {s t : State Caller}
    (h : Exec (step (calls limit window))
      (fun _ other => (calls limit window).key other ≠ (calls limit window).key caller) s t) :
    t.redis (callKey caller.identifier caller.endpoint window) =
      s.redis (callKey caller.identifier caller.endpoint window) := by
  apply h.invariant
    (P := fun u => u.redis (callKey caller.identifier caller.endpoint window) =
      s.redis (callKey caller.identifier caller.endpoint window)) rfl
  intro u other v hu hother hstep
  obtain ⟨-, rfl⟩ := step_eq_some hstep
  exact (serve_other (calls_slides limit window) u.redis hother).trans hu

theorem slot_after {caller : Caller} {s t : State Caller}
    (h : step (calls limit window) s caller = some t) :
    t.redis (callKey caller.identifier caller.endpoint window) = leftSlot window s caller := by
  obtain ⟨-, rfl⟩ := step_eq_some h
  simp only [calls, checkRateLimit]
  split
  · split <;> exact Function.update_self _ _ _
  · exact Function.update_self _ _ _

theorem start_exec_recorded {s : State Caller} (hs : Exec (step (calls limit window)) free start s) :
    Recorded (calls limit window) window s :=
  hs.invariant (start_recorded window)
    fun _ _ _ hu _ hstep => step_recorded (calls_slides limit window) hu hstep

section Refused

variable {s : State Caller} {caller : Caller} {seconds : ℤ}

theorem mem_leftSlot (hs : Recorded (calls limit window) window s)
    (hclock : s.clock ≤ caller.now.reading) {x : ℚ} : x ∈ (leftSlot window s caller).readings ↔
      x = caller.now.reading ∨ x ∈ arrivals (calls limit window)
        (callKey caller.identifier caller.endpoint window) s.log ∧
          caller.now.reading - window < x :=
  mem_recordedSlot (hs _) hclock

/-- The slot keeps the requests of its key as long as the window does. -/
theorem readingsSince_eq (hs : Recorded (calls limit window) window s)
    (hclock : s.clock ≤ caller.now.reading) {since : ℚ}
    (hsince : caller.now.reading - window ≤ since) :
    (leftSlot window s caller).readings.filter (since < ·) =
      readingsSince limit window s caller since := by
  ext x
  rw [Finset.mem_filter, mem_leftSlot hs hclock, readingsSince, Finset.mem_filter,
    Finset.mem_insert, List.mem_toFinset]
  constructor
  · rintro ⟨heq | ⟨hx, -⟩, hlt⟩
    · exact ⟨.inl heq, hlt⟩
    · exact ⟨.inr hx, hlt⟩
  · rintro ⟨heq | hx, hlt⟩
    · exact ⟨.inl heq, hlt⟩
    · exact ⟨.inr ⟨hx, hsince.trans_lt hlt⟩, hlt⟩

/-- A refused call finds more readings than the limit. One of them is not its own, so the
window has a length. -/
theorem refused_crowded (hs : Recorded (calls limit window) window s)
    (hclock : s.clock ≤ caller.now.reading) (hlimit : 1 ≤ limit)
    (h : (checkRateLimit .up s.redis caller.now caller.identifier caller.endpoint limit
      window).2 = some seconds) :
    limit < (leftSlot window s caller).readings.card ∧ 1 ≤ window := by
  have hfull : limit < (leftSlot window s caller).readings.card := by
    have hnot := mt admitted_iff.2 (by rw [h]; simp)
    rw [Slot.zcard_eq, not_le] at hnot
    exact hnot
  refine ⟨hfull, ?_⟩
  obtain ⟨x, hx, hne⟩ := Finset.exists_mem_ne
    (by omega : 1 < (leftSlot window s caller).readings.card) caller.now.reading
  obtain ⟨harrived, hwithin⟩ := ((mem_leftSlot hs hclock).1 hx).resolve_left hne
  have hpast := ((hs _).past x harrived).trans hclock
  have hpos : (0 : ℚ) < window := by linarith
  exact_mod_cast hpos

/-- The readings of the slot lie in the window. -/
theorem within_of_mem (hs : Recorded (calls limit window) window s)
    (hclock : s.clock ≤ caller.now.reading) (hwindow : 1 ≤ window) {x : ℚ}
    (hx : x ∈ (leftSlot window s caller).readings) :
    caller.now.reading - window < x ∧ x ≤ caller.now.reading := by
  obtain rfl | ⟨hx, hlt⟩ := (mem_leftSlot hs hclock).1 hx
  · have hpos : (1 : ℚ) ≤ window := by exact_mod_cast hwindow
    exact ⟨by linarith, le_rfl⟩
  · exact ⟨hlt, ((hs _).past x hx).trans hclock⟩

/-- The waiting time is what the oldest reading of the slot has left. -/
theorem refused_cases (hs : Recorded (calls limit window) window s)
    (hclock : s.clock ≤ caller.now.reading) (hwindow : 1 ≤ window)
    (h : (checkRateLimit .up s.redis caller.now caller.identifier caller.endpoint limit
      window).2 = some seconds) :
    ∃ oldest ∈ (leftSlot window s caller).readings,
      (∀ x ∈ (leftSlot window s caller).readings, oldest ≤ x) ∧
        seconds = max 1 ⌊oldest + window - caller.now.reading⌋ := by
  have hpos : (1 : ℚ) ≤ window := by exact_mod_cast hwindow
  obtain ⟨oldest, holdest⟩ := leastScore_of_mem ((mem_leftSlot hs hclock).2 (.inl rfl))
  obtain ⟨hmem, hleast⟩ := leastScore_eq_some holdest
  refine ⟨oldest, hmem, hleast, ?_⟩
  have hlive : (leftSlot window s caller).live caller.now = leftSlot window s caller := by
    apply if_pos
    change caller.now.reading < caller.now.reading + ((window + 5 : ℤ) : ℚ)
    push_cast
    linarith
  have hseconds := refused_seconds h
  rw [← leftSlot, hlive, holdest] at hseconds
  have hleft := (within_of_mem hs hclock hwindow hmem).1
  rw [← hseconds, Option.elim_some, truncate_eq_floor (by linarith)]

/-- The waiting time is at most the window. -/
theorem seconds_le (hs : Recorded (calls limit window) window s)
    (hclock : s.clock ≤ caller.now.reading) (hwindow : 1 ≤ window)
    (h : (checkRateLimit .up s.redis caller.now caller.identifier caller.endpoint limit
      window).2 = some seconds) : 1 ≤ seconds ∧ seconds ≤ window := by
  obtain ⟨oldest, hmem, -, rfl⟩ := refused_cases hs hclock hwindow h
  have hfloor : ⌊oldest + window - caller.now.reading⌋ ≤ window := by
    apply Int.floor_le_iff.2
    linarith [(within_of_mem hs hclock hwindow hmem).2]
  omega

end Refused

/-- At a later moment a slot is crowded by its readings that the window has not
passed by then. -/
theorem admitted_later {later : Instant} {redis : Redis} {identifier endpoint : String}
    (hkey : redis (callKey identifier endpoint window) = recordedSlot window now slot)
    (hpast : ∀ x ∈ (recordedSlot window now slot).readings, x < later.reading)
    (hlive : later.reading < now.reading + window + 5) :
    (checkRateLimit .up redis later identifier endpoint limit window).2 = none ↔
      (((recordedSlot window now slot).readings.filter (later.reading - window < ·)).card : ℤ) <
        limit := by
  have hcleaned : (cleaned window later (recordedSlot window now slot)).readings =
      (recordedSlot window now slot).readings.filter (later.reading - window < ·) := by
    ext x
    rw [mem_cleaned, Finset.mem_filter]
    have hexp : (recordedSlot window now slot).expiresAt = now.reading + ((window + 5 : ℤ) : ℚ) :=
      rfl
    rw [hexp]
    push_cast
    constructor
    · exact fun hx => ⟨hx.1, hx.2.2⟩
    · exact fun hx => ⟨hx.1, by linarith, hx.2⟩
  have hnew : later.reading ∉ (recordedSlot window now slot).readings.filter
      (later.reading - window < ·) := by
    intro hx
    exact lt_irrefl _ (hpast _ (Finset.mem_filter.1 hx).1)
  rw [admitted_iff, hkey, Slot.zcard_eq, readings_recordedSlot, Slot.readings_zadd, hcleaned,
    Finset.card_insert_of_notMem hnew]
  push_cast
  exact Int.add_one_le_iff

/-- What a call at the end of the waiting time finds. -/
theorem admitted_after_wait {s t u : State Caller} {caller : Caller} {seconds : ℤ}
    (hs : Recorded (calls limit window) window s) (hlimit : 1 ≤ limit)
    (hstep : step (calls limit window) s caller = some t)
    (hrefused : (checkRateLimit .up s.redis caller.now caller.identifier caller.endpoint limit
      window).2 = some seconds)
    (hu : u.redis (callKey caller.identifier caller.endpoint window) =
      t.redis (callKey caller.identifier caller.endpoint window))
    {later : Instant} (hmoment : later.reading = caller.now.reading + seconds) :
    (checkRateLimit .up u.redis later caller.identifier caller.endpoint limit window).2 = none ↔
      ((readingsSince limit window s caller (caller.now.reading + 1 - window)).card : ℤ) <
        limit := by
  have hclock : s.clock ≤ caller.now.reading := (step_eq_some hstep).1
  obtain ⟨hfull, hwindow⟩ := refused_crowded hs hclock hlimit hrefused
  obtain ⟨hpositive, hle⟩ := seconds_le hs hclock hwindow hrefused
  have hpositive : (1 : ℚ) ≤ seconds := by exact_mod_cast hpositive
  have hle : (seconds : ℚ) ≤ window := by exact_mod_cast hle
  have hpast : ∀ x ∈ (leftSlot window s caller).readings, x < later.reading := by
    intro x hx
    rw [hmoment]
    linarith [(within_of_mem hs hclock hwindow hx).2]
  have hlive : later.reading < caller.now.reading + window + 5 := by
    rw [hmoment]
    linarith
  obtain ⟨oldest, hmem, hleast, hseconds⟩ := refused_cases hs hclock hwindow hrefused
  rw [admitted_later (hu.trans (slot_after hstep)) hpast hlive, hmoment, hseconds,
    ← leftSlot, crowded_iff hmem hleast hfull, readingsSince_eq hs hclock (by linarith)]

/-- The waiting time of a refusal never exceeds the window, and it is honoured exactly when
less than `limit` readings of the key, refused requests and this one included, are
later than a second after the start of the window. -/
theorem honoured_iff (limit window : ℤ) (s t : State Caller) (caller : Caller) (seconds : ℤ)
    (hlimit : 1 ≤ limit) (hs : Exec (step (calls limit window)) free start s)
    (hstep : step (calls limit window) s caller = some t)
    (hrefused : (checkRateLimit .up s.redis caller.now caller.identifier caller.endpoint limit
      window).2 = some seconds) :
    seconds ≤ max 1 window ∧
      (AdmittedAt limit window t caller (caller.now.reading + seconds) ↔
        ((readingsSince limit window s caller (caller.now.reading + 1 - window)).card : ℤ) <
          limit) := by
  have hrecorded := start_exec_recorded hs
  obtain ⟨hclock, ht⟩ := step_eq_some hstep
  obtain ⟨-, hwindow⟩ := refused_crowded hrecorded hclock hlimit hrefused
  obtain ⟨hpositive, hle⟩ := seconds_le hrecorded hclock hwindow hrefused
  refine ⟨hle.trans (le_max_right 1 window), ?_⟩
  constructor
  · intro h
    have hlater : caller.now.reading ≤ caller.now.reading + seconds := by
      have hpositive : (1 : ℚ) ≤ seconds := by exact_mod_cast hpositive
      linarith
    have hclock : t.clock ≤ caller.now.reading + seconds := by
      rw [ht]
      exact hlater
    let later : Instant := ⟨caller.now.reading + seconds, caller.now.epoch.trans hlater⟩
    exact (admitted_after_wait hrecorded hlimit hstep hrefused rfl rfl).1
      (h t (Exec.refl t) hclock later rfl)
  · intro h u hu _ later hmoment
    exact (admitted_after_wait hrecorded hlimit hstep hrefused (slot_eq_of_others hu) hmoment).2 h

def halfSeconds (n : ℕ) : Caller := ⟨"user", "trigger", ⟨n / 2, by positivity⟩⟩

/-- What the requests leave behind. -/
def after (limit : ℤ) (callers : List Caller) : Option (State Caller) :=
  runList (step (calls limit 60)) start callers

/-- After two requests in the first second, a third one at 60 seconds is told to wait for
a second, and admitted then. -/
theorem honoured_after_burst :
    ∃ s t, Exec (step (calls 2 60)) free start s ∧
      step (calls 2 60) s (halfSeconds 120) = some t ∧
      (checkRateLimit .up s.redis (halfSeconds 120).now "user" "trigger" 2 60).2 = some 1 ∧
      AdmittedAt 2 60 t (halfSeconds 120) 61 := by
  have hrun := exec_get (step (calls 2 60)) start [halfSeconds 1, halfSeconds 2]
    (by decide +kernel)
  have hstep : step (calls 2 60) ((after 2 [halfSeconds 1, halfSeconds 2]).get (by decide +kernel))
      (halfSeconds 120) = some ((step (calls 2 60)
        ((after 2 [halfSeconds 1, halfSeconds 2]).get (by decide +kernel))
          (halfSeconds 120)).get (by decide +kernel)) := (Option.some_get _).symm
  have hrefused : (checkRateLimit .up ((after 2 [halfSeconds 1, halfSeconds 2]).get
      (by decide +kernel)).redis (halfSeconds 120).now "user" "trigger" 2 60).2 = some 1 := by
    decide +kernel
  have hmoment : (61 : ℚ) = (halfSeconds 120).now.reading + (1 : ℤ) := by decide +kernel
  refine ⟨_, _, hrun, hstep, hrefused, ?_⟩
  rw [hmoment]
  apply (honoured_iff 2 60 _ _ (halfSeconds 120) 1 (by decide) hrun hstep hrefused).2.2
  decide +kernel

/-- A refused request counts for the whole window as well, so a caller that comes back when
told is refused once more. -/
theorem honoured_refused_again :
    ¬ (∀ (limit window : ℤ) (s t : State Caller) (caller : Caller) (seconds : ℤ), 1 ≤ limit →
      Exec (step (calls limit window)) free start s →
      step (calls limit window) s caller = some t →
      (checkRateLimit .up s.redis caller.now caller.identifier caller.endpoint limit window).2 =
        some seconds →
      AdmittedAt limit window t caller (caller.now.reading + seconds) ∧
        seconds ≤ max 1 window) := by
  intro h
  have hrun := exec_get (step (calls 1 60)) start [sampleCaller 0] (by decide +kernel)
  have hstep : step (calls 1 60) ((after 1 [sampleCaller 0]).get (by decide +kernel))
      (sampleCaller 30) = some ((step (calls 1 60)
        ((after 1 [sampleCaller 0]).get (by decide +kernel)) (sampleCaller 30)).get
          (by decide +kernel)) := (Option.some_get _).symm
  have hadmitted := (h 1 60 _ _ (sampleCaller 30) 30 (by decide) hrun hstep (by decide +kernel)).1
  have hnone := hadmitted _ (Exec.refl _) (by decide +kernel) (sampleCaller 60).now
    (by decide +kernel)
  revert hnone
  decide +kernel

end EvalEngine.RetryAfter
