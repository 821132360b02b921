import EvalEngine.LimiterRuns

namespace EvalEngine.WindowSafety

open EvalEngine.LimiterRuns EvalEngine.RateLimiting EvalEngine.SlidingWindow
open EvalEngine.Transitions

variable {ρ : Type*} (L : Limiter ρ)

/-- No half-open interval of a window's length has more admitted requests of
one key than the limit. -/
def AtMost (limit window : ℤ) (s : State ρ) : Prop :=
  ∀ k (t : ℚ), ((admitted L k s.log).countP (fun x => t - window < x ∧ x ≤ t) : ℤ) ≤ limit

/-- The reading of the request is not recorded under its key, or the key
already counts `full` requests. -/
def Fresh (window full : ℤ) (s : State ρ) (r : ρ) : Prop :=
  ∀ k, L.key r = some k →
    (L.now r).reading ∉ (cleaned window (L.now r) (s.redis k)).readings ∨
      full ≤ (cleaned window (L.now r) (s.redis k)).zcard

variable {L} {window : ℤ} {admits : Slot → Instant → Bool}

/-- While no admitted request repeats a reading, the window of a key counts
every admitted request. -/
theorem recent_admitted_le {s : State ρ} (hs : Recorded L window s) {k : String}
    (hnodup : (admitted L k s.log).Nodup) {now : Instant} (hnow : s.clock ≤ now.reading) :
    (recent (window : ℚ) now.reading (admitted L k s.log) : ℤ) ≤
      (cleaned window now (s.redis k)).zcard := by
  rw [(hs k).zcard_cleaned hnow, recent, List.countP_eq_length_filter,
    ← List.toFinset_card_of_nodup (hnodup.filter _)]
  apply Int.ofNat_le.2
  apply Finset.card_le_card
  intro x hx
  rw [List.mem_toFinset] at hx ⊢
  exact ((admitted_sublist k s.log).filter _).subset hx

/-- What holds as long as every request is fresh. -/
structure Counted (L : Limiter ρ) (window : ℤ) (limit : ℕ) (s : State ρ) : Prop where
  recorded : Recorded L window s
  nodup : ∀ k, (admitted L k s.log).Nodup
  spaced : ∀ k, Spaced limit (window : ℚ) (admitted L k s.log)

theorem start_counted (limit : ℕ) : Counted L window limit start where
  recorded := start_recorded window
  nodup := fun _ => List.nodup_nil
  spaced := fun _ => spaced_nil limit _

theorem step_counted (hw : 0 < window) (hL : Slides L window admits) {limit : ℕ} {full : ℤ}
    (hfull : ∀ slot now, admits slot now = true →
      slot.zcard < full ∧ (now.reading ∉ slot.readings → slot.zcard < limit))
    {s t : State ρ} {r : ρ} (hs : Counted L window limit s) (hr : Fresh L window full s r)
    (h : step L s r = some t) : Counted L window limit t := by
  have hrec := step_recorded hL hs.recorded h
  obtain ⟨hclock, rfl⟩ := step_eq_some h
  have hcount : ∀ k, (L.serve s.redis r).2 = true ∧ L.key r = some k →
      (L.now r).reading ∉ admitted L k s.log ∧
        recent (window : ℚ) (L.now r).reading (admitted L k s.log) < limit := by
    rintro k ⟨hserved, hk⟩
    obtain ⟨margin, -, hserve⟩ := hL.keyed s.redis r k hk
    rw [hserve] at hserved
    obtain ⟨hlt, hroom⟩ := hfull _ _ hserved
    have hnew := (hr k hk).resolve_right (not_le.2 hlt)
    constructor
    · intro hmem
      apply hnew
      rw [(hs.recorded k).mem_cleaned hclock]
      have hwindow : (0 : ℚ) < window := Int.cast_pos.2 hw
      exact ⟨(admitted_sublist k s.log).subset hmem, by linarith⟩
    · have hle := recent_admitted_le hs.recorded (hs.nodup k) hclock
      have hlim := hroom hnew
      omega
  constructor
  · exact hrec
  · intro k
    rw [admitted_cons]
    split
    · rename_i hadm
      exact List.nodup_cons.2 ⟨(hcount k hadm).1, hs.nodup k⟩
    · exact hs.nodup k
  · intro k
    rw [admitted_cons]
    split
    · rename_i hadm
      exact spaced_cons.2 ⟨(hcount k hadm).2, hs.spaced k⟩
    · exact hs.spaced k

theorem atMost_of_fresh (hw : 0 < window) (hL : Slides L window admits) {limit full : ℤ}
    (hlimit : 0 ≤ limit)
    (hfull : ∀ slot now, admits slot now = true →
      slot.zcard < full ∧ (now.reading ∉ slot.readings → slot.zcard < limit))
    {s : State ρ} (h : Exec (step L) (Fresh L window full) start s) :
    AtMost L limit window s := by
  lift limit to ℕ using hlimit
  have hs := h.invariant (start_counted limit) (fun _ _ _ => step_counted hw hL hfull)
  intro k t
  exact Int.ofNat_le.2 ((hs.spaced k).window_le t)

/-- A request that is not fresh is admitted and leaves the count of its key as it was. -/
theorem step_stale (hw : 0 < window) (hL : Slides L window admits) {full : ℤ}
    (hadm : ∀ slot now, now.reading ∈ slot.readings → slot.zcard < full →
      admits slot now = true)
    {s : State ρ} {r : ρ} {k : String} (hk : L.key r = some k)
    (hclock : s.clock ≤ (L.now r).reading)
    (hmem : (L.now r).reading ∈ (cleaned window (L.now r) (s.redis k)).readings)
    (hroom : (cleaned window (L.now r) (s.redis k)).zcard < full) :
    ∃ t, step L s r = some t ∧ t.clock = (L.now r).reading ∧
      (L.now r).reading ∈ (cleaned window (L.now r) (t.redis k)).readings ∧
      (cleaned window (L.now r) (t.redis k)).zcard < full ∧
      admitted L k t.log = (L.now r).reading :: admitted L k s.log := by
  obtain ⟨margin, hmargin, hserve⟩ := hL.keyed s.redis r k hk
  have hwindow : (0 : ℚ) < window := Int.cast_pos.2 hw
  have hmarginQ : (0 : ℚ) < margin := Int.cast_pos.2 hmargin
  have hslot : (L.serve s.redis r).1 k =
      ((cleaned window (L.now r) (s.redis k)).zadd (L.now r)).expire (L.now r)
        (window + margin) := by
    rw [hserve]
    exact Function.update_self k _ _
  have hsame : (cleaned window (L.now r) ((L.serve s.redis r).1 k)).readings =
      (cleaned window (L.now r) (s.redis k)).readings := by
    ext x
    rw [mem_cleaned, hslot]
    have hadd : (((cleaned window (L.now r) (s.redis k)).zadd (L.now r)).expire (L.now r)
        (window + margin)).readings = (cleaned window (L.now r) (s.redis k)).readings :=
      (Slot.readings_zadd _ _).trans (Finset.insert_eq_of_mem hmem)
    have hexp : (((cleaned window (L.now r) (s.redis k)).zadd (L.now r)).expire (L.now r)
        (window + margin)).expiresAt = (L.now r).reading + ((window + margin : ℤ) : ℚ) := rfl
    rw [hadd, hexp]
    push_cast
    constructor
    · exact fun h => h.1
    · intro hx
      exact ⟨hx, by linarith, (mem_cleaned.1 hx).2.2⟩
  refine ⟨_, if_pos hclock, rfl, ?_, ?_, ?_⟩
  · rw [hsame]
    exact hmem
  · rw [Slot.zcard_eq, hsame, ← Slot.zcard_eq]
    exact hroom
  · rw [admitted_cons, if_pos]
    exact ⟨by rw [hserve]; exact hadm _ _ hmem hroom, hk⟩

/-- The condition leaves out no request that does no harm: one that is not
fresh can be repeated until the bound is exceeded. -/
theorem exceeded_of_stale (hw : 0 < window) (hL : Slides L window admits) {limit full : ℤ}
    (hadm : ∀ slot now, now.reading ∈ slot.readings → slot.zcard < full →
      admits slot now = true)
    {s : State ρ} {r : ρ} (hclock : s.clock ≤ (L.now r).reading)
    (hr : ¬ Fresh L window full s r) :
    ∃ t, Exec (step L) (fun _ a => a = r) s t ∧ ¬ AtMost L limit window t := by
  simp only [Fresh, not_forall, not_or, not_not, not_le] at hr
  obtain ⟨k, hk, hmem, hroom⟩ := hr
  have hwindow : (0 : ℚ) < window := Int.cast_pos.2 hw
  have hrepeat : ∀ n : ℕ, ∃ t, Exec (step L) (fun _ a => a = r) s t ∧
      t.clock ≤ (L.now r).reading ∧
      (L.now r).reading ∈ (cleaned window (L.now r) (t.redis k)).readings ∧
      (cleaned window (L.now r) (t.redis k)).zcard < full ∧
      n ≤ (admitted L k t.log).countP
        (fun x => (L.now r).reading - window < x ∧ x ≤ (L.now r).reading) := by
    intro n
    induction n with
    | zero => exact ⟨s, .refl s, hclock, hmem, hroom, Nat.zero_le _⟩
    | succ n ih =>
      obtain ⟨t, hrun, ht, htmem, htroom, hcount⟩ := ih
      obtain ⟨u, hstep, hu, humem, huroom, hlog⟩ := step_stale hw hL hadm hk ht htmem htroom
      refine ⟨u, hrun.tail rfl hstep, hu.le, humem, huroom, ?_⟩
      rw [hlog, List.countP_cons_of_pos (by simpa using hw)]
      omega
  obtain ⟨t, hrun, -, -, -, hcount⟩ := hrepeat (limit.toNat + 1)
  refine ⟨t, hrun, fun h => ?_⟩
  have hle := h k (L.now r).reading
  omega

/-- The key of a request to the middleware; exempt paths are not counted. -/
def requestKey (request : Request) : Option String :=
  if request.path ∈ exemptPaths then none else some (pipeKey request)

def middleware (settings : Settings) : Limiter Request where
  key := requestKey
  now := Request.now
  serve := fun redis request =>
    ((dispatch settings redis request).1, (dispatch settings redis request).2.admitted)

/-- A caller of `check_rate_limit`. -/
structure Caller where
  identifier : String
  endpoint : String
  now : Instant

/-- Calls of `check_rate_limit` with one limit and one window. -/
def calls (limit windowSeconds : ℤ) : Limiter Caller where
  key := fun caller => some (callKey caller.identifier caller.endpoint windowSeconds)
  now := Caller.now
  serve := fun redis caller =>
    let result := checkRateLimit .up redis caller.now caller.identifier caller.endpoint limit
      windowSeconds
    (result.1, result.2.isNone)

theorem middleware_slides (settings : Settings) :
    Slides (middleware settings) settings.rateLimitWindowSeconds
      (fun slot _ => decide (slot.zcard < settings.rateLimitDefault)) := by
  constructor
  · intro redis request h
    by_cases hpath : request.path ∈ exemptPaths
    · simp [middleware, dispatch, hpath]
    · simp [middleware, requestKey, hpath] at h
  · intro redis request k h
    by_cases hpath : request.path ∈ exemptPaths
    · simp [middleware, requestKey, hpath] at h
    · have hk : k = pipeKey request := by simpa [middleware, requestKey, hpath, eq_comm] using h
      subst hk
      refine ⟨1, Int.one_pos, ?_⟩
      simp only [middleware, dispatch, if_neg hpath]
      split
      · rename_i hle
        exact Prod.ext rfl (decide_eq_false (not_lt.2 hle)).symm
      · rename_i hlt
        exact Prod.ext rfl (decide_eq_true (not_le.1 hlt)).symm

theorem calls_slides (limit windowSeconds : ℤ) :
    Slides (calls limit windowSeconds) windowSeconds
      (fun slot now => decide ((slot.zadd now).zcard ≤ limit)) := by
  constructor
  · intro redis caller h
    cases h
  · intro redis caller k h
    cases h
    refine ⟨5, by omega, ?_⟩
    simp only [calls, checkRateLimit]
    split
    · rename_i hlt
      split <;> exact Prod.ext rfl (decide_eq_false (not_le.2 hlt)).symm
    · rename_i hle
      exact Prod.ext rfl (decide_eq_true (not_lt.1 hle)).symm

theorem middleware_full (settings : Settings) (slot : Slot) (now : Instant)
    (h : decide (slot.zcard < settings.rateLimitDefault) = true) :
    slot.zcard < settings.rateLimitDefault ∧
      (now.reading ∉ slot.readings → slot.zcard < settings.rateLimitDefault) :=
  ⟨of_decide_eq_true h, fun _ => of_decide_eq_true h⟩

theorem calls_full (limit : ℤ) (slot : Slot) (now : Instant)
    (h : decide ((slot.zadd now).zcard ≤ limit) = true) :
    slot.zcard < limit + 1 ∧ (now.reading ∉ slot.readings → slot.zcard < limit) := by
  have hle := of_decide_eq_true h
  rw [Slot.zcard_zadd] at hle
  split at hle
  · rename_i hmem
    exact ⟨by omega, fun hnew => absurd hmem hnew⟩
  · exact ⟨by omega, fun _ => by omega⟩

/-- Both limiters keep their bound as long as no request repeats a recorded
reading while its key has room. -/
theorem window_safety (settings : Settings) (limit windowSeconds : ℤ) :
    (0 < settings.rateLimitWindowSeconds → 0 ≤ settings.rateLimitDefault →
      ∀ s, Exec (step (middleware settings))
          (Fresh (middleware settings) settings.rateLimitWindowSeconds settings.rateLimitDefault)
          start s →
        AtMost (middleware settings) settings.rateLimitDefault settings.rateLimitWindowSeconds s) ∧
    (0 < windowSeconds → 0 ≤ limit →
      ∀ s, Exec (step (calls limit windowSeconds))
          (Fresh (calls limit windowSeconds) windowSeconds (limit + 1)) start s →
        AtMost (calls limit windowSeconds) limit windowSeconds s) := by
  constructor
  · intro hw hlimit s h
    exact atMost_of_fresh hw (middleware_slides settings) hlimit (middleware_full settings) h
  · intro hw hlimit s h
    exact atMost_of_fresh hw (calls_slides limit windowSeconds) hlimit (calls_full limit) h

/-- For both limiters the condition is exact: a request that does not meet
it can be repeated at its reading until the bound is exceeded. -/
theorem window_exceeded :
    (∀ settings : Settings, 0 < settings.rateLimitWindowSeconds → ∀ s r,
      s.clock ≤ r.now.reading →
      ¬ Fresh (middleware settings) settings.rateLimitWindowSeconds settings.rateLimitDefault s r →
      ∃ t, Exec (step (middleware settings)) (fun _ a => a = r) s t ∧
        ¬ AtMost (middleware settings) settings.rateLimitDefault
          settings.rateLimitWindowSeconds t) ∧
    (∀ limit windowSeconds : ℤ, 0 < windowSeconds → ∀ s r,
      s.clock ≤ r.now.reading →
      ¬ Fresh (calls limit windowSeconds) windowSeconds (limit + 1) s r →
      ∃ t, Exec (step (calls limit windowSeconds)) (fun _ a => a = r) s t ∧
        ¬ AtMost (calls limit windowSeconds) limit windowSeconds t) := by
  constructor
  · intro settings hw s r hclock hr
    apply exceeded_of_stale hw (middleware_slides settings) ?_ hclock hr
    intro slot now _ hroom
    exact decide_eq_true hroom
  · intro limit windowSeconds hw s r hclock hr
    apply exceeded_of_stale hw (calls_slides limit windowSeconds) ?_ hclock hr
    intro slot now hmem hroom
    apply decide_eq_true
    rw [Slot.zcard_zadd, if_pos hmem]
    omega

def sampleRequest (seconds : ℕ) : Request :=
  ⟨"/api/v1/submissions", none, some "10.0.0.7", ⟨seconds, Nat.cast_nonneg seconds⟩⟩

def sampleCaller (seconds : ℕ) : Caller :=
  ⟨"user", "trigger", ⟨seconds, Nat.cast_nonneg seconds⟩⟩

/-- One request is admitted, one in its window refused, and one behind both windows admitted. -/
theorem window_safety_sample :
    (∃ s, s.log.map Prod.snd = [true, false, true] ∧ AtMost (middleware ⟨1, 60⟩) 1 60 s) ∧
      ∃ s, s.log.map Prod.snd = [true, false, true] ∧ AtMost (calls 1 60) 1 60 s := by
  constructor
  · have hfirst := (@Exec.refl _ _ (step (middleware ⟨1, 60⟩)) (Fresh (middleware ⟨1, 60⟩) 60 1) start).tail (a := sampleRequest 0)
      (by rintro k ⟨⟩; exact .inl (Finset.notMem_empty _)) (Option.some_get (by decide +kernel)).symm
    have hrefused := hfirst.tail (a := sampleRequest 30) (by rintro k ⟨⟩; exact .inl (by decide +kernel))
      (Option.some_get (by decide +kernel)).symm
    have hlast := hrefused.tail (a := sampleRequest 95) (by rintro k ⟨⟩; exact .inl (by decide +kernel))
      (Option.some_get (by decide +kernel)).symm
    exact ⟨_, by decide +kernel, (window_safety ⟨1, 60⟩ 1 60).1 (by decide) (by decide) _ hlast⟩
  · have hfirst := (@Exec.refl _ _ (step (calls 1 60)) (Fresh (calls 1 60) 60 2) start).tail (a := sampleCaller 0)
      (by rintro k ⟨⟩; exact .inl (Finset.notMem_empty _)) (Option.some_get (by decide +kernel)).symm
    have hrefused := hfirst.tail (a := sampleCaller 30) (by rintro k ⟨⟩; exact .inl (by decide +kernel))
      (Option.some_get (by decide +kernel)).symm
    have hlast := hrefused.tail (a := sampleCaller 95) (by rintro k ⟨⟩; exact .inl (by decide +kernel))
      (Option.some_get (by decide +kernel)).symm
    exact ⟨_, by decide +kernel, (window_safety ⟨1, 60⟩ 1 60).2 (by decide) (by decide) _ hlast⟩

/-- Requests with one reading leave one member, so those after the first are
not counted. -/
theorem window_safety_equal_readings :
    ¬ (∀ s, Exec (step (middleware ⟨2, 60⟩)) free start s → AtMost (middleware ⟨2, 60⟩) 2 60 s) ∧
    ¬ (∀ s, Exec (step (calls 1 60)) free start s → AtMost (calls 1 60) 1 60 s) := by
  constructor
  · intro h
    have hrun := exec_get (step (middleware ⟨2, 60⟩)) start
      [sampleRequest 0, sampleRequest 0, sampleRequest 0] (by decide +kernel)
    have hle := h _ hrun "ratelimit:ip:10.0.0.7" 0
    revert hle
    decide +kernel
  · intro h
    have hrun := exec_get (step (calls 1 60)) start [sampleCaller 0, sampleCaller 0]
      (by decide +kernel)
    have hle := h _ hrun "ratelimit:user:trigger:60" 0
    revert hle
    decide +kernel

end EvalEngine.WindowSafety
