import EvalEngine.WindowSafety

namespace EvalEngine.LimiterAgreement

open EvalEngine.LimiterRuns EvalEngine.RateLimiting EvalEngine.WindowSafety

variable {ρ ρ' : Type*}

/-- Which of the requests, served one after the other, get through. -/
def outcomes (L : Limiter ρ) : Redis → List ρ → List Bool
  | _, [] => []
  | redis, r :: rs => (L.serve redis r).2 :: outcomes L (L.serve redis r).1 rs

/-- Two slots that no request from `t` on can tell apart, although their TTLs
may differ. All that they record is earlier. -/
structure Alike (window : ℤ) (t : ℚ) (slot slot' : Slot) : Prop where
  past : ∀ x ∈ slot.readings, x < t
  past' : ∀ x ∈ slot'.readings, x < t
  counted : ∀ now : Instant, t ≤ now.reading →
    (cleaned window now slot).readings = (cleaned window now slot').readings

/-- The slot of a key after a request has slid its window. -/
abbrev slid (window margin : ℤ) (now : Instant) (slot : Slot) : Slot :=
  ((cleaned window now slot).zadd now).expire now (window + margin)

theorem readings_slid (window margin : ℤ) (now : Instant) (slot : Slot) :
    (slid window margin now slot).readings =
      insert now.reading (cleaned window now slot).readings :=
  Slot.readings_zadd _ now

theorem cleaned_subset (window : ℤ) (now : Instant) (slot : Slot) :
    (cleaned window now slot).readings ⊆ slot.readings := by
  intro x hx
  exact (mem_cleaned.1 hx).1

/-- While the key could have vanished, nothing that it holds is counted any more. -/
theorem mem_cleaned_slid {window margin : ℤ} (hmargin : 0 < margin) {now later : Instant}
    {slot : Slot} (hpast : ∀ x ∈ slot.readings, x < now.reading) (x : ℚ) :
    x ∈ (cleaned window later (slid window margin now slot)).readings ↔
      x ∈ insert now.reading (cleaned window now slot).readings ∧ later.reading - window < x := by
  have hmarginQ : (0 : ℚ) < margin := Int.cast_pos.2 hmargin
  have hexp : (slid window margin now slot).expiresAt =
      now.reading + ((window + margin : ℤ) : ℚ) := rfl
  rw [mem_cleaned, readings_slid, hexp]
  push_cast
  constructor
  · rintro ⟨hx, -, hlt⟩
    exact ⟨hx, hlt⟩
  · rintro ⟨hx, hlt⟩
    refine ⟨hx, ?_, hlt⟩
    have hle : x ≤ now.reading := by
      cases Finset.mem_insert.1 hx with
      | inl heq => exact heq.le
      | inr hold => exact (hpast x (cleaned_subset window now slot hold)).le
    linarith

theorem past_slid {window margin : ℤ} {now : Instant} {slot : Slot} {t : ℚ}
    (hpast : ∀ x ∈ slot.readings, x < now.reading) (ht : now.reading < t) :
    ∀ x ∈ (slid window margin now slot).readings, x < t := by
  intro x hx
  rw [readings_slid] at hx
  cases Finset.mem_insert.1 hx with
  | inl heq => exact heq ▸ ht
  | inr hold => exact (hpast x (cleaned_subset window now slot hold)).trans ht

namespace Alike

variable {window : ℤ} {t : ℚ} {slot slot' : Slot}

theorem refl (hpast : ∀ x ∈ slot.readings, x < t) : Alike window t slot slot :=
  ⟨hpast, hpast, fun _ _ => rfl⟩

theorem slide {now : Instant} (h : Alike window now.reading slot slot') {margin margin' : ℤ}
    (hmargin : 0 < margin) (hmargin' : 0 < margin') (ht : now.reading < t) :
    Alike window t (slid window margin now slot) (slid window margin' now slot') where
  past := past_slid h.past ht
  past' := past_slid h.past' ht
  counted := by
    intro later _
    ext x
    rw [mem_cleaned_slid hmargin h.past, mem_cleaned_slid hmargin' h.past',
      h.counted now le_rfl]

end Alike

/-- Two ways to admit that agree wherever the request is new to the slot. -/
def Agree (admits admits' : Slot → Instant → Bool) : Prop :=
  ∀ slot slot' now, slot.readings = slot'.readings → now.reading ∉ slot.readings →
    admits slot now = admits' slot' now

variable {L : Limiter ρ} {L' : Limiter ρ'} {window : ℤ} {admits admits' : Slot → Instant → Bool}

theorem outcomes_eq (hL : Slides L window admits) (hL' : Slides L' window admits')
    (hagree : Agree admits admits') {k k' : String} {f : ρ → ρ'}
    (hnow : ∀ r, L'.now (f r) = L.now r) {requests : List ρ}
    (hkey : ∀ r ∈ requests, L.key r = some k ∧ L'.key (f r) = some k')
    (hstrict : (requests.map fun r => (L.now r).reading).Pairwise (· < ·)) {redis redis' : Redis}
    (halike : ∀ r ∈ requests, Alike window (L.now r).reading (redis k) (redis' k')) :
    outcomes L redis requests = outcomes L' redis' (requests.map f) := by
  induction requests generalizing redis redis' with
  | nil => rfl
  | cons r rs ih =>
    obtain ⟨hk, hk'⟩ := hkey r List.mem_cons_self
    obtain ⟨hlater, hrest⟩ := List.pairwise_cons.1 hstrict
    have hslots := halike r List.mem_cons_self
    obtain ⟨margin, hmargin, hserve⟩ := hL.keyed redis r k hk
    obtain ⟨margin', hmargin', hserve'⟩ := hL'.keyed redis' (f r) k' hk'
    rw [hnow r] at hserve'
    have hcounted := hslots.counted (L.now r) le_rfl
    have hnew : (L.now r).reading ∉ (cleaned window (L.now r) (redis k)).readings := by
      intro hmem
      exact lt_irrefl _ (hslots.past _ (cleaned_subset _ _ _ hmem))
    have hsame : (L.serve redis r).2 = (L'.serve redis' (f r)).2 := by
      rw [hserve, hserve']
      exact hagree _ _ _ hcounted hnew
    have hafter : ∀ r' ∈ rs, Alike window (L.now r').reading ((L.serve redis r).1 k)
        ((L'.serve redis' (f r)).1 k') := by
      intro r' hr'
      have hslide : Alike window (L.now r').reading (slid window margin (L.now r) (redis k))
          (slid window margin' (L.now r) (redis' k')) :=
        hslots.slide hmargin hmargin' (hlater _ (List.mem_map_of_mem hr'))
      rw [hserve, hserve']
      simpa only [Function.update_self] using hslide
    rw [List.map_cons, outcomes, outcomes, hsame,
      ih (fun r' hr' => hkey r' (List.mem_cons_of_mem r hr')) hrest hafter]

/-- Counting before the request is added or after it comes to the same. -/
theorem middleware_calls_agree (limit : ℤ) :
    Agree (fun slot _ => decide (slot.zcard < limit))
      (fun slot now => decide ((slot.zadd now).zcard ≤ limit)) := by
  intro slot slot' now hsame hnew
  have hnew' : now.reading ∉ slot'.readings := hsame ▸ hnew
  have hcard : slot.zcard = slot'.zcard := by rw [Slot.zcard_eq, Slot.zcard_eq, hsame]
  simp only [Slot.zcard_zadd, if_neg hnew', hcard, decide_eq_decide]
  omega

/-- A call of `check_rate_limit` at the clock reading of a request. -/
def callAt (identifier endpoint : String) (request : Request) : Caller :=
  ⟨identifier, endpoint, request.now⟩

/-- On requests of one key at ever later readings, both limiters let the same
ones through, whatever the key holds before. -/
theorem limiters_agree (settings : Settings) (identifier endpoint k : String)
    (redis redis' : Redis) (requests : List Request)
    (hkey : ∀ r ∈ requests, requestKey r = some k)
    (hstrict : (requests.map fun r => r.now.reading).Pairwise (· < ·))
    (hhistory : redis k =
      redis' (callKey identifier endpoint settings.rateLimitWindowSeconds))
    (hpast : ∀ x ∈ (redis k).readings, ∀ r ∈ requests, x < r.now.reading) :
    outcomes (middleware settings) redis requests =
      outcomes (calls settings.rateLimitDefault settings.rateLimitWindowSeconds) redis'
        (requests.map (callAt identifier endpoint)) := by
  have hkeys : ∀ r ∈ requests, (middleware settings).key r = some k ∧
      (calls settings.rateLimitDefault settings.rateLimitWindowSeconds).key
        (callAt identifier endpoint r) =
          some (callKey identifier endpoint settings.rateLimitWindowSeconds) := by
    intro r hr
    exact ⟨hkey r hr, rfl⟩
  apply outcomes_eq (middleware_slides settings)
    (calls_slides settings.rateLimitDefault settings.rateLimitWindowSeconds)
    (middleware_calls_agree settings.rateLimitDefault) (fun _ => rfl) hkeys hstrict
  intro r hr
  rw [← hhistory]
  exact .refl (fun x hx => hpast x hx r hr)

/-- One request, at 0 seconds. -/
def sampleHistory : Redis := fun _ => slid 60 1 (sampleRequest 0).now .empty

/-- The second request comes when the key of the middleware has vanished and
that of `check_rate_limit` has not. -/
theorem limiters_agree_sample :
    outcomes (middleware ⟨1, 60⟩) sampleHistory [sampleRequest 30, sampleRequest 92] =
      outcomes (calls 1 60) sampleHistory
        ([sampleRequest 30, sampleRequest 92].map (callAt "user" "trigger")) := by
  apply limiters_agree ⟨1, 60⟩ "user" "trigger" "ratelimit:ip:10.0.0.7" _ _ _
  · decide +kernel
  · decide +kernel
  · rfl
  · decide +kernel

end EvalEngine.LimiterAgreement
