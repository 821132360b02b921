import EvalEngine.LimiterRuns

namespace EvalEngine.AdvertisedQuota

open EvalEngine.RateLimiting EvalEngine.LimiterRuns EvalEngine.SortedSets

variable {settings : Settings} {redis : Redis} {q r : Request} {rest : List Request} {k : String}

def Response.headers : Response → List (String × String)
  | .served headers | .tooMany _ _ _ headers => headers

/-- The slot of a request as it counts it. -/
def counted (settings : Settings) (redis : Redis) (q : Request) : Slot :=
  cleaned settings.rateLimitWindowSeconds q.now (redis (pipeKey q))

/-- The quota that a response advertises. -/
def remaining (settings : Settings) (redis : Redis) (q : Request) : ℤ :=
  max 0 (settings.rateLimitDefault - (counted settings redis q).zcard - 1)

/-- The requests reach Redis one after the other. Their clocks need not agree. -/
def serveAll (settings : Settings) (redis : Redis) (requests : List Request) : Redis :=
  requests.foldl (fun redis request => (dispatch settings redis request).1) redis

def sameKey (q r : Request) : Bool := decide (r.path ∉ exemptPaths ∧ pipeKey r = pipeKey q)

/-- The readings behind a key. -/
def size (redis : Redis) (k : String) : ℕ := (redis k).readings.card

/-- What a request leaves of its own key. -/
def stored (settings : Settings) (redis : Redis) (q : Request) : Slot :=
  ((counted settings redis q).zadd q.now).expire q.now (settings.rateLimitWindowSeconds + 1)

theorem dispatch_exempt (hq : q.path ∈ exemptPaths) : dispatch settings redis q = (redis, .served []) := by
  rw [dispatch, if_pos hq]

theorem dispatch_redis (hq : q.path ∉ exemptPaths) : (dispatch settings redis q).1 =
    Function.update redis (pipeKey q) (stored settings redis q) := by
  rw [dispatch, if_neg hq]
  dsimp only
  split <;> rfl

theorem dispatch_admitted (hq : q.path ∉ exemptPaths) : (dispatch settings redis q).2.admitted =
    decide ((counted settings redis q).zcard < settings.rateLimitDefault) := by
  rw [dispatch, if_neg hq]
  dsimp only
  split
  · rename_i hfull
    exact (decide_eq_false (not_lt.2 hfull)).symm
  · rename_i hroom
    exact (decide_eq_true (not_le.1 hroom)).symm

theorem dispatch_remaining (hq : q.path ∉ exemptPaths) :
    (Response.headers (dispatch settings redis q).2).lookup "X-RateLimit-Remaining" =
      some (toString (remaining settings redis q)) := by
  rw [dispatch, if_neg hq]
  dsimp only
  split <;> rfl

theorem counted_subset : (counted settings redis q).readings ⊆ (redis (pipeKey q)).readings := by
  intro x hx
  exact (mem_cleaned.1 hx).1

theorem stored_readings :
    (stored settings redis q).readings = insert q.now.reading (counted settings redis q).readings :=
  Slot.readings_zadd _ _

/-- A request adds at most itself to its own key, and nothing to another. -/
theorem size_dispatch (q : Request) : size (dispatch settings redis r).1 (pipeKey q) ≤
    size redis (pipeKey q) + if sameKey q r then 1 else 0 := by
  by_cases hexempt : r.path ∈ exemptPaths
  · rw [dispatch_exempt hexempt]
    exact Nat.le_add_right _ _
  · rw [dispatch_redis hexempt, size]
    by_cases hkey : pipeKey r = pipeKey q
    · have hsame : sameKey q r = true := decide_eq_true ⟨hexempt, hkey⟩
      have hcard := Finset.card_insert_le r.now.reading (counted settings redis r).readings
      have hsub := Finset.card_le_card (@counted_subset settings redis r)
      rw [hkey] at hsub
      rw [hkey, Function.update_self, stored_readings, hsame, size]
      simp only [if_true]
      omega
    · rw [Function.update_of_ne (Ne.symm hkey)]
      exact Nat.le_add_right _ _

theorem size_serveAll (q : Request) : size (serveAll settings redis rest) (pipeKey q) ≤
    size redis (pipeKey q) + rest.countP (sameKey q) := by
  induction rest generalizing redis with
  | nil => exact Nat.le_refl _
  | cons r rest ih =>
    have hrest := @ih (dispatch settings redis r).1
    have hone := @size_dispatch settings redis r q
    rw [List.countP_cons]
    change size (serveAll settings (dispatch settings redis r).1 rest) (pipeKey q) ≤ _
    omega

/-- A burst: requests under the key of `q`, each at a reading of its own, that
come before anything the key has recorded leaves the window. -/
structure Burst (settings : Settings) (redis : Redis) (q : Request) (rest : List Request) (start : ℚ) : Prop where
  sameKey : ∀ r ∈ rest, r.path ∉ exemptPaths ∧ pipeKey r = pipeKey q
  recorded : ∀ x ∈ (redis (pipeKey q)).readings, start < x
  live : start + settings.rateLimitWindowSeconds < (redis (pipeKey q)).expiresAt
  readings : ∀ r ∈ rest, start < r.now.reading ∧ r.now.reading < start + settings.rateLimitWindowSeconds
  distinct : (rest.map fun r => r.now.reading).Nodup
  fresh : ∀ r ∈ rest, r.now.reading ∉ (redis (pipeKey q)).readings

/-- In a burst nothing is forgotten. -/
theorem counted_of_burst {start : ℚ} (h : Burst settings redis q (r :: rest) start) :
    (counted settings redis r).readings = (redis (pipeKey q)).readings := by
  obtain ⟨_, hkey⟩ := h.sameKey r List.mem_cons_self
  obtain ⟨_, hlast⟩ := h.readings r List.mem_cons_self
  have hlive := h.live
  ext x
  rw [counted, mem_cleaned, hkey]
  constructor
  · exact fun hx => hx.1
  · intro hx
    have hstart := h.recorded x hx
    exact ⟨hx, by linarith, by linarith⟩

theorem Burst.tail {start : ℚ} (h : Burst settings redis q (r :: rest) start) :
    Burst settings (dispatch settings redis r).1 q rest start := by
  obtain ⟨hexempt, hkey⟩ := h.sameKey r List.mem_cons_self
  obtain ⟨hfirst, hlast⟩ := h.readings r List.mem_cons_self
  have hslot : (dispatch settings redis r).1 (pipeKey q) = stored settings redis r := by
    rw [dispatch_redis hexempt, hkey, Function.update_self]
  have hreadings : (stored settings redis r).readings = insert r.now.reading (redis (pipeKey q)).readings := by
    rw [stored_readings, counted_of_burst h]
  refine ⟨fun r' hr' => h.sameKey r' (List.mem_cons_of_mem r hr'), ?_, ?_,
    fun r' hr' => h.readings r' (List.mem_cons_of_mem r hr'), (List.nodup_cons.1 h.distinct).2, ?_⟩
  · intro x hx
    rw [hslot, hreadings] at hx
    obtain rfl | hx := Finset.mem_insert.1 hx
    · exact hfirst
    · exact h.recorded x hx
  · have hexpires : (stored settings redis r).expiresAt =
        r.now.reading + ((settings.rateLimitWindowSeconds + 1 : ℤ) : ℚ) := rfl
    rw [hslot, hexpires]
    push_cast
    linarith
  · intro r' hr' hmem
    rw [hslot, hreadings] at hmem
    obtain heq | hmem := Finset.mem_insert.1 hmem
    · have hmem : r'.now.reading ∈ rest.map fun r => r.now.reading := List.mem_map_of_mem hr'
      rw [heq] at hmem
      exact (List.nodup_cons.1 h.distinct).1 hmem
    · exact h.fresh r' (List.mem_cons_of_mem r hr') hmem

/-- So each request of a burst counts once. -/
theorem size_burst {start : ℚ} (h : Burst settings redis q rest start) :
    size (serveAll settings redis rest) (pipeKey q) = size redis (pipeKey q) + rest.length := by
  induction rest generalizing redis with
  | nil => rfl
  | cons r rest ih =>
    obtain ⟨hexempt, hkey⟩ := h.sameKey r List.mem_cons_self
    have hone : size (dispatch settings redis r).1 (pipeKey q) = size redis (pipeKey q) + 1 := by
      rw [size, dispatch_redis hexempt, hkey, Function.update_self, stored_readings, counted_of_burst h,
        Finset.card_insert_of_notMem (h.fresh r List.mem_cons_self), size]
    change size (serveAll settings (dispatch settings redis r).1 rest) (pipeKey q) = _
    rw [ih h.tail, hone, List.length_cons]
    omega

theorem Burst.append {start : ℚ} {after : List Request} (h : Burst settings redis q (rest ++ after) start) :
    Burst settings (serveAll settings redis rest) q after start := by
  induction rest generalizing redis with
  | nil => exact h
  | cons r rest ih => exact ih h.tail

theorem Burst.front {start : ℚ} {after : List Request} (h : Burst settings redis q (rest ++ after) start) :
    Burst settings redis q rest start := by
  have hdistinct := h.distinct
  rw [List.map_append] at hdistinct
  exact ⟨fun r hr => h.sameKey r (List.mem_append_left _ hr), h.recorded, h.live,
    fun r hr => h.readings r (List.mem_append_left _ hr), (List.nodup_append.1 hdistinct).1,
    fun r hr => h.fresh r (List.mem_append_left _ hr)⟩

theorem size_first (hq : q.path ∉ exemptPaths) :
    (size (dispatch settings redis q).1 (pipeKey q) : ℤ) ≤ (counted settings redis q).zcard + 1 := by
  have hcard := Finset.card_insert_le q.now.reading (counted settings redis q).readings
  rw [size, dispatch_redis hq, Function.update_self, stored_readings, Slot.zcard_eq]
  exact_mod_cast hcard

/-- The advertised quota is honoured, whatever the clocks say and whoever else
is served in between, and a burst that uses it up is refused. -/
theorem remaining_honoured (hq : q.path ∉ exemptPaths) :
    (Response.headers (dispatch settings redis q).2).lookup "X-RateLimit-Remaining" =
      some (toString (remaining settings redis q)) ∧
    (∀ rest r, sameKey q r = true → (rest.countP (sameKey q) : ℤ) < remaining settings redis q →
      (dispatch settings (serveAll settings redis (q :: rest)) r).2.admitted = true) ∧
    (∀ rest r start, Burst settings (dispatch settings redis q).1 q (rest ++ [r]) start →
      q.now.reading ∉ (counted settings redis q).readings →
      remaining settings redis q ≤ rest.length →
      (dispatch settings (serveAll settings redis (q :: rest)) r).2.admitted = false) := by
  refine ⟨dispatch_remaining hq, ?_, ?_⟩
  · intro rest r hr hquota
    obtain ⟨hexempt, hkey⟩ : r.path ∉ exemptPaths ∧ pipeKey r = pipeKey q := of_decide_eq_true hr
    have hfirst := @size_first settings redis q hq
    have hrest := @size_serveAll settings (dispatch settings redis q).1 rest q
    have hcount : (counted settings (serveAll settings redis (q :: rest)) r).zcard ≤
        size (serveAll settings redis (q :: rest)) (pipeKey q) := by
      have hsub := Finset.card_le_card (@counted_subset settings (serveAll settings redis (q :: rest)) r)
      rw [Slot.zcard_eq, size, ← hkey]
      exact_mod_cast hsub
    rw [dispatch_admitted hexempt]
    have hsame : serveAll settings redis (q :: rest) = serveAll settings (dispatch settings redis q).1 rest := rfl
    rw [hsame] at hcount ⊢
    have hroom : (0 : ℤ) ≤ rest.countP (sameKey q) := Int.natCast_nonneg _
    unfold remaining at hquota
    exact decide_eq_true (by omega)
  · intro rest r start hburst hnew hquota
    obtain ⟨hexempt, hkey⟩ := hburst.sameKey r (List.mem_append_right _ (List.mem_singleton_self r))
    have hlast := hburst.append
    have hsize := size_burst hburst.front
    have hfirst : (size (dispatch settings redis q).1 (pipeKey q) : ℤ) = (counted settings redis q).zcard + 1 := by
      rw [size, dispatch_redis hq, Function.update_self, stored_readings, Slot.zcard_eq,
        Finset.card_insert_of_notMem hnew]
      push_cast
      rfl
    have hsame : serveAll settings redis (q :: rest) = serveAll settings (dispatch settings redis q).1 rest := rfl
    have hcount : (counted settings (serveAll settings redis (q :: rest)) r).zcard =
        size (serveAll settings redis (q :: rest)) (pipeKey q) := by
      rw [Slot.zcard_eq, hsame, counted_of_burst hlast, size]
    rw [dispatch_admitted hexempt, hcount, hsame, hsize]
    unfold remaining at hquota
    push_cast
    exact decide_eq_false (by omega)

/-- A request a whole number of seconds after the first. -/
def sampleRequest (seconds : ℕ) : Request where
  path := "/api/v1/datasets"
  orgId := none
  clientHost := none
  now := ⟨seconds + 1, (Nat.cast_add_one_pos seconds).le⟩

/-- Of a quota of two the first request advertises one more: the second is
served, and the third, in the same minute, is refused. -/
theorem second_served :
    (dispatch ⟨2, 60⟩ (serveAll ⟨2, 60⟩ (fun _ => .empty) [sampleRequest 0]) (sampleRequest 1)).2.admitted =
        true ∧
      (dispatch ⟨2, 60⟩ (serveAll ⟨2, 60⟩ (fun _ => .empty) [sampleRequest 0, sampleRequest 1])
        (sampleRequest 2)).2.admitted = false := by
  have hquota : remaining ⟨2, 60⟩ (fun _ => .empty) (sampleRequest 0) = 1 := by decide +kernel
  constructor
  · refine (remaining_honoured (by decide)).2.1 [] (sampleRequest 1) (by decide +kernel) ?_
    rw [hquota]
    decide
  · have hburst : Burst ⟨2, 60⟩ (dispatch ⟨2, 60⟩ (fun _ => .empty) (sampleRequest 0)).1 (sampleRequest 0)
        ([sampleRequest 1] ++ [sampleRequest 2]) 0 :=
      ⟨by decide +kernel, by decide +kernel, by decide +kernel, by decide +kernel, by decide +kernel,
        by decide +kernel⟩
    refine (remaining_honoured (by decide)).2.2 [sampleRequest 1] (sampleRequest 2) 0 hburst
      (by decide +kernel) ?_
    rw [hquota]
    decide

end EvalEngine.AdvertisedQuota
