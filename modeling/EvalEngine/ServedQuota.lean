import EvalEngine.WindowSafety

namespace EvalEngine.ServedQuota

open EvalEngine.LimiterRuns EvalEngine.RateLimiting EvalEngine.SlidingWindow
open EvalEngine.Transitions EvalEngine.WindowSafety

/-- A request is refused exactly when the requests of its key that were
admitted less than a window before it fill the limit. -/
def ServedOnly (settings : Settings) (k : String) (log : List (Request × Bool)) : Prop :=
  ∀ e earlier, e :: earlier <:+ log → requestKey e.1 = some k →
    (e.2 = false ↔ settings.rateLimitDefault ≤
      ((admitted (middleware settings) k earlier).countP
        (fun x => e.1.now.reading - settings.rateLimitWindowSeconds < x ∧
          x < e.1.now.reading) : ℤ))

/-- Who finds the window crowded finds it crowded by arrivals that did not. -/
def Unblocked (limit : ℕ) (window : ℚ) (arrivals : List ℚ) : Prop :=
  ∀ t earlier, t :: earlier <:+ arrivals →
    limit ≤ recent window t earlier → limit ≤ recent window t (uncrowded limit window earlier)

/-- The middleware refuses by the distinct readings of the window, whatever
became of the requests that left them. -/
def Counting (settings : Settings) (log : List (Request × Bool)) : Prop :=
  ∀ e earlier, e :: earlier <:+ log → ∀ k, requestKey e.1 = some k →
    (e.2 = false ↔ settings.rateLimitDefault ≤
      (((arrivals (middleware settings) k earlier).filter
        (fun x => e.1.now.reading - settings.rateLimitWindowSeconds < x)).toFinset.card : ℤ))

variable {settings : Settings}

theorem step_counting {s t : State Request} {r : Request}
    (hrec : Recorded (L := middleware settings) settings.rateLimitWindowSeconds s)
    (hs : Counting settings s.log) (h : step (middleware settings) s r = some t) :
    Counting settings t.log := by
  obtain ⟨hclock, rfl⟩ := step_eq_some h
  apply forall_suffix_cons.2 ⟨?_, hs⟩
  intro k hk
  obtain ⟨margin, -, hserve⟩ := (middleware_slides settings).keyed s.redis r k hk
  have hcard := (hrec k).zcard_cleaned hclock
  rw [hserve, decide_eq_false_iff_not, not_lt, hcard]
  rfl

theorem counting_of_run {s : State Request}
    (h : Exec (step (middleware settings)) free start s) : Counting settings s.log := by
  have hboth : Recorded (L := middleware settings) settings.rateLimitWindowSeconds s ∧
      Counting settings s.log := by
    apply h.invariant (P := fun s => Recorded (L := middleware settings)
      settings.rateLimitWindowSeconds s ∧ Counting settings s.log)
    · constructor
      · exact start_recorded _
      · intro e earlier hsuf
        exact absurd hsuf.length_le (by simp [start])
    · rintro s r t ⟨hrec, hcount⟩ _ hstep
      exact ⟨step_recorded (middleware_slides settings) hrec hstep,
        step_counting hrec hcount hstep⟩
  exact hboth.2

theorem countP_window_eq {w t : ℚ} {xs : List ℚ} (h : ∀ x ∈ xs, x < t) :
    xs.countP (fun x => t - w < x ∧ x < t) = recent w t xs := by
  apply List.countP_congr
  intro x hx
  simp [h x hx]

theorem counting_cons {k : String} {r : Request} {b : Bool} {earlier : List (Request × Bool)}
    (hcount : Counting settings ((r, b) :: earlier)) (hk : (middleware settings).key r = some k)
    (hnodup : (arrivals (middleware settings) k earlier).Nodup) :
    b = false ↔ settings.rateLimitDefault.toNat ≤
      recent (settings.rateLimitWindowSeconds : ℚ) ((middleware settings).now r).reading
        (arrivals (middleware settings) k earlier) := by
  change (r, b).2 = false ↔ _
  rw [(forall_suffix_cons.1 hcount).1 k hk, List.toFinset_card_of_nodup (hnodup.filter _),
    ← List.countP_eq_length_filter, Int.toNat_le]
  rfl

/-- With distinct readings the admitted arrivals are the uncrowded ones. -/
theorem admitted_eq_uncrowded {k : String} {log : List (Request × Bool)}
    (hcount : Counting settings log) (hnodup : (arrivals (middleware settings) k log).Nodup) :
    admitted (middleware settings) k log =
      uncrowded settings.rateLimitDefault.toNat (settings.rateLimitWindowSeconds : ℚ)
        (arrivals (middleware settings) k log) := by
  induction log with
  | nil => rfl
  | cons e earlier ih =>
    obtain ⟨r, b⟩ := e
    have hrest := (forall_suffix_cons.1 hcount).2
    rw [admitted_cons]
    by_cases hk : (middleware settings).key r = some k
    · rw [arrivals_cons_of_key hk] at hnodup ⊢
      have hearlier := (List.nodup_cons.1 hnodup).2
      have hb := counting_cons hcount hk hearlier
      rw [uncrowded, ← ih hrest hearlier]
      cases b with
      | false => rw [if_neg (by simp), if_pos (hb.1 rfl)]
      | true => rw [if_pos ⟨rfl, hk⟩, if_neg (fun hle => absurd (hb.2 hle) (by simp))]
    · rw [arrivals_cons_of_ne hk] at hnodup ⊢
      rw [if_neg (fun h => hk h.2)]
      exact ih hrest hnodup

theorem servedOnly_iff {k : String} {log : List (Request × Bool)}
    (hcount : Counting settings log)
    (hstrict : (arrivals (middleware settings) k log).Pairwise (· > ·)) :
    ServedOnly settings k log ↔
      Unblocked settings.rateLimitDefault.toNat settings.rateLimitWindowSeconds
        (arrivals (middleware settings) k log) := by
  induction log with
  | nil =>
    constructor
    · intro _ t earlier hsuf
      exact absurd hsuf.length_le (by simp [arrivals])
    · intro _ e earlier hsuf
      exact absurd hsuf.length_le (by simp)
  | cons e earlier ih =>
    obtain ⟨r, b⟩ := e
    have hrest := (forall_suffix_cons.1 hcount).2
    rw [ServedOnly, forall_suffix_cons]
    by_cases hk : (middleware settings).key r = some k
    · rw [arrivals_cons_of_key hk] at hstrict ⊢
      obtain ⟨hlater, hearlier⟩ := List.pairwise_cons.1 hstrict
      have hnodup : (arrivals (middleware settings) k earlier).Nodup :=
        hearlier.imp (fun h => (ne_of_lt h).symm)
      have hb := counting_cons hcount hk hnodup
      have hadm : ∀ x ∈ admitted (middleware settings) k earlier, x < r.now.reading :=
        fun x hx => hlater x ((admitted_sublist k earlier).subset hx)
      rw [Unblocked, forall_suffix_cons, countP_window_eq hadm,
        admitted_eq_uncrowded hrest hnodup]
      apply and_congr ?_ (ih hrest hearlier)
      have hle := recent_le_of_sublist (w := (settings.rateLimitWindowSeconds : ℚ))
        (t := r.now.reading) (uncrowded_sublist settings.rateLimitDefault.toNat
          (settings.rateLimitWindowSeconds : ℚ) (arrivals (middleware settings) k earlier))
      constructor
      · intro h hfull
        exact Int.toNat_le.2 ((h hk).1 (hb.2 hfull))
      · intro h _
        constructor
        · intro hrefused
          exact Int.toNat_le.1 (h (hb.1 hrefused))
        · intro hfull
          exact hb.2 ((Int.toNat_le.2 hfull).trans hle)
    · rw [arrivals_cons_of_ne hk] at hstrict ⊢
      rw [← ih hrest hstrict]
      exact ⟨fun h => h.2, fun h => ⟨fun hkey => absurd hkey hk, h⟩⟩

/-- When every reading of a key is later than the one before, the middleware
spends the quota of the key on served requests alone exactly on the arrivals
that are unblocked. -/
theorem served_quota (settings : Settings) (s : State Request)
    (h : Exec (step (middleware settings)) free start s) (k : String)
    (hstrict : (arrivals (middleware settings) k s.log).Pairwise (· > ·)) :
    ServedOnly settings k s.log ↔
      Unblocked settings.rateLimitDefault.toNat settings.rateLimitWindowSeconds
        (arrivals (middleware settings) k s.log) :=
  servedOnly_iff (counting_of_run h) hstrict

/-- Three requests under a limit of one a minute: the second is refused, and
the third only because of the second. -/
def retries : List Request := [sampleRequest 0, sampleRequest 30, sampleRequest 65]

theorem served_quota_sample :
    ServedOnly ⟨1, 60⟩ "ratelimit:ip:10.0.0.7"
        ((runList (step (middleware ⟨1, 60⟩)) start retries).get (by decide +kernel)).log ↔
      Unblocked 1 60 [65, 30, 0] :=
  served_quota ⟨1, 60⟩ _ (exec_get _ _ retries (by decide +kernel)) "ratelimit:ip:10.0.0.7"
    (by decide +kernel)

theorem served_quota_retries :
    ¬ ∀ s, Exec (step (middleware ⟨1, 60⟩)) free start s →
      (arrivals (middleware ⟨1, 60⟩) "ratelimit:ip:10.0.0.7" s.log).Pairwise (· > ·) →
      ServedOnly ⟨1, 60⟩ "ratelimit:ip:10.0.0.7" s.log := by
  intro h
  have hall := h _ (exec_get (step (middleware ⟨1, 60⟩)) start retries (by decide +kernel))
    (by decide +kernel)
  have hlast := hall (sampleRequest 65, false) [(sampleRequest 30, false), (sampleRequest 0, true)]
    (by decide +kernel) rfl
  revert hlast
  decide +kernel

end EvalEngine.ServedQuota
