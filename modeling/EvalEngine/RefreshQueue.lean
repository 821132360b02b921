import EvalEngine.TokenRefresh
import Mathlib.Data.List.Nodup
import Mathlib.Data.List.Perm.Subperm
import Mathlib.Data.List.Range
import Mathlib.Tactic.Common

namespace EvalEngine.TokenRefresh

open EvalEngine.Transitions

theorem setPhase_phase (s : State) (i j : ℕ) (phase : Phase) :
    ((s.setPhase i phase).requests j).phase = if j = i then phase else (s.requests j).phase := by
  simp only [State.setPhase, Function.update_apply]
  split <;> rfl

theorem setPhase_retry (s : State) (i j : ℕ) (phase : Phase) :
    ((s.setPhase i phase).requests j).retry = (s.requests j).retry := by
  simp only [State.setPhase, Function.update_apply]
  split
  · next h => rw [h]
  · rfl

theorem setPhase_sent (s : State) (i j : ℕ) (phase : Phase) :
    ((s.setPhase i phase).requests j).sent = (s.requests j).sent := by
  simp only [State.setPhase, Function.update_apply]
  split
  · next h => rw [h]
  · rfl

theorem phase_ne_queued (r : Settlement) (promise : Option ℕ) (p : ℕ) :
    r.phase promise ≠ .queued p := by
  cases r <;> simp [Settlement.phase]

/-- A request when the promises `l` have been settled. -/
def Request.drain (l : List ℕ) (r : Settlement) (q : Request) : Request :=
  match q.phase with
  | .queued p => if p ∈ l then { q with phase := r.phase (some p) } else q
  | _ => q

def Deferred.settle (r : Settlement) (d : Deferred) : Deferred :=
  { d with settlements := d.settlements ++ [r] }

theorem drain_of_ne {l : List ℕ} {r : Settlement} {q : Request}
    (h : ∀ p ∈ l, q.phase ≠ .queued p) : q.drain l r = q := by
  unfold Request.drain
  split
  · next p hp => rw [if_neg fun hm => h p hm hp]
  · rfl

theorem drain_of_eq {l : List ℕ} {r : Settlement} {q : Request} {p : ℕ} (hp : q.phase = .queued p)
    (hm : p ∈ l) : q.drain l r = { q with phase := r.phase (some p) } := by
  unfold Request.drain
  rw [hp]
  exact if_pos hm

/-- The requests of the promises `l` wait for these, and for no others. -/
def Waits (s : State) (l : List ℕ) : Prop :=
  ∀ i, ∀ p ∈ l, (s.requests i).phase = .queued p ↔ (s.promises p).request = i

section Settle

variable {s : State} {p : ℕ} {l : List ℕ}

theorem settle_phase (r : Settlement) (s : State) (p i : ℕ) : ((settle r s p).requests i).phase =
    if i = (s.promises p).request then r.phase (some p) else (s.requests i).phase :=
  setPhase_phase s _ i _

theorem settle_promise (r : Settlement) (s : State) (p q : ℕ) : (settle r s p).promises q =
    if q = p then (s.promises p).settle r else s.promises q := by
  simp only [settle, Function.update_apply]
  rfl

theorem waits_settle (h : Waits s (p :: l)) (hp : p ∉ l) (r : Settlement) :
    Waits (settle r s p) l := by
  intro i q hq
  have hne : q ≠ p := fun h => hp (h ▸ hq)
  rw [settle_phase, settle_promise, if_neg hne]
  by_cases hi : i = (s.promises p).request
  · rw [if_pos hi]
    refine iff_of_false (phase_ne_queued r _ q) fun hreq => ?_
    have hqi := (h i q (by simp [hq])).2 hreq
    rw [hi, (h _ p (by simp)).2 rfl, Phase.queued.injEq] at hqi
    exact hne hqi.symm
  · rw [if_neg hi]
    exact h i q (by simp [hq])

theorem drain_settle (h : Waits s (p :: l)) (r : Settlement) (i : ℕ) :
    ((settle r s p).requests i).drain l r = (s.requests i).drain (p :: l) r := by
  by_cases hi : i = (s.promises p).request
  · have hself : (s.requests i).phase = .queued p := (h i p (by simp)).2 hi.symm
    rw [drain_of_eq hself (by simp), drain_of_ne]
    · simp [settle, State.setPhase, hi]
    · intro q _
      rw [settle_phase, if_pos hi]
      exact phase_ne_queued r _ q
  · have hsame : (settle r s p).requests i = s.requests i := by
      simp [settle, State.setPhase, Function.update_of_ne hi]
    rw [hsame]
    unfold Request.drain
    split
    · next q hq =>
      have hqp : q ≠ p := by
        rintro rfl
        exact hi ((h i q (by simp)).1 hq).symm
      simp [hqp]
    · rfl

theorem promises_settle (hp : p ∉ l) (r : Settlement) (q : ℕ) :
    (if q ∈ l then ((settle r s p).promises q).settle r else (settle r s p).promises q) =
      if q ∈ p :: l then (s.promises q).settle r else s.promises q := by
  rw [settle_promise]
  by_cases hq : q = p
  · subst hq
    simp [hp]
  · simp [hq]

/-- The loop of `processQueue` in closed form: every promise is settled once, and
its request leaves the queue. -/
theorem foldl_settle (r : Settlement) (l : List ℕ) (s : State) (hnodup : l.Nodup)
    (hwaits : Waits s l) :
    l.foldl (settle r) s =
      { s with
        requests := fun i => (s.requests i).drain l r
        promises := fun p => if p ∈ l then (s.promises p).settle r else s.promises p } := by
  induction l generalizing s with
  | nil =>
    have hreq : (fun i => (s.requests i).drain [] r) = s.requests :=
      funext fun i => drain_of_ne (by simp)
    simp [hreq]
  | cons p l ih =>
    obtain ⟨hp, hl⟩ := List.nodup_cons.1 hnodup
    rw [List.foldl_cons, ih _ hl (waits_settle hwaits hp r)]
    simp only [drain_settle hwaits, promises_settle hp]
    rfl

end Settle

/-- How a queued request fares: it waits for the refresh in progress, or it was
settled once, as that refresh ended, and is sent with the new token once if that
was its end. -/
inductive Fate (s : State) (p : ℕ) : Prop
  | waiting (hmem : p ∈ s.failedQueue) (hrefresh : (s.promises p).refresh = s.refreshes.length)
      (hsettled : (s.promises p).settlements = []) (hreplays : (s.promises p).replays = [])
  | rejected (hmem : p ∉ s.failedQueue)
      (hrefresh : (s.refreshes[(s.promises p).refresh]?).map Prod.snd = some .reject)
      (hsettled : (s.promises p).settlements = [.reject]) (hreplays : (s.promises p).replays = [])
  | waking (token : String) (hmem : p ∉ s.failedQueue)
      (hrefresh : (s.refreshes[(s.promises p).refresh]?).map Prod.snd = some (.resolve token))
      (hsettled : (s.promises p).settlements = [.resolve token])
      (hphase : (s.requests (s.promises p).request).phase = .waking token (some p))
      (hreplays : (s.promises p).replays = [])
  | replayed (token : String) (hmem : p ∉ s.failedQueue)
      (hrefresh : (s.refreshes[(s.promises p).refresh]?).map Prod.snd = some (.resolve token))
      (hsettled : (s.promises p).settlements = [.resolve token])
      (hreplays : (s.promises p).replays = [some (bearer token)])

structure Inv (s : State) : Prop where
  fresh : ∀ i, (s.requests i).phase = .unsent ↔ s.issued ≤ i
  unmarked : ∀ i, s.issued ≤ i → (s.requests i).retry = false
  calls : s.refreshCalls.length ≤ 1
  flag : s.isRefreshing = true ↔ s.refreshCalls ≠ []
  refreshing : ∀ i, (s.requests i).phase = .refreshing ↔ i ∈ s.refreshCalls.map (·.request)
  idle : s.refreshCalls = [] → s.failedQueue = []
  marked : ∀ i ∈ s.refreshes.map Prod.fst ++ s.refreshCalls.map (·.request),
    (s.requests i).retry = true
  distinct : (s.refreshes.map Prod.fst ++ s.refreshCalls.map (·.request)).Nodup
  queued : ∀ i p, (s.requests i).phase = .queued p ↔
    p ∈ s.failedQueue ∧ (s.promises p).request = i
  nodup : s.failedQueue.Nodup
  members : ∀ p ∈ s.failedQueue, p < s.created
  fate : ∀ p < s.created, Fate s p
  woken : ∀ i token p, (s.requests i).phase = .waking token (some p) →
    p < s.created ∧ (s.promises p).request = i ∧ (s.promises p).replays = [] ∧
      (s.promises p).settlements = [.resolve token]
  waking : ∀ i token promise, (s.requests i).phase = .waking token promise →
    s.accessToken = some token
  sends : ∀ i, (s.requests i).sent.length + (if (s.requests i).phase.awake then 1 else 0) ≤
    1 + s.refreshes.length

theorem Fate.frame {s t : State} {p : ℕ} (h : Fate s p)
    (hqueue : p ∈ t.failedQueue ↔ p ∈ s.failedQueue) (hrefreshes : t.refreshes = s.refreshes)
    (hpromise : t.promises p = s.promises p)
    (hphase : ∀ token, (s.requests (s.promises p).request).phase = .waking token (some p) →
      (t.requests (s.promises p).request).phase = .waking token (some p)) : Fate t p := by
  cases h with
  | waiting hmem hrefresh hsettled hreplays =>
    exact .waiting (hqueue.2 hmem) (by rw [hpromise, hrefreshes, hrefresh])
      (by rw [hpromise, hsettled]) (by rw [hpromise, hreplays])
  | rejected hmem hrefresh hsettled hreplays =>
    exact .rejected (hqueue.not.2 hmem) (by rw [hpromise, hrefreshes, hrefresh])
      (by rw [hpromise, hsettled]) (by rw [hpromise, hreplays])
  | waking token hmem hrefresh hsettled hwaking hreplays =>
    exact .waking token (hqueue.not.2 hmem) (by rw [hpromise, hrefreshes, hrefresh])
      (by rw [hpromise, hsettled]) (by rw [hpromise, hphase token hwaking])
      (by rw [hpromise, hreplays])
  | replayed token hmem hrefresh hsettled hreplays =>
    exact .replayed token (hqueue.not.2 hmem) (by rw [hpromise, hrefreshes, hrefresh])
      (by rw [hpromise, hsettled]) (by rw [hpromise, hreplays])

/-- A request that is not waking changes, and no promise is touched. -/
theorem Fate.elsewhere {s t : State} {i p : ℕ} (h : Fate s p)
    (hi : (s.requests i).phase.awake = false)
    (hqueue : p ∈ t.failedQueue ↔ p ∈ s.failedQueue) (hrefreshes : t.refreshes = s.refreshes)
    (hpromise : t.promises p = s.promises p)
    (hother : ∀ j, j ≠ i → (t.requests j).phase = (s.requests j).phase) : Fate t p := by
  refine h.frame hqueue hrefreshes hpromise fun token hw => ?_
  rw [hother]
  · exact hw
  · intro hpi
    rw [hpi] at hw
    rw [hw] at hi
    cases hi

theorem inv_start (accessToken refreshToken : Option String) (pathname : String) :
    Inv (start accessToken refreshToken pathname) where
  fresh i := by simp [start]
  unmarked i _ := rfl
  calls := by simp [start]
  flag := by simp [start]
  refreshing i := by simp [start]
  idle _ := rfl
  marked i hi := by simp [start] at hi
  distinct := by simp [start]
  queued i p := by simp [start]
  nodup := by simp [start]
  members p hp := by simp [start] at hp
  fate p hp := by simp [start] at hp
  woken i token p h := by simp [start] at h
  waking i token promise h := by simp [start] at h
  sends i := by simp [start, Phase.awake]

variable {s t : State} {i : ℕ} {token : String}

theorem awake_eq_false (h : Inv s) (hb : ¬ busy s) (i : ℕ) :
    (s.requests i).phase.awake = false := by
  by_cases hi : i < s.issued
  · by_contra hawake
    exact hb ⟨i, hi, by simpa using hawake⟩
  · rw [(h.fresh i).2 (not_lt.1 hi)]
    rfl

theorem issued_of_inFlight (h : Inv s) (hi : (s.requests i).phase = .inFlight) : i < s.issued := by
  rw [← not_le, ← h.fresh, hi]
  simp

theorem refreshCalls_eq_nil (h : Inv s) (hflag : s.isRefreshing = false) : s.refreshCalls = [] := by
  by_contra hsome
  rw [h.flag.2 hsome] at hflag
  cases hflag

/-- A request that has not gone out again keeps within its number of sends. -/
theorem sends_asleep (h : Inv s) {q : Request} (hsent : q.sent = (s.requests i).sent)
    (hq : q.phase.awake = false) :
    q.sent.length + (if q.phase.awake then 1 else 0) ≤ 1 + s.refreshes.length := by
  have hi := h.sends i
  rw [hq, hsent, if_neg (by decide)]
  omega

theorem ne_waking (h : Inv s) (hb : ¬ busy s) (i : ℕ) (token : String) (promise : Option ℕ) :
    (s.requests i).phase ≠ .waking token promise := by
  intro hw
  have := awake_eq_false h hb i
  rw [hw] at this
  cases this

theorem inv_page (h : Inv s) (hb : ¬ busy s) (accessToken refreshToken : Option String)
    (pathname : String) :
    Inv { s with
      accessToken := accessToken, refreshToken := refreshToken, pathname := pathname } :=
  { h with
    fate := fun p hp => (h.fate p hp).frame Iff.rfl rfl rfl fun _ hw => hw
    waking := fun i token promise hw => absurd hw (ne_waking h hb i token promise) }

/-- A request in flight is answered for good. -/
theorem inv_finish (h : Inv s) (hi : (s.requests i).phase = .inFlight) (q : Request)
    (hq : q.phase = .resolved ∨ q.phase = .rejected) (hsent : q.sent = (s.requests i).sent)
    (hretry : (s.requests i).retry = true → q.retry = true) :
    Inv { s with requests := Function.update s.requests i q } := by
  have hissued := issued_of_inFlight h hi
  refine
    { h with
      fresh := ?_, unmarked := ?_, refreshing := ?_, marked := ?_, queued := ?_, fate := ?_,
      woken := ?_, waking := ?_, sends := ?_ }
  all_goals simp only [Function.update_apply]
  · intro j
    have := h.fresh j
    grind
  · intro j
    have := h.unmarked j
    grind
  · intro j
    have := h.refreshing j
    grind
  · intro j hj
    have := h.marked j hj
    grind
  · intro j p
    have := h.queued j p
    grind
  · intro p hp
    refine (h.fate p hp).elsewhere (i := i) (by rw [hi]; rfl) Iff.rfl rfl rfl fun j hj => ?_
    simp only [Function.update_of_ne hj]
  · intro j token p
    have := h.woken j token p
    grind
  · intro j token promise
    have := h.waking j token promise
    grind
  · intro j
    by_cases hji : j = i
    · rw [if_pos hji]
      exact sends_asleep h hsent (by obtain hq | hq := hq <;> rw [hq] <;> rfl)
    · rw [if_neg hji]
      exact h.sends j

theorem inv_issue (h : Inv s) (authorization : Option String) :
    Inv { send s s.issued ⟨authorization, false, .unsent, []⟩ with issued := s.issued + 1 } := by
  have hunsent : (s.requests s.issued).phase = .unsent := (h.fresh s.issued).2 le_rfl
  have hmarked (i : ℕ) (hi : i ∈ s.refreshes.map Prod.fst ++ s.refreshCalls.map (·.request)) :
      i ≠ s.issued := by
    intro hi'
    have := h.marked i hi
    rw [hi', h.unmarked s.issued le_rfl] at this
    cases this
  unfold send
  refine
    { h with
      fresh := ?_, unmarked := ?_, refreshing := ?_, marked := ?_, queued := ?_, fate := ?_,
      woken := ?_, waking := ?_, sends := ?_ }
  all_goals simp only [Function.update_apply]
  · intro j
    have := h.fresh j
    grind
  · intro j hj
    rw [if_neg (by omega)]
    exact h.unmarked j (by omega)
  · intro j
    have := h.refreshing j
    grind
  · intro j hj
    rw [if_neg (hmarked j hj)]
    exact h.marked j hj
  · intro j p
    have := h.queued j p
    grind
  · intro p hp
    refine (h.fate p hp).elsewhere (i := s.issued) (by rw [hunsent]; rfl) Iff.rfl rfl rfl
      fun j hj => ?_
    simp only [Function.update_of_ne hj]
  · intro j token p
    have := h.woken j token p
    grind
  · intro j token promise
    have := h.waking j token promise
    grind
  · intro j
    by_cases hj : j = s.issued
    · simp [hj, Phase.awake]
    · simpa [hj] using h.sends j

/-- A request fails while a refresh is in progress. -/
theorem inv_enqueue (h : Inv s) (hi : (s.requests i).phase = .inFlight)
    (hflag : s.isRefreshing = true) : Inv (enqueue s i) := by
  have hnew : s.created ∉ s.failedQueue := fun hm => lt_irrefl _ (h.members _ hm)
  have hphase := setPhase_phase s i
  unfold enqueue
  refine
    { h with
      fresh := ?_, unmarked := ?_, refreshing := ?_, idle := ?_, marked := ?_, queued := ?_,
      nodup := ?_, members := ?_, fate := ?_, woken := ?_, waking := ?_, sends := ?_ }
  all_goals simp only [hphase, setPhase_retry, setPhase_sent]
  · intro j
    have := h.fresh j
    have := h.fresh i
    grind [State.setPhase]
  · exact h.unmarked
  · intro j
    have := h.refreshing j
    have := h.refreshing i
    grind [State.setPhase]
  · intro hnone
    exact absurd hnone (h.flag.1 hflag)
  · exact h.marked
  · intro j p
    have := h.queued j p
    have := h.members p
    grind [Function.update_apply]
  · exact h.nodup.append (List.nodup_singleton _) (by simpa using hnew)
  · intro p hp
    have := h.members p
    grind
  · intro p hp
    by_cases hpc : p = s.created
    · subst hpc
      exact .waiting (by simp) (by simp [State.setPhase]) (by simp) (by simp)
    · refine (h.fate p (by omega)).elsewhere (i := i) (by rw [hi]; rfl) (by simp [hpc]) rfl
        (by simp [hpc]) fun j hj => ?_
      rw [hphase, if_neg hj]
  · intro j token p
    have := h.woken j token p
    grind [Function.update_apply]
  · intro j token promise
    have := h.waking j token promise
    grind [State.setPhase]
  · intro j
    have hj := h.sends j
    by_cases hji : j = i
    · subst hji
      rw [hi] at hj
      simpa [Phase.awake, State.setPhase] using hj
    · simpa [hji, State.setPhase] using hj

theorem beginRefresh_phase (s : State) (i j : ℕ) (phase : Phase) :
    (((beginRefresh s i).setPhase i phase).requests j).phase =
      if j = i then phase else (s.requests j).phase := by
  rw [setPhase_phase]
  by_cases hj : j = i
  · simp [hj]
  · simp [hj, beginRefresh]

theorem beginRefresh_retry (s : State) (i j : ℕ) (phase : Phase) :
    (((beginRefresh s i).setPhase i phase).requests j).retry =
      if j = i then true else (s.requests j).retry := by
  simp only [setPhase_retry, beginRefresh, Function.update_apply]
  split <;> rfl

theorem beginRefresh_sent (s : State) (i j : ℕ) (phase : Phase) :
    (((beginRefresh s i).setPhase i phase).requests j).sent = (s.requests j).sent := by
  simp only [setPhase_sent, beginRefresh, Function.update_apply]
  split
  · next hj => rw [hj]
  · rfl

/-- A request fails while no refresh is in progress and starts one. -/
theorem inv_beginRefresh (h : Inv s) (hi : (s.requests i).phase = .inFlight)
    (hretry : (s.requests i).retry = false) (hflag : s.isRefreshing = false) (token : String) :
    Inv { (beginRefresh s i).setPhase i .refreshing with
      refreshCalls := s.refreshCalls ++ [⟨i, token⟩] } := by
  have hnone := refreshCalls_eq_nil h hflag
  have hissued := issued_of_inFlight h hi
  have hphase (j : ℕ) := beginRefresh_phase s i j .refreshing
  have hmark (j : ℕ) := beginRefresh_retry s i j .refreshing
  have hsent (j : ℕ) := beginRefresh_sent s i j .refreshing
  have hnew : i ∉ s.refreshes.map Prod.fst := by
    intro hm
    have := h.marked i (List.mem_append_left _ hm)
    rw [hretry] at this
    cases this
  refine
    { fresh := ?_, unmarked := ?_, calls := ?_, flag := ?_, refreshing := ?_, idle := ?_,
      marked := ?_, distinct := ?_, queued := ?_, nodup := h.nodup, members := h.members,
      fate := ?_, woken := ?_, waking := ?_, sends := ?_ }
  all_goals simp only [hphase, hmark, hsent, hnone, List.nil_append]
  · intro j
    have := h.fresh j
    grind [State.setPhase, beginRefresh]
  · intro j hj
    rw [if_neg (by rintro rfl; exact absurd hissued (not_lt.2 hj))]
    exact h.unmarked j hj
  · simp
  · simp [State.setPhase, beginRefresh]
  · intro j
    have := h.refreshing j
    grind
  · intro hcons
    cases hcons
  · intro j hj
    have := h.marked j
    grind [State.setPhase, beginRefresh]
  · have hd := h.distinct
    rw [hnone, List.map_nil, List.append_nil] at hd
    exact List.Nodup.append hd (List.nodup_singleton i) (List.disjoint_singleton.2 hnew)
  · intro j p
    have := h.queued j p
    grind [State.setPhase, beginRefresh]
  · intro p hp
    refine (h.fate p hp).elsewhere (i := i) (by rw [hi]; rfl) Iff.rfl rfl rfl fun j hj => ?_
    rw [hphase, if_neg hj]
  · intro j token p
    have := h.woken j token p
    grind [State.setPhase, beginRefresh]
  · intro j token promise
    have := h.waking j token promise
    grind [State.setPhase, beginRefresh]
  · intro j
    have hj := h.sends j
    by_cases hji : j = i
    · subst hji
      rw [hi] at hj
      simpa [Phase.awake, State.setPhase, beginRefresh] using hj
    · simpa [hji, State.setPhase, beginRefresh] using hj

theorem processQueue_eq (hnodup : s.failedQueue.Nodup)
    (hqueued : ∀ i p, (s.requests i).phase = .queued p ↔
      p ∈ s.failedQueue ∧ (s.promises p).request = i) (r : Settlement) :
    processQueue r s =
      { s with
        failedQueue := []
        requests := fun i => (s.requests i).drain s.failedQueue r
        promises := fun p => if p ∈ s.failedQueue then (s.promises p).settle r
          else s.promises p } := by
  have hwaits : Waits s s.failedQueue := by
    intro i p hp
    rw [hqueued]
    simp [hp]
  unfold processQueue
  rw [foldl_settle r _ _ hnodup hwaits]

/-- Nothing is queued when no refresh is in progress. -/
theorem processQueue_of_idle (hidle : s.failedQueue = []) (r : Settlement) :
    processQueue r s = s := by
  unfold processQueue
  rw [hidle]
  cases s
  simp_all

/-- The state after the refresh of the request `i` has ended with `r`. -/
def State.ended (s : State) (i : ℕ) (r : Settlement) (accessToken refreshToken : Option String)
    (pathname : String) : State where
  isRefreshing := false
  failedQueue := []
  accessToken := accessToken
  refreshToken := refreshToken
  pathname := pathname
  requests := fun j =>
    if j = i then { s.requests i with phase := r.phase none }
    else (s.requests j).drain s.failedQueue r
  issued := s.issued
  promises := fun p => if p ∈ s.failedQueue then (s.promises p).settle r else s.promises p
  created := s.created
  refreshCalls := []
  refreshes := s.refreshes ++ [(i, r)]

theorem drain_retry (l : List ℕ) (r : Settlement) (q : Request) :
    (q.drain l r).retry = q.retry := by
  unfold Request.drain
  split
  · split <;> rfl
  · rfl

theorem drain_sent (l : List ℕ) (r : Settlement) (q : Request) : (q.drain l r).sent = q.sent := by
  unfold Request.drain
  split
  · split <;> rfl
  · rfl

/-- What a request does as a refresh ends: the one that called for it and the
queued ones go on, the others stay where they are. -/
theorem ended_phase (h : Inv s) (hi : (s.requests i).phase = .refreshing) (r : Settlement)
    (a b : Option String) (c : String) (j : ℕ) :
    ((s.ended i r a b c).requests j).phase =
      match (s.requests j).phase with
      | .queued p => r.phase (some p)
      | .refreshing => if j = i then r.phase none else .refreshing
      | phase => phase := by
  simp only [State.ended]
  by_cases hj : j = i
  · subst hj
    rw [if_pos rfl, hi]
    simp
  · rw [if_neg hj]
    cases hphase : (s.requests j).phase with
    | queued p => rw [drain_of_eq hphase ((h.queued j p).1 hphase).1]
    | _ => rw [drain_of_ne (by simp [hphase])]; simp [hphase, hj]

theorem Fate.of_mem {p : ℕ} (h : Fate s p) (hm : p ∈ s.failedQueue) :
    (s.promises p).refresh = s.refreshes.length ∧ (s.promises p).settlements = [] ∧
      (s.promises p).replays = [] := by
  cases h with
  | waiting _ hrefresh hsettled hreplays => exact ⟨hrefresh, hsettled, hreplays⟩
  | rejected hmem => exact absurd hm hmem
  | waking _ hmem => exact absurd hm hmem
  | replayed _ hmem => exact absurd hm hmem

theorem Fate.of_resolved {p : ℕ} (h : Fate s p)
    (hr : (s.promises p).settlements = [.resolve token]) : p ∉ s.failedQueue ∧
      (s.refreshes[(s.promises p).refresh]?).map Prod.snd = some (.resolve token) := by
  cases h with
  | waiting _ _ hsettled => simp [hr] at hsettled
  | rejected _ _ hsettled => simp [hr] at hsettled
  | waking token' hmem hrefresh hsettled =>
    rw [hr, List.singleton_inj, Settlement.resolve.injEq] at hsettled
    exact ⟨hmem, hsettled ▸ hrefresh⟩
  | replayed token' hmem hrefresh hsettled =>
    rw [hr, List.singleton_inj, Settlement.resolve.injEq] at hsettled
    exact ⟨hmem, hsettled ▸ hrefresh⟩

theorem refresh_append {l : List (ℕ × Settlement)} {k : ℕ} {r : Settlement}
    (h : (l[k]?).map Prod.snd = some r) (x : ℕ × Settlement) :
    ((l ++ [x])[k]?).map Prod.snd = some r := by
  have hk : k < l.length := by
    by_contra hk
    rw [List.getElem?_eq_none (not_lt.1 hk)] at h
    cases h
  rw [List.getElem?_append_left hk]
  exact h

/-- The end of a refresh settles what waits for it and leaves what is settled. -/
theorem fate_ended (h : Inv s) (hb : ¬ busy s) (hi : (s.requests i).phase = .refreshing)
    (r : Settlement) (a b : Option String) (c : String) {p : ℕ} (hp : p < s.created) :
    Fate (s.ended i r a b c) p := by
  have hout : p ∉ (s.ended i r a b c).failedQueue := List.not_mem_nil
  cases h.fate p hp with
  | waiting hmem hrefresh hsettled hreplays =>
    have hd : (s.ended i r a b c).promises p = (s.promises p).settle r := if_pos hmem
    have hend : ((s.ended i r a b c).refreshes[((s.promises p).settle r).refresh]?).map Prod.snd =
        some r := by
      simp [State.ended, Deferred.settle, hrefresh]
    have hset : ((s.promises p).settle r).settlements = [r] := by
      simp [Deferred.settle, hsettled]
    cases r with
    | reject =>
      exact .rejected hout (by rw [hd]; exact hend) (by rw [hd, hset]) (by rw [hd]; exact hreplays)
    | resolve token =>
      have hphase : (s.requests (s.promises p).request).phase = .queued p :=
        (h.queued _ p).2 ⟨hmem, rfl⟩
      refine .waking token hout (by rw [hd]; exact hend) (by rw [hd, hset]) ?_
        (by rw [hd]; exact hreplays)
      rw [hd, ended_phase h hi]
      simp [Deferred.settle, hphase, Settlement.phase]
  | rejected hmem hrefresh hsettled hreplays =>
    have hd : (s.ended i r a b c).promises p = s.promises p := if_neg hmem
    exact .rejected hout (by rw [hd]; exact refresh_append hrefresh _) (by rw [hd, hsettled])
      (by rw [hd, hreplays])
  | waking token hmem hrefresh hsettled hphase hreplays =>
    exact absurd hphase (ne_waking h hb _ _ _)
  | replayed token hmem hrefresh hsettled hreplays =>
    have hd : (s.ended i r a b c).promises p = s.promises p := if_neg hmem
    exact .replayed token hout (by rw [hd]; exact refresh_append hrefresh _) (by rw [hd, hsettled])
      (by rw [hd, hreplays])

theorem ended_retry (s : State) (i j : ℕ) (r : Settlement) (a b : Option String) (c : String) :
    ((s.ended i r a b c).requests j).retry = (s.requests j).retry := by
  simp only [State.ended]
  split
  · next hj => rw [hj]
  · exact drain_retry _ _ _

theorem ended_sent (s : State) (i j : ℕ) (r : Settlement) (a b : Option String) (c : String) :
    ((s.ended i r a b c).requests j).sent = (s.requests j).sent := by
  simp only [State.ended]
  split
  · next hj => rw [hj]
  · exact drain_sent _ _ _

/-- Who is woken for a promise was queued with it, and the refresh got a token. -/
theorem queued_of_woken (h : Inv s) (hb : ¬ busy s) (hi : (s.requests i).phase = .refreshing)
    (r : Settlement) (a b : Option String) (c : String) {j p : ℕ}
    (hw : ((s.ended i r a b c).requests j).phase = .waking token (some p)) :
    (s.requests j).phase = .queued p ∧ r = .resolve token := by
  rw [ended_phase h hi] at hw
  cases hj : (s.requests j).phase with
  | queued q =>
    rw [hj] at hw
    cases r with
    | reject => cases hw
    | resolve token' =>
      cases hw
      exact ⟨rfl, rfl⟩
  | refreshing =>
    rw [hj] at hw
    cases r <;> grind [Settlement.phase]
  | waking token' promise => exact absurd hj (ne_waking h hb j _ _)
  | _ => rw [hj] at hw; cases hw

theorem inv_ended (h : Inv s) (hb : ¬ busy s) {call : RefreshCall} (hcall : s.refreshCalls = [call])
    (r : Settlement) (a b : Option String) (c : String)
    (htoken : ∀ token, r = .resolve token → a = some token) :
    Inv (s.ended call.request r a b c) := by
  have hi : (s.requests call.request).phase = .refreshing := by simp [h.refreshing, hcall]
  have hphase := ended_phase h hi r a b c
  have honly (j : ℕ) (hj : (s.requests j).phase = .refreshing) : j = call.request := by
    simpa [hcall] using (h.refreshing j).1 hj
  have hmark (j : ℕ) := ended_retry s call.request j r a b c
  have hsent (j : ℕ) := ended_sent s call.request j r a b c
  have hquiet := awake_eq_false h hb
  refine
    { fresh := ?_, unmarked := ?_, calls := ?_, flag := ?_, refreshing := ?_, idle := ?_,
      marked := ?_, distinct := ?_, queued := ?_, nodup := ?_, members := ?_,
      fate := ?_, woken := ?_, waking := ?_, sends := ?_ }
  all_goals try simp only [hphase, hmark, hsent]
  · intro j
    have := h.fresh j
    have := honly j
    cases r <;> grind [State.ended, Settlement.phase]
  · exact h.unmarked
  · simp [State.ended]
  · simp [State.ended]
  · intro j
    have := honly j
    cases r <;> grind [State.ended, Settlement.phase]
  · intro _
    rfl
  · intro j hj
    have := h.marked j
    grind [State.ended]
  · have hd := h.distinct
    rw [hcall] at hd
    simpa [State.ended] using hd
  · intro j p
    have := honly j
    cases r <;> grind [State.ended, Settlement.phase]
  · exact List.nodup_nil
  · intro p hp
    cases hp
  · intro p hp
    exact fate_ended h hb hi r a b c hp
  · intro j token p hw
    rw [← hphase] at hw
    obtain ⟨hj, rfl⟩ := queued_of_woken h hb hi r a b c hw
    obtain ⟨hm, hreq⟩ := (h.queued j p).1 hj
    obtain ⟨-, hsettled, hreplays⟩ := (h.fate p (h.members p hm)).of_mem hm
    refine ⟨h.members p hm, ?_, ?_, ?_⟩ <;> simp only [State.ended, if_pos hm]
    · exact hreq
    · exact hreplays
    · simp [Deferred.settle, hsettled]
  · intro j token promise
    have := hquiet j
    cases r <;> grind [State.ended, Settlement.phase, Phase.awake]
  · intro j
    have hj := h.sends j
    have hone (phase : Phase) : (if phase.awake then 1 else 0) ≤ 1 := by split <;> omega
    rw [hquiet j, if_neg (by decide)] at hj
    refine (Nat.add_le_add_left (hone _) _).trans ?_
    simp only [State.ended, List.length_append, List.length_singleton]
    omega

theorem requestInterceptor_bearer (token : String) :
    requestInterceptor (some token) (some (bearer token)) = some (bearer token) := by
  by_cases htoken : token = "" <;> simp [requestInterceptor, htoken]

theorem replay_requests (hw : s.accessToken = some token) (promise : Option ℕ) :
    (replay s i token promise).requests = Function.update s.requests i
      { s.requests i with
        authorization := some (bearer token)
        phase := .inFlight
        sent := (s.requests i).sent ++ [some (bearer token)] } := by
  unfold replay
  cases promise <;> simp [send, hw, requestInterceptor_bearer]

theorem replay_promises (hw : s.accessToken = some token) (promise : Option ℕ) (p : ℕ) :
    (replay s i token promise).promises p =
      if promise = some p then
        { s.promises p with replays := (s.promises p).replays ++ [some (bearer token)] }
      else s.promises p := by
  unfold replay
  cases promise with
  | none => rfl
  | some q =>
    simp only [hw, requestInterceptor_bearer, Function.update_apply, Option.some.injEq]
    by_cases hq : p = q
    · simp [hq]
    · simp [hq, Ne.symm hq]

theorem replay_same (s : State) (i : ℕ) (token : String) (promise : Option ℕ) :
    (replay s i token promise).isRefreshing = s.isRefreshing ∧
      (replay s i token promise).failedQueue = s.failedQueue ∧
      (replay s i token promise).accessToken = s.accessToken ∧
      (replay s i token promise).issued = s.issued ∧
      (replay s i token promise).created = s.created ∧
      (replay s i token promise).refreshCalls = s.refreshCalls ∧
      (replay s i token promise).refreshes = s.refreshes := by
  unfold replay send
  cases promise <;> exact ⟨rfl, rfl, rfl, rfl, rfl, rfl, rfl⟩

theorem fate_replay (h : Inv s) {promise : Option ℕ}
    (hi : (s.requests i).phase = .waking token promise) {p : ℕ} (hp : p < s.created) :
    Fate (replay s i token promise) p := by
  have htoken := h.waking i token promise hi
  have hd := replay_promises (i := i) htoken promise p
  obtain ⟨-, hqueue, -, -, -, -, hrefreshes⟩ := replay_same s i token promise
  by_cases hpp : promise = some p
  · rw [if_pos hpp] at hd
    obtain ⟨-, -, hnone, hresolved⟩ := h.woken i token p (hpp ▸ hi)
    obtain ⟨hmem, hrefresh⟩ := (h.fate p hp).of_resolved hresolved
    exact .replayed token (by rw [hqueue]; exact hmem) (by rw [hd, hrefreshes]; exact hrefresh)
      (by rw [hd]; exact hresolved) (by simp [hd, hnone])
  · rw [if_neg hpp] at hd
    refine (h.fate p hp).frame (by rw [hqueue]) hrefreshes hd fun token' hw => ?_
    have hne : (s.promises p).request ≠ i := by
      intro hpi
      rw [hpi, hi, Phase.waking.injEq] at hw
      exact hpp hw.2
    rw [replay_requests htoken, Function.update_of_ne hne]
    exact hw

/-- A waking request goes out with the new token. -/
theorem inv_replay (h : Inv s) {token : String} {promise : Option ℕ}
    (hi : (s.requests i).phase = .waking token promise) : Inv (replay s i token promise) := by
  have htoken := h.waking i token promise hi
  have hreq := replay_requests (i := i) htoken promise
  have hprom := replay_promises (i := i) htoken promise
  obtain ⟨hflag, hqueue, haccess, hissued, hcreated, hcalls, hrefreshes⟩ :=
    replay_same s i token promise
  refine
    { fresh := ?_, unmarked := ?_, calls := ?_, flag := ?_, refreshing := ?_, idle := ?_,
      marked := ?_, distinct := ?_, queued := ?_, nodup := ?_, members := ?_,
      fate := ?_, woken := ?_, waking := ?_, sends := ?_ }
  all_goals
    simp only [hreq, hprom, hflag, hqueue, haccess, hissued, hcreated, hcalls, hrefreshes,
      Function.update_apply]
  · intro j
    have := h.fresh j
    grind
  · intro j hj
    have := h.unmarked j hj
    grind
  · exact h.calls
  · exact h.flag
  · intro j
    have := h.refreshing j
    grind
  · exact h.idle
  · intro j hj
    have := h.marked j hj
    grind
  · exact h.distinct
  · intro j p
    have := h.queued j p
    grind
  · exact h.nodup
  · exact h.members
  · intro p hp
    exact fate_replay h hi hp
  · intro j token' p hw
    have hji : j ≠ i := by
      rintro rfl
      simp at hw
    rw [if_neg hji] at hw
    have hpp : promise ≠ some p := by
      rintro rfl
      exact hji ((h.woken j token' p hw).2.1.symm.trans (h.woken i token p hi).2.1)
    rw [if_neg hpp]
    exact h.woken j token' p hw
  · intro j token' promise'
    have := h.waking j token' promise'
    grind
  · intro j
    have hj := h.sends j
    by_cases hji : j = i
    · subst hji
      rw [hi] at hj
      simpa [Phase.awake, Nat.add_assoc] using hj
    · simpa [hji] using hj

theorem goToLogin_eq (s : State) : goToLogin s = { s with pathname := "/login" } := by
  unfold goToLogin
  split
  · rfl
  · next h => rw [← not_not.1 h]

theorem inv_withoutRefreshToken (h : Inv s) (hb : ¬ busy s) (hi : (s.requests i).phase = .inFlight)
    (hflag : s.isRefreshing = false) : Inv (withoutRefreshToken (beginRefresh s i) i) := by
  have hnone := refreshCalls_eq_nil h hflag
  have heq : withoutRefreshToken (beginRefresh s i) i =
      { s with
        accessToken := none
        pathname := "/login"
        requests := Function.update s.requests i
          { s.requests i with retry := true, phase := .rejected } } := by
    have hqueue : (beginRefresh s i).failedQueue = [] := h.idle hnone
    unfold withoutRefreshToken
    rw [processQueue_of_idle hqueue]
    dsimp only
    rw [goToLogin_eq]
    simp [beginRefresh, State.setPhase, hflag]
  rw [heq]
  exact inv_finish (inv_page h hb none s.refreshToken "/login") hi _ (.inr rfl) rfl fun _ => rfl

theorem inv_responseInterceptor (h : Inv s) (hb : ¬ busy s)
    (hi : (s.requests i).phase = .inFlight) (status : Option ℕ) :
    Inv (responseInterceptor s i status) := by
  unfold responseInterceptor
  split
  · next hfirst =>
    split
    · next hflag => exact inv_enqueue h hi hflag
    · next hflag =>
      have hidle : s.isRefreshing = false := by simpa using hflag
      dsimp only
      split
      · exact inv_withoutRefreshToken h hb hi hidle
      · next token _ =>
        split
        · exact inv_withoutRefreshToken h hb hi hidle
        · exact inv_beginRefresh h hi hfirst.2 hidle token
  · exact inv_finish h hi _ (.inr rfl) rfl id

theorem refreshed_eq (h : Inv s) {call : RefreshCall} (hcall : s.refreshCalls = [call])
    (data : Option TokenResponse) : ∃ r a b c,
      refreshed s call.request data = s.ended call.request r a b c ∧
        ∀ token, r = .resolve token → a = some token := by
  have hi : (s.requests call.request).phase = .refreshing := by simp [h.refreshing, hcall]
  have hself (r : Settlement) :
      (s.requests call.request).drain s.failedQueue r = s.requests call.request :=
    drain_of_ne (by simp [hi])
  have hreq (r : Settlement) : Function.update (fun j => (s.requests j).drain s.failedQueue r)
        call.request { s.requests call.request with phase := r.phase none } =
      fun j => if j = call.request then { s.requests call.request with phase := r.phase none }
        else (s.requests j).drain s.failedQueue r :=
    funext fun j => Function.update_apply _ _ _ _
  cases data with
  | none =>
    refine ⟨.reject, none, none, "/login", ?_, by simp⟩
    unfold refreshed
    dsimp only
    rw [goToLogin_eq, processQueue_eq]
    · simp only [State.setPhase, State.ended, hcall, hself]
      simpa [Settlement.phase] using hreq .reject
    · exact h.nodup
    · exact h.queued
  | some data =>
    refine ⟨.resolve data.accessToken, some data.accessToken, some data.refreshToken, s.pathname,
      ?_, by simp⟩
    unfold refreshed
    dsimp only
    rw [processQueue_eq]
    · simp [State.setPhase, State.ended, hcall, hself, ← hreq]
    · exact h.nodup
    · exact h.queued

theorem calls_eq (h : Inv s) (hcall : ∃ call ∈ s.refreshCalls, call.request = i) :
    ∃ call, s.refreshCalls = [call] ∧ call.request = i := by
  obtain ⟨call, hm, hi⟩ := hcall
  obtain ⟨only, honly⟩ : ∃ only, s.refreshCalls = [only] :=
    List.length_eq_one_iff.1 (le_antisymm h.calls (List.length_pos_of_mem hm))
  rw [honly, List.mem_singleton] at hm
  exact ⟨only, honly, hm ▸ hi⟩

theorem inv_step (h : Inv s) {event : Event} (hst : step s event = some t) : Inv t := by
  cases event with
  | issue authorization =>
    simp only [step, Option.ite_none_left_eq_some, Option.some.injEq] at hst
    obtain ⟨-, rfl⟩ := hst
    exact inv_issue h authorization
  | success i =>
    simp only [step, Option.ite_none_left_eq_some, Option.some.injEq, not_or, not_not] at hst
    obtain ⟨⟨-, hi⟩, rfl⟩ := hst
    exact inv_finish h hi _ (.inl rfl) rfl id
  | failure i status =>
    simp only [step, Option.ite_none_left_eq_some, Option.some.injEq, not_or, not_not] at hst
    obtain ⟨⟨hb, hi⟩, rfl⟩ := hst
    exact inv_responseInterceptor h hb hi status
  | refreshed i data =>
    simp only [step, Option.ite_none_left_eq_some, Option.some.injEq, not_or] at hst
    obtain ⟨⟨hb, hcall⟩, rfl⟩ := hst
    push Not at hcall
    obtain ⟨call, hcalls, rfl⟩ := calls_eq h hcall
    obtain ⟨r, a, b, c, heq, htoken⟩ := refreshed_eq h hcalls data
    rw [heq]
    exact inv_ended h hb hcalls r a b c htoken
  | replay i =>
    simp only [step] at hst
    split at hst
    · next token promise hi =>
      cases hst
      exact inv_replay h hi
    · cases hst
  | page accessToken refreshToken pathname =>
    simp only [step, Option.ite_none_left_eq_some, Option.some.injEq] at hst
    obtain ⟨hb, rfl⟩ := hst
    exact inv_page h hb accessToken refreshToken pathname

/-- The events by which what is under way goes on. -/
def Event.answers : Event → Bool
  | .issue _ => false
  | .page _ _ _ => false
  | _ => true

/-- No request is lost, and none goes round for ever. -/
structure LosesNone (s : State) : Prop where
  oneCall : s.refreshCalls.length ≤ 1
  queued : ∀ i p, (s.requests i).phase = .queued p ↔
    p ∈ s.failedQueue ∧ (s.promises p).request = i
  fate : ∀ p < s.created, Fate s p
  drained : s.refreshCalls = [] → s.failedQueue = []
  sends : ∀ i, (s.requests i).sent.length ≤ 1 + s.issued
  settled : (∀ event : Event, event.answers = true → step s event = none) →
    s.failedQueue = [] ∧
      ∀ i < s.issued, (s.requests i).phase = .resolved ∨ (s.requests i).phase = .rejected

/-- Every refresh is called for by a request of its own. -/
theorem refreshes_le (h : Inv s) : s.refreshes.length ≤ s.issued := by
  have hn : (s.refreshes.map Prod.fst).Nodup := (List.nodup_append.1 h.distinct).1
  have hsub : s.refreshes.map Prod.fst ⊆ List.range s.issued := by
    intro i hi
    rw [List.mem_range]
    by_contra hissued
    have hretry := h.marked i (List.mem_append_left _ hi)
    rw [h.unmarked i (not_lt.1 hissued)] at hretry
    cases hretry
  simpa using (hn.subperm hsub).length_le

theorem not_busy_of_stuck (hstuck : ∀ event : Event, event.answers = true → step s event = none) :
    ¬ busy s := by
  rintro ⟨i, -, hi⟩
  have hreplay := hstuck (.replay i) rfl
  cases hphase : (s.requests i).phase with
  | waking token promise => simp [step, hphase] at hreplay
  | _ => simp [hphase, Phase.awake] at hi

theorem settled_of_stuck (h : Inv s)
    (hstuck : ∀ event : Event, event.answers = true → step s event = none) :
    s.failedQueue = [] ∧
      ∀ i < s.issued, (s.requests i).phase = .resolved ∨ (s.requests i).phase = .rejected := by
  have hb := not_busy_of_stuck hstuck
  have hcalls : s.refreshCalls = [] := by
    rw [List.eq_nil_iff_forall_not_mem]
    intro call hm
    have hrefreshed := hstuck (.refreshed call.request none) rfl
    simp only [step, ite_eq_left_iff, reduceCtorEq, imp_false, not_not] at hrefreshed
    exact hrefreshed.resolve_left hb call hm rfl
  have hidle := h.idle hcalls
  refine ⟨hidle, fun i hi => ?_⟩
  cases hphase : (s.requests i).phase with
  | unsent => exact absurd ((h.fresh i).1 hphase) (not_le.2 hi)
  | inFlight =>
    have hsuccess := hstuck (.success i) rfl
    simp [step, hb, hphase] at hsuccess
  | queued p => simp [h.queued, hidle] at hphase
  | refreshing => simp [h.refreshing, hcalls] at hphase
  | waking token promise => exact absurd hphase (ne_waking h hb i token promise)
  | resolved => exact .inl rfl
  | rejected => exact .inr rfl

theorem losesNone (h : Inv s) : LosesNone s where
  oneCall := h.calls
  queued := h.queued
  fate := h.fate
  drained := h.idle
  sends i := by
    have hi := h.sends i
    have hle := refreshes_le h
    omega
  settled := settled_of_stuck h

theorem exec_losesNone (accessToken refreshToken : Option String) (pathname : String) (s : State)
    (h : Exec step free (start accessToken refreshToken pathname) s) : LosesNone s :=
  losesNone (h.invariant (inv_start accessToken refreshToken pathname)
    fun _ _ _ hs _ hst => inv_step hs hst)

/-- Two requests fail with the old token, and both come back with the new one. -/
def twoRequests : List Event :=
  [.issue none, .issue none, .failure 0 (some 401), .failure 1 (some 401),
    .refreshed 0 (some ⟨"new", "next"⟩), .replay 1, .replay 0, .success 0, .failure 1 (some 401)]

theorem two_requests_refreshed : LosesNone
    ((runList step (start (some "old") (some "first") "/") twoRequests).get (by decide)) :=
  exec_losesNone (some "old") (some "first") "/" _
    (exec_get step (start (some "old") (some "first") "/") twoRequests (by decide))

end EvalEngine.TokenRefresh
