import EvalEngine.PathLabels
import EvalEngine.Transitions
import Mathlib.Data.List.Perm.Basic
import Mathlib.Data.Rat.Defs

namespace EvalEngine.HttpMetrics

open EvalEngine.PathLabels EvalEngine.Transitions
open EvalEngine.Exceptions (uuidText)

/-- The labels of `http_requests_total`. -/
structure Labels where
  method : String
  endpoint : String
  statusCode : String
  deriving DecidableEq

/-- The three metrics. A histogram is the list of what it has observed. -/
structure Registry where
  requestsTotal : Labels → ℕ := fun _ => 0
  durationSeconds : String × String → List ℚ := fun _ => []
  inProgress : String → ℤ := fun _ => 0

def Registry.inc (r : Registry) (method : String) (n : ℤ) : Registry :=
  { r with inProgress := Function.update r.inProgress method (r.inProgress method + n) }

def Registry.record (r : Registry) (l : Labels) (duration : ℚ) : Registry :=
  { r with
    requestsTotal := Function.update r.requestsTotal l (r.requestsTotal l + 1)
    durationSeconds := Function.update r.durationSeconds (l.method, l.endpoint)
      (r.durationSeconds (l.method, l.endpoint) ++ [duration]) }

/-- A request inside `call_next`. -/
structure Measured where
  method : String
  endpoint : String
  startTime : ℚ

/-- How `call_next` ends: a cancellation is no `Exception`. -/
inductive Outcome
  | response (statusCode : ℕ)
  | exception
  | cancelled

def Outcome.statusCode : Outcome → Option String
  | .response code => some (toString code)
  | .exception => some "500"
  | .cancelled => none

/-- A request that has been recorded. -/
structure Recorded where
  labels : Labels
  duration : ℚ

/-- The metrics and the requests under way, with what has come of the others. -/
structure State where
  registry : Registry := {}
  inFlight : List Measured := []
  arrived : List (String × String) := []
  recorded : List Recorded := []
  cancelled : List Measured := []

inductive Action
  | arrive (method path : String) (now : ℚ)
  | leave (i : ℕ) (outcome : Outcome) (now : ℚ)

def excludedPrefixes : List String := ["/health", "/metrics", "/docs", "/redoc", "/openapi.json"]

def excluded (path : String) : Bool := excludedPrefixes.any fun p => p.toList.isPrefixOf path.toList

/-- The first half of `dispatch`. -/
def arrive (s : State) (method path : String) (now : ℚ) : State :=
  if excluded path then s
  else
    { s with
      registry := s.registry.inc method 1
      inFlight := s.inFlight ++ [⟨method, normalizePath path, now⟩]
      arrived := s.arrived ++ [(method, path)] }

/-- The `finally` block. A cancelled request has no status code, so that the
block raises before it records anything. -/
def leave (s : State) (i : ℕ) (r : Measured) (outcome : Outcome) (now : ℚ) : State :=
  match outcome.statusCode with
  | some statusCode =>
    { s with
      registry := (s.registry.record ⟨r.method, r.endpoint, statusCode⟩ (now - r.startTime)).inc r.method (-1)
      inFlight := s.inFlight.eraseIdx i
      recorded := s.recorded ++ [⟨⟨r.method, r.endpoint, statusCode⟩, now - r.startTime⟩] }
  | none => { s with inFlight := s.inFlight.eraseIdx i, cancelled := s.cancelled ++ [r] }

def step (s : State) : Action → Option State
  | .arrive method path now => some (arrive s method path now)
  | .leave i outcome now => s.inFlight[i]?.map fun r => leave s i r outcome now

def ofMethod (method : String) (rs : List Measured) : ℕ := rs.countP fun r => decide (r.method = method)

/-- What the metrics say of the requests. -/
structure Accounted (s : State) : Prop where
  total : ∀ l, s.registry.requestsTotal l = s.recorded.countP fun e => decide (e.labels = l)
  durations : ∀ method endpoint, s.registry.durationSeconds (method, endpoint) =
    (s.recorded.filter fun e => decide (e.labels.method = method ∧ e.labels.endpoint = endpoint)).map
      Recorded.duration
  inProgress : ∀ method, s.registry.inProgress method = ofMethod method s.inFlight + ofMethod method s.cancelled
  arrived : ∀ method, (s.arrived.countP fun a => decide (a.1 = method)) =
    (s.recorded.countP fun e => decide (e.labels.method = method)) +
      (ofMethod method s.inFlight + ofMethod method s.cancelled)

/-- The endpoints that are known are labels of paths that have arrived. -/
structure Labelled (s : State) : Prop where
  inFlight : ∀ r ∈ s.inFlight, ∃ path, (r.method, path) ∈ s.arrived ∧ r.endpoint = normalizePath path
  recorded : ∀ e ∈ s.recorded, ∃ path, (e.labels.method, path) ∈ s.arrived ∧ e.labels.endpoint = normalizePath path

variable {s t : State} {method path : String} {now : ℚ} {i : ℕ} {r : Measured} {outcome : Outcome}

theorem ofMethod_append (rs rs' : List Measured) :
    ofMethod method (rs ++ rs') = ofMethod method rs + ofMethod method rs' := List.countP_append

theorem ofMethod_singleton : ofMethod method [r] = if r.method = method then 1 else 0 := by
  simp [ofMethod, List.countP_cons]

theorem ofMethod_erase (h : s.inFlight[i]? = some r) :
    ofMethod method s.inFlight = ofMethod method (s.inFlight.eraseIdx i) + if r.method = method then 1 else 0 := by
  obtain ⟨hi, rfl⟩ := List.getElem?_eq_some_iff.1 h
  have hperm : s.inFlight.Perm (s.inFlight[i] :: s.inFlight.eraseIdx i) := (List.getElem_cons_eraseIdx_perm hi).symm
  rw [ofMethod, hperm.countP_eq, List.countP_cons]
  simp [ofMethod]

theorem accounted_start : Accounted {} where
  total _ := rfl
  durations _ _ := rfl
  inProgress _ := rfl
  arrived _ := rfl

theorem Accounted.arrive (h : Accounted s) : Accounted (arrive s method path now) := by
  unfold HttpMetrics.arrive
  split
  · exact h
  · refine ⟨h.total, h.durations, fun m => ?_, fun m => ?_⟩
    · have hold := h.inProgress m
      have hnew := @ofMethod_singleton m ⟨method, normalizePath path, now⟩
      simp only [Registry.inc, ofMethod_append, Function.update_apply, hnew]
      grind
    · have hold := h.arrived m
      have hnew := @ofMethod_singleton m ⟨method, normalizePath path, now⟩
      simp only [List.countP_append, List.countP_singleton, ofMethod_append, hnew, hold]
      grind

theorem Accounted.leave (h : Accounted s) (hr : s.inFlight[i]? = some r) :
    Accounted (leave s i r outcome now) := by
  unfold HttpMetrics.leave
  cases hcode : outcome.statusCode with
  | some statusCode =>
    refine ⟨fun l => ?_, fun m e => ?_, fun m => ?_, fun m => ?_⟩
    · have hold := h.total l
      simp only [Registry.inc, Registry.record, Function.update_apply, List.countP_append,
        List.countP_singleton]
      grind
    · have hold := h.durations m e
      simp only [Registry.inc, Registry.record, Function.update_apply, List.filter_append, List.map_append]
      grind
    · have hold := h.inProgress m
      have herase := @ofMethod_erase s m i r hr
      simp only [Registry.inc, Registry.record, Function.update_apply]
      grind
    · have hold := h.arrived m
      have herase := @ofMethod_erase s m i r hr
      simp only [List.countP_append, List.countP_singleton]
      grind
  | none =>
    refine ⟨h.total, h.durations, fun m => ?_, fun m => ?_⟩
    · have hold := h.inProgress m
      have herase := @ofMethod_erase s m i r hr
      simp only [ofMethod_append, ofMethod_singleton]
      grind
    · have hold := h.arrived m
      have herase := @ofMethod_erase s m i r hr
      simp only [ofMethod_append, ofMethod_singleton]
      grind

theorem labelled_start : Labelled {} where
  inFlight _ h := absurd h List.not_mem_nil
  recorded _ h := absurd h List.not_mem_nil

theorem Labelled.arrive (h : Labelled s) : Labelled (arrive s method path now) := by
  unfold HttpMetrics.arrive
  split
  · exact h
  · constructor
    · intro r hr
      obtain hr | hr := List.mem_append.1 hr
      · obtain ⟨path', hpath, hlabel⟩ := h.inFlight r hr
        exact ⟨path', List.mem_append_left _ hpath, hlabel⟩
      · rw [List.mem_singleton.1 hr]
        exact ⟨path, List.mem_append_right _ (List.mem_singleton_self _), rfl⟩
    · intro e he
      obtain ⟨path', hpath, hlabel⟩ := h.recorded e he
      exact ⟨path', List.mem_append_left _ hpath, hlabel⟩

theorem Labelled.leave (h : Labelled s) (hr : s.inFlight[i]? = some r) : Labelled (leave s i r outcome now) := by
  have hrest : ∀ r' ∈ s.inFlight.eraseIdx i, ∃ path, (r'.method, path) ∈ s.arrived ∧
      r'.endpoint = normalizePath path := fun r' hr' => h.inFlight r' (List.mem_of_mem_eraseIdx hr')
  unfold HttpMetrics.leave
  split
  · refine ⟨hrest, fun e he => ?_⟩
    obtain he | he := List.mem_append.1 he
    · exact h.recorded e he
    · rw [List.mem_singleton.1 he]
      exact h.inFlight r (List.mem_of_getElem? hr)
  · exact ⟨hrest, h.recorded⟩

theorem step_accounted (a : Action) (h : Accounted s ∧ Labelled s) (hst : step s a = some t) :
    Accounted t ∧ Labelled t := by
  cases a with
  | arrive method path now =>
    cases hst
    exact ⟨h.1.arrive, h.2.arrive⟩
  | leave i outcome now =>
    obtain ⟨r, hr, rfl⟩ := Option.map_eq_some_iff.1 hst
    exact ⟨h.1.leave hr, h.2.leave hr⟩

/-- The routers are all under a prefix that no exclusion names. -/
theorem not_excluded {route : List Part} (hroute : route ∈ routes) (h : PathOf route path) :
    excluded path = false := by
  have hfirst : ∀ route ∈ routes, ∃ rest, route = .literal "api" :: rest := by
    intro route hmem
    obtain ⟨rest, _, rfl⟩ := List.mem_map.1 hmem
    exact ⟨_, rfl⟩
  obtain ⟨rest, rfl⟩ := hfirst route hroute
  obtain ⟨segments, hfilled, htext⟩ := h.filled
  cases hfilled with
  | @cons _ seg _ segments hfills _ =>
    cases hfills
    have hfront : path.toList = '/' :: 'a' :: ("pi".toList ++ joinPath segments) := htext
    simp only [excluded, excludedPrefixes, hfront, List.any_cons, List.any_nil]
    rfl

/-- In every interleaving of requests, the counter and the histogram have each
request that got a response or raised an exception once, except for those under
an excluded prefix, which are not counted at all; the gauge has those under way
and all that were ever cancelled, and the requests to one route of the API share
one label whatever identifiers they name, each in the hyphenated form of `str(id)`. -/
theorem metrics_account (h : Exec step free {} s) :
    Accounted s ∧
    (∀ e ∈ s.recorded, ∃ path, (e.labels.method, path) ∈ s.arrived ∧ e.labels.endpoint = normalizePath path) ∧
    (∀ route ∈ routes, ∀ path, PathOf route path →
      excluded path = false ∧ normalizePath path = template route) ∧
    ∀ id, Fills .parameter (uuidText id).toList := by
  have hboth : Accounted s ∧ Labelled s :=
    Exec.invariant (P := fun s => Accounted s ∧ Labelled s) ⟨accounted_start, labelled_start⟩
      (fun _ a _ hs _ hst => step_accounted a hs hst) h
  exact ⟨hboth.1, hboth.2.recorded, fun route hroute path hpath =>
    ⟨not_excluded hroute hpath, normalizePath_route (routes_plain route hroute) hpath⟩,
    fun id => .parameter (isUuid_uuidText id)⟩

def sampleActions : List Action :=
  [.arrive "GET" "/api/v1/metrics" 0, .arrive "GET" "/api/v1/datasets" 1, .leave 0 (.response 200) 2,
    .leave 0 .cancelled 3]

theorem sample_runs : (runList step {} sampleActions).isSome = true := by decide +kernel

/-- Of two requests, one is answered and one is cancelled: the gauge stays at one. -/
theorem gauge_left : ((runList step {} sampleActions).get sample_runs).registry.inProgress "GET" = 1 := by
  have h := (metrics_account (exec_get step {} sampleActions sample_runs)).1.inProgress "GET"
  have hleft : ((ofMethod "GET" ((runList step {} sampleActions).get sample_runs).inFlight : ℤ) +
      ofMethod "GET" ((runList step {} sampleActions).get sample_runs).cancelled) = 1 := by decide +kernel
  exact h.trans hleft

end EvalEngine.HttpMetrics
