import EvalEngine.WebSocketHook
import Mathlib.Tactic.Common

namespace EvalEngine.WebSocketHook

open EvalEngine.Transitions

variable {α : Type*} {s t : State α} {c : Closure} {i k : ℕ}

theorem setPhase_phase (s : State α) (k l : ℕ) (phase : SocketPhase) :
    ((s.setPhase k phase).sockets l).phase = if l = k then phase else (s.sockets l).phase := by
  simp only [State.setPhase, Function.update_apply]
  split <;> rfl

theorem setPhase_closure (s : State α) (k l : ℕ) (phase : SocketPhase) :
    ((s.setPhase k phase).sockets l).closure = (s.sockets l).closure := by
  simp only [State.setPhase, Function.update_apply]
  split
  · next h => rw [h]
  · rfl

theorem close_eq_closed {phase : SocketPhase} : phase.close = .closed ↔ phase = .closed := by
  cases phase <;> simp [SocketPhase.close, SocketPhase.live]

theorem close_live (phase : SocketPhase) : phase.close.live = false := by
  cases phase <;> rfl

theorem ne_closed_of_live {phase : SocketPhase} (h : phase.live = true) : phase ≠ .closed := by
  rintro rfl
  cases h

/-- What the closure of a run of the effect knows of its mount. -/
def Closure.Valid (s : State α) (c : Closure) : Prop :=
  c.mount < s.mounts ∧ c.run < s.runs ∧ c.props.connects = true ∧
    (c.run = (s.effects c.mount).run → c.props = (s.effects c.mount).props)

/-- The sockets and timers of one run of the effect come one after another:
an unclosed socket, or else at most one timer that will open the next. -/
structure Wired (s : State α) : Prop where
  unopened : ∀ k, s.opened ≤ k → (s.sockets k).phase = .closed
  socket : ∀ k, (s.sockets k).phase ≠ .closed → (s.sockets k).closure.Valid s
  timer : ∀ j timer, s.timers j = some timer → timer.closure.Valid s
  oneSocket : ∀ k l, (s.sockets k).phase ≠ .closed → (s.sockets l).phase ≠ .closed →
    (s.sockets k).closure.run = (s.sockets l).closure.run → k = l
  oneTimer : ∀ i j timer timer', s.timers i = some timer → s.timers j = some timer' →
    timer.closure.run = timer'.closure.run → i = j
  apart : ∀ k j timer, (s.sockets k).phase ≠ .closed → s.timers j = some timer →
    (s.sockets k).closure.run ≠ timer.closure.run

/-- A mount off the page has run its cleanup, if its effect returned one. -/
structure Placed (s : State α) : Prop where
  mounted : ∀ i, s.view = some i → i < s.mounts ∧ s.mountedRef i = true
  unmounted : ∀ i < s.mounts, s.view ≠ some i →
    s.mountedRef i = false ∨ (s.effects i).props.connects = false

/-- The run of the effect has no socket and no timer left. -/
structure Idle (s : State α) (run : ℕ) : Prop where
  socket : ∀ k, (s.sockets k).phase ≠ .closed → (s.sockets k).closure.run ≠ run
  timer : ∀ j timer, s.timers j = some timer → timer.closure.run ≠ run

theorem wired_setPhase (h : Wired s) (k : ℕ) (phase : SocketPhase)
    (hk : (s.sockets k).phase = .closed → phase = .closed) : Wired (s.setPhase k phase) := by
  have hopen (l : ℕ) (hl : ((s.setPhase k phase).sockets l).phase ≠ .closed) :
      (s.sockets l).phase ≠ .closed := by
    rw [setPhase_phase] at hl
    grind
  refine
    { unopened := ?_, socket := ?_, timer := h.timer, oneSocket := ?_, oneTimer := h.oneTimer,
      apart := ?_ }
  · intro l hl
    by_contra hne
    exact hopen l hne (h.unopened l hl)
  · intro l hl
    rw [setPhase_closure]
    exact h.socket l (hopen l hl)
  · intro l m hl hm
    rw [setPhase_closure, setPhase_closure]
    exact h.oneSocket l m (hopen l hl) (hopen m hm)
  · intro l j timer hl hj
    rw [setPhase_closure]
    exact h.apart l j timer (hopen l hl) hj

theorem wired_close (h : Wired s) (i : ℕ) : Wired (close s i) := by
  unfold close
  split
  · exact h
  · next k _ =>
    have hset := wired_setPhase h k (s.sockets k).phase.close close_eq_closed.2
    exact { hset with }

theorem wired_cleanup (h : Wired s) (i : ℕ) : Wired (cleanup s i) := by
  unfold cleanup
  split
  · exact wired_close (s := { s with mountedRef := Function.update s.mountedRef i false })
      { h with } i
  · exact h

theorem wired_connect (h : Wired s) (hc : c.Valid s) (hidle : Idle s c.run) :
    Wired (connect s c) := by
  unfold connect
  split
  · refine
      { unopened := ?_, socket := ?_, timer := h.timer, oneSocket := ?_, oneTimer := h.oneTimer,
        apart := ?_ }
    all_goals simp only [Function.update_apply]
    · intro k hk
      rw [if_neg (by omega)]
      exact h.unopened k (by omega)
    · intro k hk
      have := h.socket k
      grind [Closure.Valid]
    · intro k l hk hl
      have := h.oneSocket k l
      have := hidle.socket k
      have := hidle.socket l
      grind
    · intro k j timer hk hj
      have := h.apart k j timer
      have := hidle.timer j timer hj
      grind
  · exact h

theorem wired_clearTimer (h : Wired s) (j : ℕ) :
    Wired { s with timers := Function.update s.timers j none } := by
  have hset (i : ℕ) (timer : Timer) (hi : Function.update s.timers j none i = some timer) :
      s.timers i = some timer := by
    rw [Function.update_apply] at hi
    grind
  exact
    { h with
      timer := fun i timer hi => h.timer i timer (hset i timer hi)
      oneTimer := fun i l timer timer' hi hl =>
        h.oneTimer i l timer timer' (hset i timer hi) (hset l timer' hl)
      apart := fun k i timer hk hi => h.apart k i timer hk (hset i timer hi) }

theorem idle_clearTimer (h : Wired s) {j : ℕ} {timer : Timer} (hj : s.timers j = some timer) :
    Idle { s with timers := Function.update s.timers j none } timer.closure.run where
  socket k hk := h.apart k j timer hk hj
  timer i timer' hi hrun := by
    simp only [Function.update_apply] at hi
    have := h.oneTimer i j timer' timer
    grind

theorem idle_setPhase (h : Wired s) (hk : (s.sockets k).phase ≠ .closed) :
    Idle (s.setPhase k .closed) (s.sockets k).closure.run where
  socket l hl hrun := by
    rw [setPhase_phase] at hl
    rw [setPhase_closure] at hrun
    have := h.oneSocket l k
    grind
  timer j timer hj := (h.apart k j timer hk hj).symm

theorem wired_onClose (h : Wired s) (hc : (s.sockets k).closure.Valid s)
    (hidle : Idle s (s.sockets k).closure.run) (code : ℕ) : Wired (onClose s k code) := by
  unfold onClose
  dsimp only
  split
  · split
    · exact { h with }
    · refine
        { unopened := h.unopened, socket := h.socket, timer := ?_, oneSocket := h.oneSocket,
          oneTimer := ?_, apart := ?_ }
      all_goals simp only [Function.update_apply]
      · intro j timer hj
        have := h.timer j timer
        grind [Closure.Valid]
      · intro i j timer timer' hi hj
        have := h.oneTimer i j timer timer'
        have := hidle.timer i timer
        have := hidle.timer j timer'
        grind
      · intro l j timer hl hj
        have := h.apart l j timer hl
        have := hidle.socket l hl
        grind
  · exact h

/-- The effect runs anew: its run is one that nothing belongs to yet. -/
theorem wired_effect (h : Wired s) (hi : i < s.mounts) (props : Props) :
    Wired (effect s i props) := by
  have hvalid (c : Closure) (hc : c.Valid s) : c.Valid { s with
      effects := Function.update s.effects i ⟨props, s.runs⟩
      runs := s.runs + 1
      mountedRef := Function.update s.mountedRef i true } := by
    obtain ⟨hmount, hrun, hconnects, hprops⟩ := hc
    refine ⟨hmount, Nat.lt_succ_of_lt hrun, hconnects, ?_⟩
    simp only [Function.update_apply]
    split
    · exact fun hnew => absurd hnew (Nat.ne_of_lt hrun)
    · exact hprops
  have hset : Wired { s with
      effects := Function.update s.effects i ⟨props, s.runs⟩
      runs := s.runs + 1
      mountedRef := Function.update s.mountedRef i true } :=
    { h with
      socket := fun k hk => hvalid _ (h.socket k hk)
      timer := fun j timer hj => hvalid _ (h.timer j timer hj) }
  unfold effect
  dsimp only
  split
  · next hconnects =>
    refine wired_connect hset ⟨hi, Nat.lt_succ_self _, hconnects, by simp⟩ ⟨?_, ?_⟩
    · exact fun k hk => Nat.ne_of_lt (h.socket k hk).2.1
    · exact fun j timer hj => Nat.ne_of_lt (h.timer j timer hj).2.1
  · exact hset

theorem wired_start (accessToken : Option String) : Wired (start accessToken : State α) where
  unopened k _ := rfl
  socket k hk := absurd rfl hk
  timer j timer hj := by cases hj
  oneSocket k l hk := absurd rfl hk
  oneTimer i j timer timer' hi := by cases hi
  apart k j timer hk := absurd rfl hk

/-- The handlers of a socket write neither the refs that hold the streams nor
the sockets. -/
structure Unmoved (s t : State α) : Prop where
  mounts : t.mounts = s.mounts
  view : t.view = s.view
  effects : t.effects = s.effects
  mountedRef : t.mountedRef = s.mountedRef
  wsRef : t.wsRef = s.wsRef
  sockets : t.sockets = s.sockets

theorem Unmoved.refl (s : State α) : Unmoved s s := ⟨rfl, rfl, rfl, rfl, rfl, rfl⟩

/-- Only the close handler sets a timer. -/
structure Redrawn (s t : State α) : Prop extends Unmoved s t where
  opened : t.opened = s.opened
  runs : t.runs = s.runs
  timers : t.timers = s.timers

theorem Redrawn.refl (s : State α) : Redrawn s s := ⟨.refl s, rfl, rfl, rfl⟩

theorem onOpen_redrawn (s : State α) (k : ℕ) : Redrawn s (onOpen s k) := by
  unfold onOpen
  dsimp only
  split
  · exact ⟨⟨rfl, rfl, rfl, rfl, rfl, rfl⟩, rfl, rfl, rfl⟩
  · exact .refl s

theorem onMessage_redrawn (s : State α) (k : ℕ) (payload : Option α) :
    Redrawn s (onMessage s k payload) := by
  unfold onMessage
  dsimp only
  split
  · cases payload with
    | none => exact .refl s
    | some data => exact ⟨⟨rfl, rfl, rfl, rfl, rfl, rfl⟩, rfl, rfl, rfl⟩
  · exact .refl s

theorem onError_redrawn (s : State α) (k : ℕ) : Redrawn s (onError s k) := by
  unfold onError
  dsimp only
  split
  · exact ⟨⟨rfl, rfl, rfl, rfl, rfl, rfl⟩, rfl, rfl, rfl⟩
  · exact .refl s

theorem onClose_unmoved (s : State α) (k code : ℕ) : Unmoved s (onClose s k code) := by
  unfold onClose
  dsimp only
  split
  · split <;> exact ⟨rfl, rfl, rfl, rfl, rfl, rfl⟩
  · exact .refl s

theorem placed_unmoved (h : Placed s) (hst : Unmoved s t) : Placed t where
  mounted i hi := by
    rw [hst.mounts, hst.mountedRef]
    exact h.mounted i (hst.view ▸ hi)
  unmounted i hi hview := by
    rw [hst.mountedRef, hst.effects]
    exact h.unmounted i (hst.mounts ▸ hi) (hst.view ▸ hview)

theorem placed_connect (h : Placed s) (c : Closure) : Placed (connect s c) := by
  unfold connect
  split
  · exact { h with }
  · exact h

theorem placed_close (h : Placed s) (i : ℕ) : Placed (close s i) := by
  unfold close
  split
  · exact h
  · exact { h with }

theorem close_place (s : State α) (i : ℕ) :
    (close s i).mounts = s.mounts ∧ (close s i).view = s.view ∧
      (close s i).effects = s.effects ∧ (close s i).mountedRef = s.mountedRef := by
  unfold close
  split <;> exact ⟨rfl, rfl, rfl, rfl⟩

theorem cleanup_place (s : State α) (i : ℕ) :
    (cleanup s i).mounts = s.mounts ∧ (cleanup s i).view = s.view ∧
      (cleanup s i).effects = s.effects ∧
      (cleanup s i).mountedRef = Function.update s.mountedRef i
        (s.mountedRef i && !(s.effects i).props.connects) := by
  unfold cleanup
  split
  · next hconnects =>
    obtain ⟨hmounts, hview, heffects, hmounted⟩ := close_place
      { s with mountedRef := Function.update s.mountedRef i false } i
    exact ⟨hmounts, hview, heffects, by rw [hmounted, hconnects]; simp⟩
  · next hconnects =>
    refine ⟨rfl, rfl, rfl, ?_⟩
    simp [hconnects]

/-- The view leaves the page with the cleanup of its mount. -/
theorem placed_unmount (h : Placed s) (hview : s.view = some i) :
    Placed { cleanup s i with view := none } := by
  obtain ⟨hmounts, -, heffects, hmounted⟩ := cleanup_place s i
  refine { mounted := nofun, unmounted := fun j hj _ => ?_ }
  simp only [hmounted, heffects, Function.update_apply]
  by_cases hji : j = i
  · rw [if_pos hji, hji]
    cases (s.effects i).props.connects <;> simp
  · rw [if_neg hji]
    refine h.unmounted j (hmounts ▸ hj) fun hj' => hji ?_
    rw [hview] at hj'
    exact (Option.some.inj hj').symm

theorem placed_effect (hview : s.view = some i) (hi : i < s.mounts)
    (hothers : ∀ j < s.mounts, j ≠ i →
      s.mountedRef j = false ∨ (s.effects j).props.connects = false) (props : Props) :
    Placed (effect s i props) := by
  have hset : Placed { s with
      effects := Function.update s.effects i ⟨props, s.runs⟩
      runs := s.runs + 1
      mountedRef := Function.update s.mountedRef i true } := by
    refine { mounted := fun j hj => ?_, unmounted := fun j hj hne => ?_ }
    · rw [hview, Option.some.injEq] at hj
      subst hj
      exact ⟨hi, Function.update_self ..⟩
    · have hji : j ≠ i := by
        rintro rfl
        exact hne hview
      simp only [Function.update_of_ne hji]
      exact hothers j hj hji
  unfold effect
  dsimp only
  split
  · exact placed_connect hset _
  · exact hset

theorem placed_mount (h : Placed s) (hview : s.view = none) (props : Props) :
    Placed (effect { s with view := some s.mounts, mounts := s.mounts + 1 } s.mounts props) := by
  refine placed_effect rfl (Nat.lt_succ_self _) (fun j hj hne => ?_) props
  exact h.unmounted j (Nat.lt_of_le_of_ne (Nat.le_of_lt_succ hj) hne) (by simp [hview])

theorem placed_rerun (h : Placed s) (hview : s.view = some i) (props : Props) :
    Placed (effect (cleanup s i) i props) := by
  obtain ⟨hmounts, hview', heffects, hmounted⟩ := cleanup_place s i
  refine placed_effect (hview'.trans hview) (hmounts ▸ (h.mounted i hview).1) (fun j hj hne => ?_)
    props
  rw [hmounted, heffects, Function.update_of_ne hne]
  refine h.unmounted j (hmounts ▸ hj) fun hj' => hne ?_
  rw [hview] at hj'
  exact (Option.some.inj hj').symm

/-- The streams of the view: only the run in force has a socket that is
connecting or open, and `wsRef` holds it. -/
def Streams (s : State α) : Prop :=
  ∀ k, (s.sockets k).phase.live = true →
    s.view = some (s.sockets k).closure.mount ∧
      (s.sockets k).closure.run = (s.effects (s.sockets k).closure.mount).run ∧
        s.wsRef (s.sockets k).closure.mount = some k

def Silent (s : State α) : Prop := ∀ k, (s.sockets k).phase.live = false

theorem streams_of_silent (h : Silent s) : Streams s := by
  intro k hk
  rw [h k] at hk
  cases hk

theorem mount_of_live (h : Streams s) (hk : (s.sockets k).phase.live = true)
    (hview : s.view = some i) : (s.sockets k).closure.mount = i := by
  have hmount := (h k hk).1
  rw [hview, Option.some.injEq] at hmount
  exact hmount.symm

theorem silent_of_unmounted (h : Streams s) (hview : s.view = none) : Silent s := by
  intro k
  by_contra hlive
  rw [Bool.not_eq_false] at hlive
  have hmount := (h k hlive).1
  rw [hview] at hmount
  cases hmount

theorem streams_unmoved (h : Streams s) (hst : Unmoved s t) : Streams t := by
  unfold Streams
  rw [hst.view, hst.effects, hst.wsRef, hst.sockets]
  exact h

theorem streams_setPhase (h : Streams s) (k : ℕ) (phase : SocketPhase)
    (hk : phase.live = true → (s.sockets k).phase.live = true) : Streams (s.setPhase k phase) := by
  intro l hl
  rw [setPhase_phase] at hl
  rw [setPhase_closure]
  refine h l ?_
  split at hl
  · next hlk => exact hlk ▸ hk hl
  · exact hl

theorem streams_close (h : Streams s) (i : ℕ) : Streams (close s i) := by
  unfold close
  split
  · exact h
  · next k hk =>
    intro l hl
    simp only [setPhase_phase] at hl
    simp only [setPhase_closure]
    split at hl
    · rw [close_live] at hl
      cases hl
    · next hlk =>
      obtain ⟨hview, hrun, href⟩ := h l hl
      refine ⟨hview, hrun, ?_⟩
      rw [Function.update_of_ne]
      · exact href
      · rintro hmount
        rw [hmount, hk] at href
        exact hlk (Option.some.inj href).symm

theorem live_of_close (hk : ((close s i).sockets k).phase.live = true) :
    (s.sockets k).phase.live = true := by
  unfold close at hk
  split at hk
  · exact hk
  · simp only [setPhase_phase] at hk
    split at hk
    · rw [close_live] at hk
      cases hk
    · exact hk

theorem live_of_cleanup (hk : ((cleanup s i).sockets k).phase.live = true) :
    (s.sockets k).phase.live = true := by
  unfold cleanup at hk
  split at hk
  · exact live_of_close (s := { s with mountedRef := Function.update s.mountedRef i false }) hk
  · exact hk

/-- The cleanup of the mount on the page closes its stream. -/
theorem silent_cleanup (hwired : Wired s) (h : Streams s) (hview : s.view = some i) :
    Silent (cleanup s i) := by
  intro k
  by_contra hlive
  rw [Bool.not_eq_false] at hlive
  have hk := live_of_cleanup hlive
  obtain ⟨-, hrun, href⟩ := h k hk
  obtain ⟨-, -, hconnects, hprops⟩ := hwired.socket k (ne_closed_of_live hk)
  have hi := mount_of_live h hk hview
  rw [hprops hrun, hi] at hconnects
  rw [hi] at href
  simp [cleanup, hconnects, close, href, setPhase_phase, close_live] at hlive

theorem streams_connect (h : Silent s) (hview : s.view = some c.mount)
    (hrun : c.run = (s.effects c.mount).run) : Streams (connect s c) := by
  unfold connect
  split
  · intro k hk
    by_cases hnew : k = s.opened
    · subst hnew
      simp only [Function.update_self]
      exact ⟨hview, hrun, trivial⟩
    · simp only [Function.update_of_ne hnew] at hk
      rw [h k] at hk
      cases hk
  · exact streams_of_silent h

theorem streams_effect (h : Silent s) (hview : s.view = some i) (props : Props) :
    Streams (effect s i props) := by
  unfold effect
  dsimp only
  split
  · exact streams_connect (by exact h) hview (by simp)
  · exact streams_of_silent (by exact h)

/-- A timer of the run in force fires when that run has no socket left, and
nothing else has one. -/
theorem streams_fire (hwired : Wired s) (hplaced : Placed s) (h : Streams s) {j : ℕ}
    {timer : Timer} (hj : s.timers j = some timer)
    (hmounted : s.mountedRef timer.closure.mount = true)
    (hrun : timer.closure.run = (s.effects timer.closure.mount).run) :
    Silent s ∧ s.view = some timer.closure.mount := by
  obtain ⟨hmount, -, hconnects, hprops⟩ := hwired.timer j timer hj
  have hview : s.view = some timer.closure.mount := by
    by_contra hne
    obtain hunmounted | hidle := hplaced.unmounted _ hmount hne
    · rw [hmounted] at hunmounted
      cases hunmounted
    · rw [← hprops hrun, hconnects] at hidle
      cases hidle
  refine ⟨fun k => ?_, hview⟩
  by_contra hlive
  rw [Bool.not_eq_false] at hlive
  refine hwired.apart k j timer (ne_closed_of_live hlive) hj ?_
  rw [(h k hlive).2.1, mount_of_live h hlive hview, hrun]

theorem currentUrl_of_live (hwired : Wired s) (h : Streams s)
    (hk : (s.sockets k).phase.live = true) :
    s.currentUrl = some (s.sockets k).closure.props.url := by
  obtain ⟨hview, hrun, -⟩ := h k hk
  obtain ⟨-, -, hconnects, hprops⟩ := hwired.socket k (ne_closed_of_live hk)
  rw [hprops hrun] at hconnects ⊢
  simp [State.currentUrl, hview, hconnects]

/-- Every message came over a socket of the url that was current. -/
def Delivered (s : State α) : Prop := ∀ d ∈ s.deliveries, d.currentUrl = some d.url

structure Inv (s : State α) : Prop where
  wired : Wired s
  placed : Placed s
  streams : Streams s
  delivered : Delivered s

/-- A reconnect timer fires for the run of the effect in force, or it finds
`mountedRef` cleared. -/
def InForce (s : State α) : Event α → Prop
  | .fire j => ∀ timer, s.timers j = some timer → s.mountedRef timer.closure.mount = true →
      timer.closure.run = (s.effects timer.closure.mount).run
  | _ => True

theorem inv_start (accessToken : Option String) : Inv (start accessToken : State α) where
  wired := wired_start accessToken
  placed := { mounted := nofun, unmounted := nofun }
  streams := streams_of_silent fun _ => rfl
  delivered := nofun

theorem connect_deliveries (s : State α) (c : Closure) :
    (connect s c).deliveries = s.deliveries := by
  unfold connect
  split <;> rfl

theorem cleanup_deliveries (s : State α) (i : ℕ) : (cleanup s i).deliveries = s.deliveries := by
  unfold cleanup close
  split
  · split <;> rfl
  · rfl

theorem effect_deliveries (s : State α) (i : ℕ) (props : Props) :
    (effect s i props).deliveries = s.deliveries := by
  unfold effect
  dsimp only
  split
  · exact connect_deliveries _ _
  · rfl

theorem delivered_onMessage (h : Delivered s)
    (hk : s.currentUrl = some (s.sockets k).closure.props.url) (payload : Option α) :
    Delivered (onMessage s k payload) := by
  unfold onMessage
  dsimp only
  split
  · cases payload with
    | none => exact h
    | some data =>
      intro d hd
      obtain hd | hd := List.mem_append.1 hd
      · exact h d hd
      · rw [List.mem_singleton] at hd
        rw [hd]
        exact hk
  · exact h

theorem wired_redrawn (h : Wired s) (hst : Redrawn s t) : Wired t := by
  obtain ⟨⟨hmounts, -, heffects, -, -, hsockets⟩, hopened, hruns, htimers⟩ := hst
  obtain ⟨hunopened, hsocket, htimer, honeSocket, honeTimer, hapart⟩ := h
  refine ⟨?_, ?_, ?_, ?_, ?_, ?_⟩
  all_goals simp only [Closure.Valid, hmounts, heffects, hsockets, hopened, hruns, htimers]
  all_goals assumption

theorem inv_redrawn (h : Inv s) (hst : Redrawn s t) (hdelivered : Delivered t) : Inv t where
  wired := wired_redrawn h.wired hst
  placed := placed_unmoved h.placed hst.toUnmoved
  streams := streams_unmoved h.streams hst.toUnmoved
  delivered := hdelivered

theorem inv_rerun (h : Inv s) (hview : s.view = some i) (props : Props) :
    Inv (effect (cleanup s i) i props) where
  wired := by
    refine wired_effect (wired_cleanup h.wired i) ?_ props
    rw [(cleanup_place s i).1]
    exact (h.placed.mounted i hview).1
  placed := placed_rerun h.placed hview props
  streams := by
    refine streams_effect (silent_cleanup h.wired h.streams hview) ?_ props
    rw [(cleanup_place s i).2.1]
    exact hview
  delivered := by
    unfold Delivered
    rw [effect_deliveries, cleanup_deliveries]
    exact h.delivered

theorem inv_mount (h : Inv s) (hview : s.view = none) (props : Props) :
    Inv (effect { s with view := some s.mounts, mounts := s.mounts + 1 } s.mounts props) where
  wired := by
    have hvalid (c : Closure) (hc : c.Valid s) :
        c.Valid { s with view := some s.mounts, mounts := s.mounts + 1 } :=
      ⟨Nat.lt_succ_of_lt hc.1, hc.2⟩
    refine wired_effect ?_ (Nat.lt_succ_self _) props
    exact
      { h.wired with
        socket := fun k hk => hvalid _ (h.wired.socket k hk)
        timer := fun j timer hj => hvalid _ (h.wired.timer j timer hj) }
  placed := placed_mount h.placed hview props
  streams := by
    refine streams_effect (fun k => ?_) rfl props
    exact silent_of_unmounted h.streams hview k
  delivered := by
    unfold Delivered
    rw [effect_deliveries]
    exact h.delivered

theorem inv_unmount (h : Inv s) (hview : s.view = some i) :
    Inv { cleanup s i with view := none } where
  wired := { wired_cleanup h.wired i with }
  placed := placed_unmount h.placed hview
  streams := streams_of_silent fun k => silent_cleanup h.wired h.streams hview k
  delivered := by
    unfold Delivered
    rw [cleanup_deliveries]
    exact h.delivered

theorem inv_close (h : Inv s) (i : ℕ) : Inv (close s i) where
  wired := wired_close h.wired i
  placed := placed_close h.placed i
  streams := streams_close h.streams i
  delivered := by
    have hsame : (close s i).deliveries = s.deliveries := by
      unfold close
      split <;> rfl
    unfold Delivered
    rw [hsame]
    exact h.delivered

theorem inv_setPhase (h : Inv s) (k : ℕ) (phase : SocketPhase)
    (hclosed : (s.sockets k).phase = .closed → phase = .closed)
    (hlive : phase.live = true → (s.sockets k).phase.live = true) : Inv (s.setPhase k phase) where
  wired := wired_setPhase h.wired k phase hclosed
  placed := { h.placed with }
  streams := streams_setPhase h.streams k phase hlive
  delivered := h.delivered

theorem inv_onOpen (h : Inv s) (k : ℕ) : Inv (onOpen s k) := by
  refine inv_redrawn h (onOpen_redrawn s k) ?_
  unfold onOpen
  dsimp only
  split <;> exact h.delivered

theorem inv_onError (h : Inv s) (k : ℕ) : Inv (onError s k) := by
  refine inv_redrawn h (onError_redrawn s k) ?_
  unfold onError
  dsimp only
  split <;> exact h.delivered

theorem inv_onMessage (h : Inv s) (hk : (s.sockets k).phase.live = true) (payload : Option α) :
    Inv (onMessage s k payload) :=
  inv_redrawn h (onMessage_redrawn s k payload)
    (delivered_onMessage h.delivered (currentUrl_of_live h.wired h.streams hk) payload)

/-- A socket closes, and may leave a timer that opens the next one. -/
theorem inv_closed (h : Inv s) (hk : (s.sockets k).phase ≠ .closed) (code : ℕ) :
    Inv (onClose (s.setPhase k .closed) k code) := by
  have hset := inv_setPhase h k .closed (fun _ => rfl) (by simp [SocketPhase.live])
  have hmoved := onClose_unmoved (s.setPhase k .closed) k code
  have hclosure := setPhase_closure s k k .closed
  refine
    { wired := wired_onClose hset.wired ?_ ?_ code
      placed := placed_unmoved hset.placed hmoved
      streams := streams_unmoved hset.streams hmoved
      delivered := ?_ }
  · rw [hclosure]
    exact h.wired.socket k hk
  · rw [hclosure]
    exact idle_setPhase h.wired hk
  · unfold onClose
    dsimp only
    split
    · split <;> exact h.delivered
    · exact h.delivered

theorem inv_fire (h : Inv s) {j : ℕ} {timer : Timer} (hj : s.timers j = some timer)
    (hok : InForce s (.fire j)) (hmounted : s.mountedRef timer.closure.mount = true) :
    Inv (connect { s with timers := Function.update s.timers j none } timer.closure) := by
  have hrun := hok timer hj hmounted
  obtain ⟨hsilent, hview⟩ := streams_fire h.wired h.placed h.streams hj hmounted hrun
  refine
    { wired := ?_
      placed := placed_connect (by exact { h.placed with }) _
      streams := streams_connect (fun k => hsilent k) hview hrun
      delivered := ?_ }
  · exact wired_connect (wired_clearTimer h.wired j) (h.wired.timer j timer hj)
      (idle_clearTimer h.wired hj)
  · unfold Delivered
    rw [connect_deliveries]
    exact h.delivered

theorem inv_clearTimer (h : Inv s) (j : ℕ) :
    Inv { s with timers := Function.update s.timers j none } where
  wired := wired_clearTimer h.wired j
  placed := { h.placed with }
  streams := h.streams
  delivered := h.delivered

theorem inv_step (h : Inv s) {event : Event α} (hok : InForce s event)
    (hst : step s event = some t) : Inv t := by
  cases event with
  | mount props =>
    simp only [step] at hst
    split at hst
    · cases hst
    · next hview =>
      cases hst
      exact inv_mount h hview props
  | unmount =>
    simp only [step, Option.map_eq_some_iff] at hst
    obtain ⟨i, hview, rfl⟩ := hst
    exact inv_unmount h hview
  | render props =>
    simp only [step, Option.map_eq_some_iff] at hst
    obtain ⟨i, hview, rfl⟩ := hst
    split
    · exact h
    · exact inv_rerun h hview props
  | again =>
    simp only [step, Option.map_eq_some_iff] at hst
    obtain ⟨i, hview, rfl⟩ := hst
    exact inv_rerun h hview _
  | opened k =>
    simp only [step, Option.ite_none_right_eq_some, Option.some.injEq] at hst
    obtain ⟨hk, rfl⟩ := hst
    refine inv_onOpen (inv_setPhase h k .opened ?_ ?_) k <;> simp [hk, SocketPhase.live]
  | message k payload =>
    simp only [step, Option.ite_none_right_eq_some, Option.some.injEq] at hst
    obtain ⟨hk, rfl⟩ := hst
    exact inv_onMessage h (by simp [hk, SocketPhase.live]) payload
  | error k =>
    simp only [step, Option.ite_none_left_eq_some, Option.some.injEq] at hst
    obtain ⟨-, rfl⟩ := hst
    exact inv_onError h k
  | closed k code =>
    simp only [step, Option.ite_none_left_eq_some, Option.some.injEq] at hst
    obtain ⟨hk, rfl⟩ := hst
    exact inv_closed h hk code
  | fire j =>
    simp only [step, Option.map_eq_some_iff] at hst
    obtain ⟨timer, hj, rfl⟩ := hst
    unfold reconnect
    split
    · next hmounted => exact inv_fire h hj hok hmounted
    · exact inv_clearTimer h j
  | close i =>
    simp only [step, Option.ite_none_right_eq_some, Option.some.injEq] at hst
    obtain ⟨-, rfl⟩ := hst
    exact inv_close h i
  | login accessToken =>
    simp only [step, Option.some.injEq] at hst
    subst hst
    exact ⟨{ h.wired with }, { h.placed with }, h.streams, h.delivered⟩

/-- One live stream for the view, over the current url, and none off the page. -/
structure OneStream (s : State α) : Prop where
  one : ∀ k l, (s.sockets k).phase.live = true → (s.sockets l).phase.live = true → k = l
  current : ∀ k, (s.sockets k).phase.live = true →
    s.currentUrl = some (s.sockets k).closure.props.url
  delivered : ∀ d ∈ s.deliveries, d.currentUrl = some d.url
  unmounted : s.view = none → ∀ k, (s.sockets k).phase.live = false

theorem oneStream (h : Inv s) : OneStream s where
  one k l hk hl := by
    obtain ⟨hview, -, href⟩ := h.streams k hk
    have href' := (h.streams l hl).2.2
    rw [mount_of_live h.streams hl hview, href] at href'
    exact Option.some.inj href'
  current k := currentUrl_of_live h.wired h.streams
  delivered := h.delivered
  unmounted := silent_of_unmounted h.streams

/-- While no reconnect timer fires for a run of the effect that is over and
finds `mountedRef` set again, there is one live stream. -/
theorem exec_oneStream (accessToken : Option String) (s : State α)
    (h : Exec step InForce (start accessToken) s) : OneStream s :=
  oneStream (h.invariant (inv_start accessToken) fun _ _ _ hs hok hst => inv_step hs hok hst)

/-- The steps that `InForce` leaves out open a socket for a run of the effect
that is over. -/
theorem stale_socket {event : Event α} (hok : ¬ InForce s event) (hst : step s event = some t) :
    ∃ k, (t.sockets k).phase.live = true ∧
      (t.sockets k).closure.run ≠ (t.effects (t.sockets k).closure.mount).run := by
  cases event with
  | fire j =>
    simp only [InForce, not_forall] at hok
    obtain ⟨timer, hj, hmounted, hrun⟩ := hok
    simp only [step, hj, Option.map_some, reconnect, hmounted, if_true, Option.some.injEq] at hst
    subst hst
    refine ⟨s.opened, ?_⟩
    simp [connect, hmounted, SocketPhase.live, hrun]
  | _ => exact absurd trivial hok

section Sample

def firstRun : Props := ⟨"ws://localhost:8000/api/v1/runs/1/stream", true, 8, 1500⟩

def secondRun : Props := ⟨"ws://localhost:8000/api/v1/runs/2/stream", true, 8, 1500⟩

/-- The connection is lost and restored, and the view changes over to another
run of the page and is left. -/
theorem restored_and_left : ∃ s : State ℕ, OneStream s ∧ s.opened = 3 ∧ s.view = none ∧
    s.deliveries.length = 2 := by
  have hlost := ((@Exec.refl _ _ step InForce (start none : State ℕ)).tail
    (a := Event.mount firstRun) trivial rfl).tail (a := Event.closed 0 1006) trivial rfl
  have hrestored := (hlost.tail (a := Event.fire 0) (by rintro timer ⟨⟩ _; rfl) rfl).tail
    (a := Event.opened 1) trivial rfl
  have hchanged := ((hrestored.tail (a := Event.message 1 (some 10)) trivial rfl).tail
    (a := Event.render secondRun) trivial rfl).tail (a := Event.opened 2) trivial rfl
  have hleft := (hchanged.tail (a := Event.message 2 (some 20)) trivial rfl).tail
    (a := Event.unmount) trivial rfl
  exact ⟨_, exec_oneStream none _ hleft, rfl, rfl, rfl⟩

/-- The connection is lost, the view changes over to another run of the page,
and then the reconnect timer fires. -/
def lostAndChanged : List (Event ℕ) :=
  [.mount firstRun, .closed 0 1006, .render secondRun, .fire 0, .opened 1, .opened 2,
    .message 2 (some 10)]

/-- Two sockets are open, the newer one for the url that is gone; its message is
shown, and the other one is still open when the view has been left. -/
theorem stale_stream_shown : ∃ s : State ℕ, Exec step free (start none) s ∧
    (s.sockets 1).phase = .opened ∧ (s.sockets 2).phase = .opened ∧
      (s.sockets 2).closure.props = firstRun ∧ s.currentUrl = some secondRun.url ∧
        (s.shown 0).data = some 10 ∧ ¬ OneStream s ∧
          ∃ t, step s .unmount = some t ∧ t.view = none ∧ (t.sockets 1).phase = .opened := by
  refine ⟨_, exec_get step (start none) lostAndChanged rfl, rfl, rfl, rfl, rfl, rfl, ?_, _, rfl, rfl,
    rfl⟩
  intro h
  have hsame : 1 = 2 := h.one 1 2 rfl rfl
  cases hsame

end Sample

end EvalEngine.WebSocketHook
