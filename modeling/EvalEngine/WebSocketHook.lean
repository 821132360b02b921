import EvalEngine.Transitions
import Mathlib.Algebra.Group.Nat.Defs

namespace EvalEngine.WebSocketHook

open EvalEngine.Transitions

structure Props where
  url : String
  enabled : Bool
  reconnectAttempts : ℕ
  reconnectInterval : ℕ
  deriving DecidableEq

/-- The effect connects, and returns a cleanup, unless `!enabled || !url`. -/
def Props.connects (props : Props) : Bool := props.enabled && !decide (props.url = "")

/-- One run of the effect, as its handlers and timers capture it. -/
structure Closure where
  mount : ℕ
  run : ℕ
  props : Props

inductive SocketPhase
  | connecting
  | opened
  | closing
  | closed
  deriving DecidableEq

structure Socket where
  closure : Closure
  fullUrl : String
  phase : SocketPhase

structure Timer where
  closure : Closure
  delay : ℕ

/-- The run of the effect that a mount has in force. -/
structure Effect where
  props : Props
  run : ℕ

structure Shown (α : Type*) where
  data : Option α
  isConnected : Bool
  isConnecting : Bool
  error : Option String

/-- A call of `setData`: the url of the socket and the current one. -/
structure Delivery where
  url : String
  currentUrl : Option String

/-- A view of the page. Each mount of it has refs of its own, `view` is the
mount that is on the page, and `runs`, `opened` and `timeouts` number the runs
of the effect, the sockets and the timers. -/
structure State (α : Type*) where
  mounts : ℕ
  view : Option ℕ
  effects : ℕ → Effect
  mountedRef : ℕ → Bool
  wsRef : ℕ → Option ℕ
  retriesRef : ℕ → ℕ
  shown : ℕ → Shown α
  runs : ℕ
  sockets : ℕ → Socket
  opened : ℕ
  timers : ℕ → Option Timer
  timeouts : ℕ
  accessToken : Option String
  deliveries : List Delivery

variable {α : Type*}

def Props.none : Props := ⟨"", false, 5, 2000⟩

def start (accessToken : Option String) : State α where
  mounts := 0
  view := .none
  effects := fun _ => ⟨Props.none, 0⟩
  mountedRef := fun _ => true
  wsRef := fun _ => .none
  retriesRef := fun _ => 0
  shown := fun _ => ⟨.none, false, false, .none⟩
  runs := 0
  sockets := fun _ => ⟨⟨0, 0, Props.none⟩, "", .closed⟩
  opened := 0
  timers := fun _ => .none
  timeouts := 0
  accessToken := accessToken
  deliveries := []

def State.currentUrl (s : State α) : Option String :=
  s.view.bind fun i =>
    if (s.effects i).props.connects then some (s.effects i).props.url else .none

def fullUrl (url : String) (token : Option String) : String :=
  let separator := if '?' ∈ url.toList then "&" else "?"
  url ++ separator ++ "access_token=" ++ token.getD "null"

def connect (s : State α) (c : Closure) : State α :=
  if s.mountedRef c.mount = true then
    { s with
      shown := Function.update s.shown c.mount
        { s.shown c.mount with isConnecting := true, error := .none }
      sockets := Function.update s.sockets s.opened
        ⟨c, fullUrl c.props.url s.accessToken, .connecting⟩
      wsRef := Function.update s.wsRef c.mount (some s.opened)
      opened := s.opened + 1 }
  else s

def SocketPhase.live : SocketPhase → Bool
  | .connecting => true
  | .opened => true
  | _ => false

/-- `WebSocket.close`, which has no effect on a closing or closed socket. -/
def SocketPhase.close (phase : SocketPhase) : SocketPhase := if phase.live then .closing else phase

def State.setPhase (s : State α) (k : ℕ) (phase : SocketPhase) : State α :=
  { s with sockets := Function.update s.sockets k { s.sockets k with phase := phase } }

def close (s : State α) (i : ℕ) : State α :=
  match s.wsRef i with
  | .none => s
  | some k =>
    { s.setPhase k (s.sockets k).phase.close with wsRef := Function.update s.wsRef i .none }

/-- The function that the effect returns. -/
def cleanup (s : State α) (i : ℕ) : State α :=
  if (s.effects i).props.connects then
    close { s with mountedRef := Function.update s.mountedRef i false } i
  else s

def effect (s : State α) (i : ℕ) (props : Props) : State α :=
  let c : Closure := ⟨i, s.runs, props⟩
  let s := { s with
    effects := Function.update s.effects i ⟨props, s.runs⟩
    runs := s.runs + 1
    mountedRef := Function.update s.mountedRef i true }
  if props.connects then connect s c else s

def onOpen (s : State α) (k : ℕ) : State α :=
  let i := (s.sockets k).closure.mount
  if s.mountedRef i = true then
    { s with
      shown := Function.update s.shown i
        { s.shown i with isConnected := true, isConnecting := false }
      retriesRef := Function.update s.retriesRef i 0 }
  else s

/-- A message whose data parses to `payload`, or does not parse. -/
def onMessage (s : State α) (k : ℕ) (payload : Option α) : State α :=
  let c := (s.sockets k).closure
  if s.mountedRef c.mount = true then
    match payload with
    | .none => s
    | some data =>
      { s with
        shown := Function.update s.shown c.mount { s.shown c.mount with data := some data }
        deliveries := s.deliveries ++ [⟨c.props.url, s.currentUrl⟩] }
  else s

def onError (s : State α) (k : ℕ) : State α :=
  let i := (s.sockets k).closure.mount
  if s.mountedRef i = true then
    { s with
      shown := Function.update s.shown i
        { s.shown i with error := some "WebSocket connection error", isConnecting := false } }
  else s

def onClose (s : State α) (k code : ℕ) : State α :=
  let c := (s.sockets k).closure
  let retries := s.retriesRef c.mount
  if s.mountedRef c.mount = true then
    let s := { s with
      shown := Function.update s.shown c.mount
        { s.shown c.mount with isConnected := false, isConnecting := false } }
    if code = 1000 ∨ c.props.reconnectAttempts ≤ retries then s
    else
      { s with
        retriesRef := Function.update s.retriesRef c.mount (retries + 1)
        timers := Function.update s.timers s.timeouts
          (some ⟨c, c.props.reconnectInterval * 2 ^ retries⟩)
        timeouts := s.timeouts + 1 }
  else s

/-- What the reconnect timer calls. -/
def reconnect (s : State α) (c : Closure) : State α :=
  if s.mountedRef c.mount = true then connect s c else s

/-- What can happen to the view: a render comes with its effects, `again` is
the additional run of the effect under StrictMode, and `close` a call of the
function that the hook returns. -/
inductive Event (α : Type*)
  | mount (props : Props)
  | unmount
  | render (props : Props)
  | again
  | opened (k : ℕ)
  | message (k : ℕ) (payload : Option α)
  | error (k : ℕ)
  | closed (k code : ℕ)
  | fire (j : ℕ)
  | close (i : ℕ)
  | login (accessToken : Option String)

def step (s : State α) : Event α → Option (State α)
  | .mount props =>
    match s.view with
    | some _ => .none
    | .none => some (effect { s with view := some s.mounts, mounts := s.mounts + 1 } s.mounts props)
  | .unmount =>
    s.view.map fun i => { cleanup s i with view := .none }
  | .render props =>
    s.view.map fun i => if (s.effects i).props = props then s else effect (cleanup s i) i props
  | .again =>
    s.view.map fun i => effect (cleanup s i) i (s.effects i).props
  | .opened k =>
    if (s.sockets k).phase = .connecting then some (onOpen (s.setPhase k .opened) k) else .none
  | .message k payload =>
    if (s.sockets k).phase = .opened then some (onMessage s k payload) else .none
  | .error k =>
    if (s.sockets k).phase = .closed then .none else some (onError s k)
  | .closed k code =>
    if (s.sockets k).phase = .closed then .none else some (onClose (s.setPhase k .closed) k code)
  | .fire j =>
    (s.timers j).map fun timer =>
      reconnect { s with timers := Function.update s.timers j .none } timer.closure
  | .close i => if i < s.mounts then some (close s i) else .none
  | .login accessToken => some { s with accessToken := accessToken }

end EvalEngine.WebSocketHook
