import Mathlib.Logic.Basic

namespace EvalEngine.MiddlewareStack

/-- What serves a request: from the request's own state and the world that all
requests share to a response and what becomes of both. -/
abbrev Handler (σ ω ρ : Type) := σ → ω → ρ × σ × ω

/-- A layer serves a request with the help of the next handler, if it calls it. -/
abbrev Layer (σ ω ρ : Type) := Handler σ ω ρ → Handler σ ω ρ

variable {σ ω ρ α : Type}

/-- The last layer added is the outermost. -/
def addMiddleware (layer : Layer σ ω ρ) (stack : List (Layer σ ω ρ)) : List (Layer σ ω ρ) :=
  layer :: stack

def build (stack : List (Layer σ ω ρ)) (endpoint : Handler σ ω ρ) : Handler σ ω ρ :=
  stack.foldr (fun layer next => layer next) endpoint

/-- A layer that calls the next handler first and then works on its response. -/
def after (f : ρ → ρ) : Layer σ ω ρ := fun next state world =>
  let (response, state, world) := next state world
  (f response, state, world)

/-- A layer that answers some requests itself. -/
def shortcut (response : Option ρ) (layer : Layer σ ω ρ) : Layer σ ω ρ := fun next state world =>
  match response with
  | some response => (response, state, world)
  | none => layer next state world

/-- A part of the world that the handler leaves as it is. -/
def Keeps (f : ω → α) (handler : Handler σ ω ρ) : Prop :=
  ∀ state world, f (handler state world).2.2 = f world

theorem keeps_after {f : ω → α} (g : ρ → ρ) {next : Handler σ ω ρ} (h : Keeps f next) :
    Keeps f (after g next) := h

theorem keeps_shortcut {f : ω → α} (response : Option ρ) {layer : Layer σ ω ρ}
    {next : Handler σ ω ρ} (h : Keeps f (layer next)) : Keeps f (shortcut response layer next) := by
  intro state world
  cases response with
  | none => exact h state world
  | some response => rfl

/-- The frame rule: what the endpoint leaves alone, and every layer if the next
handler does, the whole stack leaves alone. -/
theorem keeps_build {f : ω → α} {stack : List (Layer σ ω ρ)} {endpoint : Handler σ ω ρ}
    (hendpoint : Keeps f endpoint)
    (hlayers : ∀ layer ∈ stack, ∀ next, Keeps f next → Keeps f (layer next)) :
    Keeps f (build stack endpoint) := by
  induction stack with
  | nil => exact hendpoint
  | cons layer stack ih =>
    apply hlayers layer List.mem_cons_self
    apply ih
    intro other hother
    exact hlayers other (List.mem_cons_of_mem layer hother)

/-- Under layers that only work on the response, a layer is called on the
request as it came. -/
theorem build_after_cons (fs : List (ρ → ρ)) (layer : Layer σ ω ρ) (stack : List (Layer σ ω ρ))
    (endpoint : Handler σ ω ρ) (state : σ) (world : ω) :
    (build (fs.map after ++ layer :: stack) endpoint state world).2 =
      (layer (build stack endpoint) state world).2 := by
  induction fs with
  | nil => rfl
  | cons f fs ih => exact ih

end EvalEngine.MiddlewareStack
