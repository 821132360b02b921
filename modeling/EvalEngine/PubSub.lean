import Mathlib.Data.List.Basic
import Mathlib.Logic.Function.Basic

namespace EvalEngine.PubSub

variable {κ μ : Type} [DecidableEq κ]

/-- A subscription to a channel: the messages that wait for its reader, and
those that the reader has taken. -/
structure Subscriber (κ μ : Type) where
  channel : κ
  since : ℕ
  inbox : List μ := []
  taken : List μ := []

/-- What has been published so far, and who listens. -/
structure Broker (κ μ : Type) where
  log : List (κ × μ) := []
  subscribers : ℕ → Option (Subscriber κ μ) := fun _ => none

def published (c : κ) (log : List (κ × μ)) : List μ :=
  (log.filter (fun entry => decide (entry.1 = c))).map Prod.snd

def Subscriber.receive (c : κ) (m : μ) (s : Subscriber κ μ) : Subscriber κ μ :=
  if s.channel = c then { s with inbox := s.inbox ++ [m] } else s

def Subscriber.take (s : Subscriber κ μ) : Subscriber κ μ :=
  match s.inbox with
  | [] => s
  | m :: rest => { s with inbox := rest, taken := s.taken ++ [m] }

/-- The connection breaks, with what it had not handed over. -/
def Subscriber.interrupt (s : Subscriber κ μ) : Subscriber κ μ := { s with inbox := [] }

def Broker.publish (c : κ) (m : μ) (b : Broker κ μ) : Broker κ μ where
  log := b.log ++ [(c, m)]
  subscribers i := (b.subscribers i).map (Subscriber.receive c m)

def Broker.set (i : ℕ) (s : Option (Subscriber κ μ)) (b : Broker κ μ) : Broker κ μ :=
  { b with subscribers := Function.update b.subscribers i s }

def Broker.subscribe (i : ℕ) (c : κ) (b : Broker κ μ) : Broker κ μ :=
  b.set i (some { channel := c, since := b.log.length })

/-- What a subscription is owed. -/
def due (s : Subscriber κ μ) (log : List (κ × μ)) : List μ := published s.channel (log.drop s.since)

/-- No message is invented, repeated or overtaken. -/
structure Faithful (s : Subscriber κ μ) (log : List (κ × μ)) : Prop where
  since : s.since ≤ log.length
  ordered : (s.taken ++ s.inbox).Sublist (due s log)

/-- Nor is any lost. -/
structure Gapless (s : Subscriber κ μ) (log : List (κ × μ)) : Prop where
  since : s.since ≤ log.length
  complete : s.taken ++ s.inbox = due s log

theorem Gapless.faithful {s : Subscriber κ μ} {log : List (κ × μ)} (h : Gapless s log) :
    Faithful s log :=
  ⟨h.since, h.complete ▸ List.Sublist.refl _⟩

theorem published_append (c : κ) (log log' : List (κ × μ)) :
    published c (log ++ log') = published c log ++ published c log' := by
  rw [published, List.filter_append, List.map_append]
  rfl

theorem published_singleton (c d : κ) (m : μ) :
    published c [(d, m)] = if d = c then [m] else [] := by
  by_cases h : d = c <;> simp [published, h]

theorem due_publish {s : Subscriber κ μ} {log : List (κ × μ)} (h : s.since ≤ log.length) (c : κ)
    (m : μ) : due s (log ++ [(c, m)]) = due s log ++ if s.channel = c then [m] else [] := by
  rw [due, List.drop_append_of_le_length h, published_append, published_singleton, due]
  simp only [eq_comm]

theorem due_subscribe (c : κ) (log : List (κ × μ)) :
    due { channel := c, since := log.length } log = [] := by
  rw [due, List.drop_length]
  rfl

section Receive

variable {s : Subscriber κ μ} {log : List (κ × μ)} (c : κ) (m : μ)

theorem receive_all : (s.receive c m).taken ++ (s.receive c m).inbox =
    s.taken ++ s.inbox ++ if s.channel = c then [m] else [] := by
  rw [Subscriber.receive]
  split
  · exact (List.append_assoc _ _ _).symm
  · exact (List.append_nil _).symm

theorem receive_due : due (s.receive c m) log = due s log := by
  rw [Subscriber.receive]
  split <;> rfl

theorem receive_since : (s.receive c m).since = s.since := by
  rw [Subscriber.receive]
  split <;> rfl

theorem Faithful.receive (h : Faithful s log) : Faithful (s.receive c m) (log ++ [(c, m)]) := by
  constructor
  · rw [receive_since, List.length_append]
    exact Nat.le_add_right_of_le h.since
  · rw [receive_due, receive_all, due_publish h.since]
    exact h.ordered.append (.refl _)

theorem Gapless.receive (h : Gapless s log) : Gapless (s.receive c m) (log ++ [(c, m)]) := by
  constructor
  · rw [receive_since, List.length_append]
    exact Nat.le_add_right_of_le h.since
  · rw [receive_due, receive_all, due_publish h.since, h.complete]

end Receive

section Take

variable {s : Subscriber κ μ} {log : List (κ × μ)}

omit [DecidableEq κ] in
theorem take_all (s : Subscriber κ μ) : s.take.taken ++ s.take.inbox = s.taken ++ s.inbox := by
  rw [Subscriber.take]
  split
  next => rfl
  next m rest hinbox =>
    rw [hinbox, List.append_assoc]
    rfl

theorem take_due (s : Subscriber κ μ) : due s.take log = due s log := by
  rw [Subscriber.take]
  split <;> rfl

omit [DecidableEq κ] in
theorem take_since (s : Subscriber κ μ) : s.take.since = s.since := by
  rw [Subscriber.take]
  split <;> rfl

theorem Faithful.take (h : Faithful s log) : Faithful s.take log := by
  refine ⟨(take_since s).symm ▸ h.since, ?_⟩
  rw [take_all, take_due]
  exact h.ordered

theorem Gapless.take (h : Gapless s log) : Gapless s.take log := by
  refine ⟨(take_since s).symm ▸ h.since, ?_⟩
  rw [take_all, take_due, h.complete]

theorem Faithful.interrupt (h : Faithful s log) : Faithful s.interrupt log := by
  refine ⟨h.since, ?_⟩
  have hshort : (s.taken ++ []).Sublist (s.taken ++ s.inbox) :=
    (List.Sublist.refl _).append (List.nil_sublist _)
  exact hshort.trans h.ordered

theorem gapless_subscribe (c : κ) (log : List (κ × μ)) :
    Gapless { channel := c, since := log.length } log :=
  ⟨Nat.le_refl _, (due_subscribe c log).symm⟩

end Take

/-- A property of every subscription and the log. -/
def Broker.All (P : Subscriber κ μ → List (κ × μ) → Prop) (b : Broker κ μ) : Prop :=
  ∀ i s, b.subscribers i = some s → P s b.log

section All

variable {P : Subscriber κ μ → List (κ × μ) → Prop} {b : Broker κ μ}

theorem Broker.All.publish (h : b.All P) {c : κ} {m : μ}
    (hreceive : ∀ s, P s b.log → P (s.receive c m) (b.log ++ [(c, m)])) : (b.publish c m).All P := by
  intro i s hs
  obtain ⟨s₀, hs₀, rfl⟩ := Option.map_eq_some_iff.1 hs
  exact hreceive s₀ (h i s₀ hs₀)

omit [DecidableEq κ] in
theorem Broker.All.set (h : b.All P) {i : ℕ} {o : Option (Subscriber κ μ)} (ho : ∀ s ∈ o, P s b.log) :
    (b.set i o).All P := by
  intro j s hs
  by_cases hj : j = i
  · subst hj
    have hself : Function.update b.subscribers j o j = some s := hs
    rw [Function.update_self] at hself
    exact ho s hself
  · have hother : Function.update b.subscribers i o j = some s := hs
    rw [Function.update_of_ne hj] at hother
    exact h j s hother

end All

end EvalEngine.PubSub
