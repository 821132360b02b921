import EvalEngine.Exceptions
import EvalEngine.PubSub
import EvalEngine.Transitions

namespace EvalEngine.LiveRelay

open EvalEngine.JsonValues EvalEngine.Exceptions EvalEngine.PubSub EvalEngine.Transitions

/-- A UUID has 128 bits. -/
abbrev RunId := Fin (2 ^ 128)

/-- The payload of `update_progress`. -/
structure Report where
  workerType : String
  progress : ℤ
  detail : String
  updatedAt : ℕ

def progressKey (runId : RunId) (workerType : String) : String :=
  "progress:" ++ uuidText runId.val ++ ":" ++ workerType

def channelOf (runId : RunId) : String := "channel:run:" ++ uuidText runId.val

/-- What Redis holds, the calls of `update_progress` that have written the hash
and not published it yet, the websockets that are accepted and not subscribed yet, and what each
subscription has been sent. -/
structure State where
  hashes : String → Option Report := fun _ => none
  writing : ℕ → Option (RunId × Report) := fun _ => none
  accepted : ℕ → Option RunId := fun _ => none
  broker : Broker String Report := {}
  sent : ℕ → List Report := fun _ => []

inductive Action
  | hset (id : ℕ) (runId : RunId) (report : Report)
  | publish (id : ℕ)
  | fail (id : ℕ)
  | expire (key : String)
  | accept (i : ℕ) (runId : RunId)
  | subscribe (i : ℕ)
  | forward (i : ℕ) (accepted : Bool)
  | interrupt (i : ℕ)
  | close (i : ℕ)

def record (i : ℕ) (report : Report) (accepted : Bool) (sent : ℕ → List Report) : ℕ → List Report :=
  if accepted then Function.update sent i (sent i ++ [report]) else sent

/-- `update_progress` swallows every error, and `stream_run_progress` the errors
of a single message. -/
def step (s : State) : Action → Option State
  | .hset id runId report =>
    match s.writing id with
    | none => some { s with
        hashes := Function.update s.hashes (progressKey runId report.workerType) (some report)
        writing := Function.update s.writing id (some (runId, report)) }
    | some _ => none
  | .publish id =>
    match s.writing id with
    | some (runId, report) => some { s with
        writing := Function.update s.writing id none
        broker := s.broker.publish (channelOf runId) report }
    | none => none
  | .fail id => some { s with writing := Function.update s.writing id none }
  | .expire key => some { s with hashes := Function.update s.hashes key none }
  | .accept i runId =>
    match s.accepted i, s.broker.subscribers i with
    | none, none => some { s with accepted := Function.update s.accepted i (some runId) }
    | _, _ => none
  | .subscribe i =>
    match s.accepted i with
    | some runId => some { s with
        accepted := Function.update s.accepted i none
        broker := s.broker.subscribe i (channelOf runId)
        sent := Function.update s.sent i [] }
    | none => none
  | .forward i accepted =>
    match s.broker.subscribers i with
    | some sub =>
      match sub.inbox with
      | report :: _ => some { s with
          broker := s.broker.set i (some sub.take)
          sent := record i report accepted s.sent }
      | [] => none
    | none => none
  | .interrupt i =>
    match s.broker.subscribers i with
    | some sub => some { s with broker := s.broker.set i (some sub.interrupt) }
    | none => none
  | .close i => some { s with
      accepted := Function.update s.accepted i none
      broker := s.broker.set i none }

/-- The last report of a worker type. -/
def latest (workerType : String) (reports : List Report) : Option Report :=
  reports.reverse.find? (fun report => decide (report.workerType = workerType))

def busy (s : State) (runId : RunId) (workerType : String) : Prop :=
  ∃ id report, s.writing id = some (runId, report) ∧ report.workerType = workerType

/-- The connection to Redis that the socket listens on holds, and its client accepts what it
is sent. -/
def steady (i : ℕ) (_ : State) : Action → Prop
  | .forward j accepted => j = i → accepted = true
  | .interrupt j => j ≠ i
  | _ => True

/-- The tasks of a worker type report on the run one after the other, and no report on it fails
between its hash and its channel. -/
def orderly (runId : RunId) (s : State) : Action → Prop
  | .hset _ runId' report => runId' = runId → ¬ busy s runId report.workerType
  | .fail id => ∀ report, s.writing id ≠ some (runId, report)
  | _ => True

theorem record_self (i : ℕ) (report : Report) (accepted : Bool) (sent : ℕ → List Report) :
    record i report accepted sent i = if accepted then sent i ++ [report] else sent i := by
  rw [record]
  split
  · exact Function.update_self _ _ _
  · rfl

theorem record_of_ne {i j : ℕ} (hj : j ≠ i) (report : Report) (accepted : Bool)
    (sent : ℕ → List Report) : record i report accepted sent j = sent j := by
  rw [record]
  split
  · exact Function.update_of_ne hj _ _
  · rfl

theorem channelOf_inj {runId runId' : RunId} (h : channelOf runId = channelOf runId') : runId = runId' := by
  have hlist := congrArg String.toList h
  simp only [channelOf, String.toList_append] at hlist
  have htext := String.toList_inj.1 (List.append_cancel_left hlist)
  exact Fin.ext (uuidText_inj runId.isLt runId'.isLt htext)

theorem progressKey_inj {runId runId' : RunId} {workerType workerType' : String}
    (h : progressKey runId workerType = progressKey runId' workerType') :
    runId = runId' ∧ workerType = workerType' := by
  have hlist := congrArg String.toList h
  simp only [progressKey, String.toList_append, List.append_assoc] at hlist
  have hlength : ∀ id : RunId, (uuidText id.val).toList.length = 36 := by
    intro id
    rw [String.length_toList, length_uuidText]
  obtain ⟨htext, hrest⟩ := List.append_inj (List.append_cancel_left hlist)
    ((hlength runId).trans (hlength runId').symm)
  have hid := Fin.ext (uuidText_inj runId.isLt runId'.isLt (String.toList_inj.1 htext))
  exact ⟨hid, String.toList_inj.1 (List.append_cancel_left hrest)⟩

theorem latest_append (workerType : String) (reports : List Report) (report : Report) :
    latest workerType (reports ++ [report]) =
      if report.workerType = workerType then some report else latest workerType reports := by
  rw [latest, List.reverse_append, List.reverse_singleton, List.singleton_append, List.find?_cons, latest]
  by_cases h : report.workerType = workerType <;> simp [h]

/-- What a turn of the loop over the messages leaves. -/
theorem step_forward {s t : State} {i : ℕ} {accepted : Bool} (h : step s (.forward i accepted) = some t) :
    ∃ sub report rest, s.broker.subscribers i = some sub ∧ sub.inbox = report :: rest ∧
      t = { s with
        broker := s.broker.set i (some sub.take)
        sent := record i report accepted s.sent } := by
  simp only [step] at h
  split at h
  next sub hsub =>
    split at h
    next report rest hinbox =>
      cases h
      exact ⟨sub, report, rest, hsub, hinbox, rfl⟩
    next => cases h
  next => cases h

theorem taken_take {sub : Subscriber String Report} {report : Report} {rest : List Report}
    (h : sub.inbox = report :: rest) : sub.take.taken = sub.taken ++ [report] := by
  rw [Subscriber.take, h]

theorem subscribers_set_self (b : Broker String Report) (i : ℕ) (o : Option (Subscriber String Report)) :
    (b.set i o).subscribers i = o := Function.update_self _ _ _

theorem subscribers_set {b : Broker String Report} {i j : ℕ} {o : Option (Subscriber String Report)}
    {sub : Subscriber String Report} (h : (b.set i o).subscribers j = some sub) :
    j = i ∧ o = some sub ∨ j ≠ i ∧ b.subscribers j = some sub := by
  by_cases hj : j = i
  · subst hj
    have hself : Function.update b.subscribers j o j = some sub := h
    rw [Function.update_self] at hself
    exact .inl ⟨rfl, hself⟩
  · have hother : Function.update b.subscribers i o j = some sub := h
    rw [Function.update_of_ne hj] at hother
    exact .inr ⟨hj, hother⟩

theorem subscribers_publish {b : Broker String Report} {c : String} {report : Report} {i : ℕ}
    {sub : Subscriber String Report} (h : (b.publish c report).subscribers i = some sub) :
    ∃ sub₀, b.subscribers i = some sub₀ ∧ sub.taken = sub₀.taken ∧ sub.channel = sub₀.channel := by
  obtain ⟨sub₀, hsub₀, rfl⟩ := Option.map_eq_some_iff.1 h
  refine ⟨sub₀, hsub₀, ?_⟩
  rw [Subscriber.receive]
  split <;> exact ⟨rfl, rfl⟩

section Order

/-- Whatever is disturbed, a socket is sent reports of its run in their order, none twice. -/
structure Ordered (s : State) : Prop where
  faithful : s.broker.All Faithful
  sent : ∀ i sub, s.broker.subscribers i = some sub → (s.sent i).Sublist sub.taken

theorem ordered_start : Ordered {} := by
  refine ⟨?_, ?_⟩
  · rintro i sub ⟨⟩
  · rintro i sub ⟨⟩

/-- A step that touches one subscription. -/
theorem Ordered.moved {s t : State} {i : ℕ} {o : Option (Subscriber String Report)} (hinv : Ordered s)
    (hbroker : t.broker = s.broker.set i o) (hothers : ∀ j, j ≠ i → t.sent j = s.sent j)
    (hnew : ∀ sub ∈ o, Faithful sub s.broker.log ∧ (t.sent i).Sublist sub.taken) : Ordered t := by
  constructor
  · rw [hbroker]
    exact hinv.faithful.set fun sub hsub => (hnew sub hsub).1
  · intro j sub hsub
    rw [hbroker] at hsub
    obtain ⟨rfl, hset⟩ | ⟨hj, hold⟩ := subscribers_set hsub
    · exact (hnew sub hset).2
    · rw [hothers j hj]
      exact hinv.sent j sub hold

theorem ordered_publish {s t : State} {id : ℕ} (hinv : Ordered s)
    (h : step s (.publish id) = some t) : Ordered t := by
  simp only [step] at h
  split at h <;> cases h
  refine ⟨hinv.faithful.publish fun sub hsub => hsub.receive _ _, ?_⟩
  intro i sub hsub
  obtain ⟨sub₀, hsub₀, htaken, _⟩ := subscribers_publish hsub
  rw [htaken]
  exact hinv.sent i sub₀ hsub₀

theorem ordered_forward {s t : State} {i : ℕ} {accepted : Bool} (hinv : Ordered s)
    (h : step s (.forward i accepted) = some t) : Ordered t := by
  obtain ⟨sub, report, rest, hsub, hinbox, rfl⟩ := step_forward h
  refine hinv.moved rfl (fun j hj => record_of_ne hj report accepted s.sent) ?_
  rintro _ ⟨⟩
  refine ⟨(hinv.faithful i sub hsub).take, ?_⟩
  dsimp only
  rw [record_self, taken_take hinbox]
  cases accepted with
  | true => exact (hinv.sent i sub hsub).append (.refl _)
  | false => exact (hinv.sent i sub hsub).trans (List.sublist_append_left _ _)

theorem ordered_step (s : State) (a : Action) (t : State) (hinv : Ordered s) (_ : free s a)
    (h : step s a = some t) : Ordered t := by
  cases a with
  | publish id => exact ordered_publish hinv h
  | forward i accepted => exact ordered_forward hinv h
  | fail id | expire key =>
    cases h
    exact ⟨hinv.faithful, hinv.sent⟩
  | hset | accept =>
    simp only [step] at h
    split at h <;> cases h
    exact ⟨hinv.faithful, hinv.sent⟩
  | subscribe i =>
    simp only [step] at h
    split at h <;> cases h
    refine hinv.moved rfl (fun j hj => Function.update_of_ne hj _ _) ?_
    rintro _ ⟨⟩
    refine ⟨(gapless_subscribe _ _).faithful, ?_⟩
    dsimp only
    rw [Function.update_self]
  | interrupt i =>
    simp only [step] at h
    split at h
    next sub hsub =>
      cases h
      refine hinv.moved rfl (fun _ _ => rfl) ?_
      rintro _ ⟨⟩
      exact ⟨(hinv.faithful i sub hsub).interrupt, hinv.sent i sub hsub⟩
    next => cases h
  | close i =>
    cases h
    exact hinv.moved rfl (fun _ _ => rfl) (by rintro _ ⟨⟩)

end Order

section Steady

/-- The socket has been sent all that its subscription has handed over, which is all that was
published for it but what waits. -/
def Served (i : ℕ) (s : State) : Prop :=
  ∀ sub, s.broker.subscribers i = some sub → Gapless sub s.broker.log ∧ s.sent i = sub.taken

variable {i : ℕ}

theorem served_publish {s t : State} {id : ℕ} (hinv : Served i s)
    (h : step s (.publish id) = some t) : Served i t := by
  simp only [step] at h
  split at h
  next runId report hwriting =>
    cases h
    intro sub hsub
    obtain ⟨sub₀, hsub₀, rfl⟩ := Option.map_eq_some_iff.1 hsub
    obtain ⟨hgapless, hsent⟩ := hinv sub₀ hsub₀
    refine ⟨hgapless.receive _ _, hsent.trans ?_⟩
    rw [Subscriber.receive]
    split <;> rfl
  next => cases h

/-- A step that touches one subscription, of this socket or of another. -/
theorem Served.moved {s t : State} {j : ℕ} {o : Option (Subscriber String Report)} (hinv : Served i s)
    (hbroker : t.broker = s.broker.set j o) (hothers : i ≠ j → t.sent i = s.sent i)
    (hnew : i = j → ∀ sub ∈ o, Gapless sub s.broker.log ∧ t.sent i = sub.taken) : Served i t := by
  intro sub hsub
  rw [hbroker] at hsub ⊢
  obtain ⟨hij, hset⟩ | ⟨hij, hold⟩ := subscribers_set hsub
  · exact hnew hij sub hset
  · rw [hothers hij]
    exact hinv sub hold

theorem served_forward {s t : State} {j : ℕ} {accepted : Bool} (hinv : Served i s)
    (hok : j = i → accepted = true) (h : step s (.forward j accepted) = some t) : Served i t := by
  obtain ⟨sub, report, rest, hsub, hinbox, rfl⟩ := step_forward h
  refine hinv.moved rfl (fun hij => record_of_ne hij report accepted s.sent) ?_
  rintro rfl _ ⟨⟩
  obtain ⟨hgapless, hsent⟩ := hinv sub hsub
  refine ⟨hgapless.take, ?_⟩
  dsimp only
  rw [record_self, if_pos (hok rfl), taken_take hinbox, hsent]

theorem served_step (s : State) (a : Action) (t : State) (hinv : Served i s) (hok : steady i s a)
    (h : step s a = some t) : Served i t := by
  cases a with
  | publish id => exact served_publish hinv h
  | forward j accepted => exact served_forward hinv hok h
  | fail id | expire key =>
    cases h
    exact hinv
  | hset | accept =>
    simp only [step] at h
    split at h <;> cases h
    exact hinv
  | subscribe j =>
    simp only [step] at h
    split at h <;> cases h
    refine hinv.moved rfl (fun hij => Function.update_of_ne hij _ _) ?_
    rintro rfl _ ⟨⟩
    exact ⟨gapless_subscribe _ _, Function.update_self _ _ _⟩
  | interrupt j =>
    simp only [step] at h
    split at h <;> cases h
    exact hinv.moved rfl (fun _ => rfl) fun hij => absurd hij.symm hok
  | close j =>
    cases h
    exact hinv.moved rfl (fun _ => rfl) (by rintro _ _ ⟨⟩)

end Steady

section Orderly

variable {runId : RunId}

/-- The hashes and the channel of the run tell the same, but for what is on its way. -/
structure Consistent (runId : RunId) (s : State) : Prop where
  exclusive : ∀ id id' report report', s.writing id = some (runId, report) →
    s.writing id' = some (runId, report') → report.workerType = report'.workerType → id = id'
  written : ∀ id report, s.writing id = some (runId, report) →
    s.hashes (progressKey runId report.workerType) = some report ∨
      s.hashes (progressKey runId report.workerType) = none
  settled : ∀ workerType, ¬ busy s runId workerType →
    s.hashes (progressKey runId workerType) = none ∨
      s.hashes (progressKey runId workerType) =
        latest workerType (published (channelOf runId) s.broker.log)

theorem consistent_start : Consistent runId {} := by
  refine ⟨?_, ?_, fun _ _ => .inl rfl⟩
  · rintro id id' report report' ⟨⟩
  · rintro id report ⟨⟩

theorem consistent_hset {s t : State} {id : ℕ} {runId' : RunId} {report : Report}
    (hinv : Consistent runId s) (hok : runId' = runId → ¬ busy s runId report.workerType)
    (h : step s (.hset id runId' report) = some t) : Consistent runId t := by
  simp only [step] at h
  split at h
  next hidle =>
    cases h
    refine ⟨?_, ?_, ?_⟩
    · intro j j' r r' hj hj' htype
      obtain ⟨rfl, hnew⟩ | hold := entry_update hj
      · cases hnew
        obtain ⟨rfl, _⟩ | hold' := entry_update hj'
        · rfl
        · exact absurd ⟨j', r', hold', htype.symm⟩ (hok rfl)
      · obtain ⟨rfl, hnew'⟩ | hold' := entry_update hj'
        · cases hnew'
          exact absurd ⟨j, r, hold, htype⟩ (hok rfl)
        · exact hinv.exclusive j j' r r' hold hold' htype
    · intro j r hj
      obtain ⟨rfl, hnew⟩ | hold := entry_update hj
      · cases hnew
        left
        dsimp only
        rw [Function.update_self]
      · have hne : progressKey runId r.workerType ≠ progressKey runId' report.workerType := by
          intro heq
          obtain ⟨rfl, htype⟩ := progressKey_inj heq
          exact hok rfl ⟨j, r, hold, htype⟩
        dsimp only
        rw [Function.update_of_ne hne]
        exact hinv.written j r hold
    · intro workerType hfree
      have hne : progressKey runId workerType ≠ progressKey runId' report.workerType := by
        intro heq
        obtain ⟨rfl, rfl⟩ := progressKey_inj heq
        exact hfree ⟨id, report, Function.update_self id (some (runId, report)) s.writing, rfl⟩
      dsimp only
      rw [Function.update_of_ne hne]
      apply hinv.settled
      rintro ⟨j, r, hj, htype⟩
      apply hfree
      refine ⟨j, r, ?_, htype⟩
      have hjd : j ≠ id := by
        rintro rfl
        rw [hidle] at hj
        cases hj
      exact (Function.update_of_ne hjd _ _).trans hj
  next => cases h

theorem latest_publish (s : State) (runId runId' : RunId) (report : Report) (workerType : String) :
    latest workerType (published (channelOf runId) (s.broker.publish (channelOf runId') report).log) =
      if runId' = runId ∧ report.workerType = workerType then some report
      else latest workerType (published (channelOf runId) s.broker.log) := by
  rw [Broker.publish, published_append, published_singleton]
  by_cases hrun : runId' = runId
  · subst hrun
    rw [if_pos rfl, latest_append]
    simp
  · have hne : ¬ channelOf runId' = channelOf runId := fun heq => hrun (channelOf_inj heq)
    rw [if_neg hne, List.append_nil, if_neg fun hboth => hrun hboth.1]

theorem consistent_publish {s t : State} {id : ℕ} (hinv : Consistent runId s)
    (h : step s (.publish id) = some t) : Consistent runId t := by
  simp only [step] at h
  split at h
  next runId' report hwriting =>
    cases h
    refine ⟨?_, ?_, ?_⟩
    · intro j j' r r' hj hj' htype
      obtain ⟨_, hnone⟩ | hold := entry_update hj
      · cases hnone
      · obtain ⟨_, hnone⟩ | hold' := entry_update hj'
        · cases hnone
        · exact hinv.exclusive j j' r r' hold hold' htype
    · intro j r hj
      obtain ⟨_, hnone⟩ | hold := entry_update hj
      · cases hnone
      · exact hinv.written j r hold
    · intro workerType hfree
      rw [latest_publish]
      by_cases hsame : runId' = runId ∧ report.workerType = workerType
      · obtain ⟨rfl, rfl⟩ := hsame
        rw [if_pos ⟨rfl, rfl⟩]
        exact (hinv.written id report hwriting).symm
      · rw [if_neg hsame]
        apply hinv.settled
        rintro ⟨j, r, hj, htype⟩
        apply hfree
        refine ⟨j, r, ?_, htype⟩
        have hjd : j ≠ id := by
          rintro rfl
          rw [hwriting] at hj
          cases hj
          exact hsame ⟨rfl, htype⟩
        exact (Function.update_of_ne hjd _ _).trans hj
  next => cases h

theorem consistent_fail {s t : State} {id : ℕ} (hinv : Consistent runId s)
    (hok : ∀ report, s.writing id ≠ some (runId, report)) (h : step s (.fail id) = some t) :
    Consistent runId t := by
  cases h
  refine ⟨?_, ?_, ?_⟩
  · intro j j' r r' hj hj' htype
    obtain ⟨_, hnone⟩ | hold := entry_update hj
    · cases hnone
    · obtain ⟨_, hnone⟩ | hold' := entry_update hj'
      · cases hnone
      · exact hinv.exclusive j j' r r' hold hold' htype
  · intro j r hj
    obtain ⟨_, hnone⟩ | hold := entry_update hj
    · cases hnone
    · exact hinv.written j r hold
  · intro workerType hfree
    apply hinv.settled
    rintro ⟨j, r, hj, htype⟩
    apply hfree
    refine ⟨j, r, ?_, htype⟩
    have hjd : j ≠ id := by
      rintro rfl
      exact hok r hj
    exact (Function.update_of_ne hjd _ _).trans hj

/-- The other steps leave the hashes, the writers and the log alone. -/
theorem consistent_same {s t : State} (hinv : Consistent runId s) (hhashes : t.hashes = s.hashes)
    (hwriting : t.writing = s.writing) (hlog : t.broker.log = s.broker.log) :
    Consistent runId t := by
  refine ⟨?_, ?_, ?_⟩
  · rw [hwriting]
    exact hinv.exclusive
  · rw [hwriting, hhashes]
    exact hinv.written
  · intro workerType hfree
    rw [hhashes, hlog]
    apply hinv.settled
    rwa [busy, hwriting] at hfree

theorem consistent_step (s : State) (a : Action) (t : State) (hinv : Consistent runId s)
    (hok : orderly runId s a) (h : step s a = some t) : Consistent runId t := by
  cases a with
  | hset id runId' report => exact consistent_hset hinv hok h
  | publish id => exact consistent_publish hinv h
  | fail id => exact consistent_fail hinv hok h
  | expire key =>
    cases h
    refine ⟨hinv.exclusive, ?_, ?_⟩
    · intro id report hwriting
      by_cases hkey : progressKey runId report.workerType = key
      · right
        dsimp only
        rw [hkey, Function.update_self]
      · dsimp only
        rw [Function.update_of_ne hkey]
        exact hinv.written id report hwriting
    · intro workerType hfree
      by_cases hkey : progressKey runId workerType = key
      · left
        dsimp only
        rw [hkey, Function.update_self]
      · dsimp only
        rw [Function.update_of_ne hkey]
        exact hinv.settled workerType hfree
  | forward i accepted =>
    obtain ⟨sub, report, rest, _, _, rfl⟩ := step_forward h
    exact consistent_same hinv rfl rfl rfl
  | accept i | subscribe i | interrupt i =>
    simp only [step] at h
    split at h <;> cases h
    exact consistent_same hinv rfl rfl rfl
  | close i =>
    cases h
    exact consistent_same hinv rfl rfl rfl

theorem latest_some {workerType : String} {reports : List Report} {report : Report}
    (h : latest workerType reports = some report) (before : List Report) :
    latest workerType (before ++ reports) = some report := by
  rw [latest] at h
  rw [latest, List.reverse_append, List.find?_append, h]
  rfl

theorem latest_due {sub : Subscriber String Report} {log : List (String × Report)} {workerType : String}
    {report : Report} (h : latest workerType (due sub log) = some report) :
    latest workerType (published sub.channel log) = some report := by
  rw [← List.take_append_drop sub.since log, published_append]
  exact latest_some h _

end Orderly

/-- A socket is on the stream of a run. -/
def streams (s : State) (i : ℕ) (runId : RunId) (sub : Subscriber String Report) : Prop :=
  s.broker.subscribers i = some sub ∧ sub.channel = channelOf runId

/-- The socket has subscribed since `s₀`, and nothing has disturbed it. -/
def SteadySince (i : ℕ) (s₀ s : State) : Prop :=
  s₀.broker.subscribers i = none ∧ Exec step (steady i) s₀ s

/-- Whatever happens to the connections and the clients, a socket is sent reports
of its own run in the order in which they are published, none twice. Where nothing
disturbs the socket it is sent all of them since it has subscribed. Once it is up to date
it shows for each worker what the polled progress shows, unless that has expired, if the reports on
its run have been orderly. -/
theorem relay_in_order (s : State) (i : ℕ) (runId : RunId) (sub : Subscriber String Report)
    (h : streams s i runId sub) :
    (Exec step free {} s →
      (s.sent i).Sublist (published (channelOf runId) (s.broker.log.drop sub.since))) ∧
    ∀ s₀, SteadySince i s₀ s →
      s.sent i ++ sub.inbox = published (channelOf runId) (s.broker.log.drop sub.since) ∧
      (Exec step (orderly runId) {} s → sub.inbox = [] →
        ∀ workerType report, ¬ busy s runId workerType →
          latest workerType (s.sent i) = some report →
            s.hashes (progressKey runId workerType) = some report ∨
              s.hashes (progressKey runId workerType) = none) := by
  obtain ⟨hsub, hchannel⟩ := h
  constructor
  · intro hexec
    have hinv := hexec.invariant ordered_start ordered_step
    have hordered := (hinv.faithful i sub hsub).ordered
    rw [due, hchannel] at hordered
    exact (hinv.sent i sub hsub).trans ((List.sublist_append_left _ _).trans hordered)
  · rintro s₀ ⟨hnone, hsteady⟩
    have hstart : Served i s₀ := by
      intro sub₀ hsub₀
      rw [hnone] at hsub₀
      cases hsub₀
    obtain ⟨hgapless, hsent⟩ := hsteady.invariant hstart served_step sub hsub
    have hcomplete := hgapless.complete
    rw [← hsent] at hcomplete
    refine ⟨by rw [hcomplete, due, hchannel], ?_⟩
    intro horderly hinbox workerType report hfree hlatest
    have hinv := horderly.invariant consistent_start consistent_step
    rw [hinbox, List.append_nil] at hcomplete
    rw [hcomplete] at hlatest
    have hpublished := latest_due hlatest
    rw [hchannel] at hpublished
    have hsettled := hinv.settled workerType hfree
    rw [hpublished] at hsettled
    exact hsettled.symm

section Sample

def sampleReport : Report := ⟨"github_analysis", 60, "Fetching contributors", 7⟩

/-- A report on another run, which never gets to its channel. -/
def lostReport : Report := ⟨"github_analysis", 10, "Initializing", 6⟩

def accepted : State := { accepted := Function.update (fun _ => none) 0 (some 1) }

def connected : State :=
  { accepted with
    accepted := Function.update accepted.accepted 0 none
    broker := Broker.subscribe 0 (channelOf 1) {}
    sent := Function.update (fun _ => []) 0 [] }

def elsewhere : State :=
  { connected with
    hashes := Function.update (fun _ => none) (progressKey 2 "github_analysis") (some lostReport)
    writing := Function.update (fun _ => none) 5 (some (2, lostReport)) }

def failed : State := { elsewhere with writing := Function.update elsewhere.writing 5 none }

def written : State :=
  { failed with
    hashes := Function.update failed.hashes (progressKey 1 "github_analysis") (some sampleReport)
    writing := Function.update failed.writing 0 (some (1, sampleReport)) }

def announced : State :=
  { written with
    writing := Function.update written.writing 0 none
    broker := written.broker.publish (channelOf 1) sampleReport }

/-- The subscription of the socket when the report has been announced. -/
def waiting : Subscriber String Report := ⟨channelOf 1, 0, [sampleReport], []⟩

def shown : State :=
  { announced with
    broker := announced.broker.set 0 (some waiting.take)
    sent := record 0 sampleReport true announced.sent }

theorem announced_waiting : announced.broker.subscribers 0 = some waiting := by
  have hnew : written.broker.subscribers 0 = some { channel := channelOf 1, since := 0 } :=
    subscribers_set_self _ _ _
  have hreceive : Subscriber.receive (channelOf 1) sampleReport { channel := channelOf 1, since := 0 } =
      waiting := if_pos rfl
  rw [announced, Broker.publish]
  dsimp only
  rw [hnew, Option.map_some, hreceive]

theorem writing_failed : failed.writing = fun _ => none := by
  rw [failed, elsewhere]
  dsimp only
  rw [Function.update_idem]
  exact Function.update_eq_self (f := fun _ : ℕ => (none : Option (RunId × Report))) 5

theorem writing_shown : shown.writing = fun _ => none := by
  have hwriting : shown.writing =
      Function.update (Function.update failed.writing 0 (some (1, sampleReport))) 0 none := rfl
  rw [hwriting, writing_failed, Function.update_idem]
  exact Function.update_eq_self (f := fun _ : ℕ => (none : Option (RunId × Report))) 0

/-- A guard that lets each of the steps through. -/
theorem exec_shown {ok : State → Action → Prop} (haccept : ok {} (.accept 0 1))
    (hsubscribe : ok accepted (.subscribe 0)) (hset : ok connected (.hset 5 2 lostReport))
    (hfail : ok elsewhere (.fail 5)) (hset' : ok failed (.hset 0 1 sampleReport))
    (hpublish : ok written (.publish 0)) (hforward : ok announced (.forward 0 true)) :
    Exec step ok {} shown := by
  have h₁ : step {} (.accept 0 1) = some accepted := rfl
  have h₂ : step accepted (.subscribe 0) = some connected := rfl
  have h₃ : step connected (.hset 5 2 lostReport) = some elsewhere := rfl
  have h₄ : step elsewhere (.fail 5) = some failed := rfl
  have h₅ : step failed (.hset 0 1 sampleReport) = some written := by
    simp only [step, writing_failed]
    rw [written, writing_failed]
    rfl
  have h₆ : step written (.publish 0) = some announced := rfl
  have h₇ : step announced (.forward 0 true) = some shown := by
    simp only [step, announced_waiting, waiting, shown]
  exact (((((((Exec.refl _).tail haccept h₁).tail hsubscribe h₂).tail hset h₃).tail hfail h₄).tail
    hset' h₅).tail hpublish h₆).tail hforward h₇

/-- A socket that has been sent the report of an analysis, while a report on another run has failed. -/
theorem relay_in_order_shown :
    (shown.sent 0).Sublist (published (channelOf 1) (shown.broker.log.drop 0)) ∧
      shown.sent 0 = published (channelOf 1) (shown.broker.log.drop 0) ∧
      (shown.hashes (progressKey 1 "github_analysis") = some sampleReport ∨
        shown.hashes (progressKey 1 "github_analysis") = none) := by
  have hstreams : streams shown 0 1 waiting.take := ⟨subscribers_set_self _ _ _, rfl⟩
  obtain ⟨hordered, hall⟩ := relay_in_order shown 0 1 waiting.take hstreams
  have hsteady : Exec step (steady 0) {} shown :=
    exec_shown trivial trivial trivial trivial trivial trivial fun _ => rfl
  have horderly : Exec step (orderly 1) {} shown := by
    refine exec_shown trivial trivial (fun hrun => ?_) (fun report hwriting => ?_)
      (fun _ => ?_) trivial trivial
    · exact absurd hrun (by decide)
    · have hother : elsewhere.writing 5 = some (2, lostReport) := rfl
      have hrun : (2 : RunId) = 1 := congrArg Prod.fst (Option.some.inj (hother.symm.trans hwriting))
      exact absurd hrun (by decide)
    · rintro ⟨id, report, hwriting, _⟩
      rw [writing_failed] at hwriting
      cases hwriting
  have hfree : Exec step free {} shown :=
    exec_shown trivial trivial trivial trivial trivial trivial trivial
  obtain ⟨hsent, hagree⟩ := hall {} ⟨rfl, hsteady⟩
  have hidle : ¬ busy shown 1 "github_analysis" := by
    rintro ⟨id, report, hwriting, _⟩
    rw [writing_shown] at hwriting
    cases hwriting
  refine ⟨hordered hfree, ?_, hagree horderly rfl "github_analysis" sampleReport hidle rfl⟩
  have hempty : waiting.take.inbox = [] := rfl
  rw [hempty, List.append_nil] at hsent
  exact hsent

end Sample

end EvalEngine.LiveRelay
