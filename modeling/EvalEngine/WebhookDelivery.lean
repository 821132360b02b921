import EvalEngine.Exceptions
import EvalEngine.Retries

namespace EvalEngine.WebhookDelivery

open EvalEngine.JsonValues EvalEngine.Exceptions EvalEngine.Retries

inductive HttpxError
  | httpStatusError (statusCode : ℕ)
  | connectError
  | timeoutException
  | other (error : String)

/-- How the endpoint behaves in one attempt: it responds, or the request fails. -/
inductive Answer
  | response (statusCode : ℕ)
  | connectError
  | timeout
  | otherError (error : String)

structure Request where
  url : String
  content : ByteArray
  headers : List (String × String)

/-- The clock, the settings, what `orjson` and `hmac` compute, and the methods of
the `structlog` logger: `logger.info(event, **kw)`. -/
structure Environment where
  now : ℕ
  secretKey : String
  appVersion : String
  dumps : Json → Except PyException ByteArray
  hmacSha256 : ByteArray → ByteArray → String
  info : String → Dict → Except PyException Unit
  error : String → Dict → Except PyException Unit

/-- The text of an entry is the parameter `event` of both methods, so that
keyword clashes with it. -/
structure EventParameter (env : Environment) : Prop where
  info : ∀ text kw, "event" ∈ kw.map Prod.fst → ∃ exc, env.info text kw = .error exc
  error : ∀ text kw, "event" ∈ kw.map Prod.fst → ∃ exc, env.error text kw = .error exc

def signPayload (env : Environment) (payload : ByteArray) (secret : String) : String :=
  env.hmacSha256 secret.toUTF8 payload

/-- `client.post`, which does not follow redirects. -/
def post : Answer → Except HttpxError ℕ
  | .response statusCode => .ok statusCode
  | .connectError => .error .connectError
  | .timeout => .error .timeoutException
  | .otherError error => .error (.other error)

def raiseForStatus (statusCode : ℕ) : Except HttpxError Unit :=
  if 200 ≤ statusCode ∧ statusCode ≤ 299 then .ok () else .error (.httpStatusError statusCode)

/-- The body of `_deliver_with_retry`. -/
def attempt (answer : Answer) : Except HttpxError ℕ := do
  let statusCode ← post answer
  -- only server errors are raised, and with that retried
  if 500 ≤ statusCode then
    raiseForStatus statusCode
  return statusCode

/-- `retry_if_exception_type`. -/
def retryIf : HttpxError → Bool
  | .httpStatusError _ => true
  | .connectError => true
  | .timeoutException => true
  | .other _ => false

def retried (answer : Answer) : Bool :=
  match attempt answer with
  | .ok _ => false
  | .error e => retryIf e

/-- One attempt: what is sent, and what it returns or raises. -/
structure Attempt where
  request : Request
  result : Except HttpxError ℕ

/-- `@retry(...)` around the body. -/
def retrying (request : Request) : Job Answer (List Attempt) where
  done answer := !retried answer
  handle _ answer attempts := attempts ++ [⟨request, attempt answer⟩]

/-- `_deliver_with_retry`: at most three attempts. It ends as the last one of them does. -/
def deliverWithRetry (request : Request) (answers : ℕ → Answer) : List Attempt :=
  ((retrying request).run answers 2 0 []).2

/-- How `deliver_webhook` ends, and the attempts that it makes. -/
structure Delivery where
  result : Except PyException Bool
  attempts : List Attempt

def message (eventType timestamp : String) (payload : Dict) : Json :=
  .obj [("event", .str eventType), ("timestamp", .str timestamp), ("data", .obj payload)]

def headers (env : Environment) (eventType timestamp signature : String) : List (String × String) :=
  [("Content-Type", "application/json"),
    ("X-Webhook-Signature", "sha256=" ++ signature),
    ("X-Webhook-Timestamp", timestamp),
    ("X-Webhook-Event", eventType),
    ("User-Agent", "EvalEngine/" ++ env.appVersion)]

def request (env : Environment) (url eventType : String) (body : ByteArray) : Request :=
  { url
    content := body
    headers := headers env eventType (toString env.now) (signPayload env body env.secretKey) }

def orgIdText : Option UUID → Json
  | some orgId => .str (uuidText orgId)
  | none => .null

/-- The `try` statement around `_deliver_with_retry`. Its `except` branch also
meets what `logger.info` raises. -/
def logged (env : Environment) (url eventType : String) (orgId : Option UUID) (size : ℕ)
    (ended : Option (Except HttpxError ℕ)) : Except PyException Bool :=
  let failed := (env.error "webhook.delivery_failed" [("url", .str url), ("event", .str eventType),
    ("org_id", orgIdText orgId), ("payload_size", .num size)]).map fun _ => false
  match ended with
  | some (.ok statusCode) =>
    match env.info "webhook.delivered" [("url", .str url), ("event", .str eventType),
      ("status_code", .num statusCode), ("org_id", orgIdText orgId)] with
    | .ok () => .ok true
    | .error _ => failed
  | _ => failed

def deliverWebhook (env : Environment) (url eventType : String) (payload : Dict)
    (orgId : Option UUID) (answers : ℕ → Answer) : Delivery :=
  match env.dumps (message eventType (toString env.now) payload) with
  | .error exc => ⟨.error exc, []⟩
  | .ok body =>
    let attempts := deliverWithRetry (request env url eventType body) answers
    ⟨logged env url eventType orgId body.size ((attempts.getLast?).map Attempt.result), attempts⟩

/-- What the caller may rely on. -/
structure Outcome (sent : Request) (answers : ℕ → Answer) (delivery : Delivery) : Prop where
  atMostThree : 1 ≤ delivery.attempts.length ∧ delivery.attempts.length ≤ 3
  same : ∀ a ∈ delivery.attempts, a.request = sent
  stops : ∀ k, k + 1 < delivery.attempts.length →
    ∀ statusCode, answers k = .response statusCode → 500 ≤ statusCode
  neverRaises : ∃ returned, delivery.result = .ok returned
  delivered : delivery.result = .ok true ↔
    ∃ statusCode, answers (delivery.attempts.length - 1) = .response statusCode ∧
      200 ≤ statusCode ∧ statusCode ≤ 299

/-- A response below 500 that an attempt meets has a status of success. -/
def SucceedsBelow500 (answers : ℕ → Answer) : Prop :=
  ∀ k, k ≤ 2 → (∀ i, i < k → retried (answers i) = true) →
    ∀ statusCode, answers k = .response statusCode → statusCode < 500 →
      200 ≤ statusCode ∧ statusCode ≤ 299

variable {answers : ℕ → Answer} {sent : Request}

theorem attempt_response (statusCode : ℕ) : attempt (.response statusCode) =
    if 500 ≤ statusCode then .error (.httpStatusError statusCode) else .ok statusCode := by
  by_cases h : 500 ≤ statusCode
  · have hfail : ¬ (200 ≤ statusCode ∧ statusCode ≤ 299) := by omega
    rw [attempt, post, if_pos h]
    simp only [Bind.bind, Except.bind, if_pos h, raiseForStatus, if_neg hfail]
  · rw [attempt, post, if_neg h]
    simp only [Bind.bind, Except.bind, if_neg h]
    rfl

/-- An attempt returns if and only if there is a response below 500. -/
theorem attempt_ok_iff (answer : Answer) : (attempt answer).isOk = true ↔
    ∃ statusCode, answer = .response statusCode ∧ statusCode < 500 := by
  cases answer with
  | response statusCode =>
    rw [attempt_response]
    by_cases h : 500 ≤ statusCode
    · rw [if_pos h]
      simp [Except.isOk, Except.toBool, h]
    · rw [if_neg h]
      simp [Except.isOk, Except.toBool, Nat.lt_of_not_le h]
  | connectError => simp [attempt, post, Bind.bind, Except.bind, Except.isOk, Except.toBool]
  | timeout => simp [attempt, post, Bind.bind, Except.bind, Except.isOk, Except.toBool]
  | otherError error => simp [attempt, post, Bind.bind, Except.bind, Except.isOk, Except.toBool]

theorem not_retried_of_below {statusCode : ℕ} (h : statusCode < 500) :
    retried (.response statusCode) = false := by
  rw [retried, attempt_response, if_neg (Nat.not_le.2 h)]

/-- How many attempts are made. -/
def attemptCount (sent : Request) (answers : ℕ → Answer) : ℕ := (retrying sent).count answers 2 0

theorem lt_attemptCount {k : ℕ} : k < attemptCount sent answers ↔
    k ≤ 2 ∧ ∀ i, i < k → retried (answers i) = true := by
  have hmade := @made_iff_lt_count _ _ (retrying sent) answers 2 0 k
  rw [Nat.zero_add] at hmade
  rw [attemptCount, ← and_iff_right (Nat.zero_le k) (b := k < _), ← hmade]
  simp [Job.Made, retrying]

theorem deliverWithRetry_eq : deliverWithRetry sent answers =
    (List.range' 0 (attemptCount sent answers)).map fun k => ⟨sent, attempt (answers k)⟩ :=
  run_record (retrying sent) (fun _ answer => ⟨sent, attempt answer⟩) fun _ _ _ => rfl

theorem length_deliverWithRetry :
    (deliverWithRetry sent answers).length = attemptCount sent answers := by
  rw [deliverWithRetry_eq, List.length_map, List.length_range']

theorem getLast_deliverWithRetry : (deliverWithRetry sent answers).getLast? =
    some ⟨sent, attempt (answers (attemptCount sent answers - 1))⟩ := by
  have hpos : 0 < attemptCount sent answers := count_pos
  rw [deliverWithRetry_eq, List.getLast?_map, List.getLast?_range', if_neg hpos.ne']
  simp

variable {env : Environment} {url eventType : String} {payload : Dict} {orgId : Option UUID}
  {body : ByteArray}

theorem deliverWebhook_eq (h : env.dumps (message eventType (toString env.now) payload) = .ok body) :
    deliverWebhook env url eventType payload orgId answers =
      ⟨logged env url eventType orgId body.size (some (attempt (answers
          (attemptCount (request env url eventType body) answers - 1)))),
        deliverWithRetry (request env url eventType body) answers⟩ := by
  have hlast := @getLast_deliverWithRetry answers (request env url eventType body)
  simp only [deliverWebhook, h, hlast, Option.map_some]

/-- Both log entries have the keyword `event`, so no path returns. -/
theorem logged_raises (hlog : EventParameter env) (size : ℕ) (ended : Option (Except HttpxError ℕ)) :
    ∃ exc, logged env url eventType orgId size ended = .error exc := by
  obtain ⟨exc, hexc⟩ := hlog.error "webhook.delivery_failed" [("url", .str url),
    ("event", .str eventType), ("org_id", orgIdText orgId), ("payload_size", .num size)] (by simp)
  refine ⟨exc, ?_⟩
  simp only [logged, hexc]
  split
  · rename_i statusCode
    obtain ⟨exc', hexc'⟩ := hlog.info "webhook.delivered" [("url", .str url),
      ("event", .str eventType), ("status_code", .num statusCode), ("org_id", orgIdText orgId)] (by simp)
    simp only [hexc']
    rfl
  · rfl

theorem deliverWebhook_raises (hlog : EventParameter env)
    (h : env.dumps (message eventType (toString env.now) payload) = .ok body) :
    ¬ Outcome sent answers (deliverWebhook env url eventType payload orgId answers) := by
  intro houtcome
  obtain ⟨returned, hreturned⟩ := houtcome.neverRaises
  obtain ⟨exc, hexc⟩ := @logged_raises env url eventType orgId hlog body.size
    (some (attempt (answers (attemptCount (request env url eventType body) answers - 1))))
  rw [deliverWebhook_eq h] at hreturned
  exact absurd (hexc.symm.trans hreturned) (by simp)

/-- The environment with a logger that takes every entry. -/
def Environment.quiet (env : Environment) : Environment :=
  { env with info := fun _ _ => .ok (), error := fun _ _ => .ok () }

theorem logged_quiet (size : ℕ) (ended : Except HttpxError ℕ) :
    logged env.quiet url eventType orgId size (some ended) = .ok ended.isOk := by
  cases ended <;> rfl

/-- An attempt that is answered below 500 is the last one. -/
theorem last_of_below {k statusCode : ℕ} (hk : k < attemptCount sent answers)
    (hresponse : answers k = .response statusCode) (hbelow : statusCode < 500) :
    k = attemptCount sent answers - 1 := by
  have hnext : ¬ k + 1 < attemptCount sent answers := by
    intro hlt
    have hretried := (lt_attemptCount.1 hlt).2 k (Nat.lt_succ_self k)
    rw [hresponse, not_retried_of_below hbelow] at hretried
    cases hretried
  omega

theorem succeedsBelow500_iff : SucceedsBelow500 answers ↔
    ∀ statusCode, answers (attemptCount sent answers - 1) = .response statusCode →
      statusCode < 500 → 200 ≤ statusCode ∧ statusCode ≤ 299 := by
  constructor
  · intro h statusCode hresponse hbelow
    have hpos : 0 < attemptCount sent answers := count_pos
    have hmade : attemptCount sent answers - 1 < attemptCount sent answers := by omega
    obtain ⟨hle, hretried⟩ := lt_attemptCount.1 hmade
    exact h _ hle hretried statusCode hresponse hbelow
  · intro h k hle hretried statusCode hresponse hbelow
    have hk : k < attemptCount sent answers := lt_attemptCount.2 ⟨hle, hretried⟩
    obtain rfl := last_of_below hk hresponse hbelow
    exact h statusCode hresponse hbelow

/-- Nothing but the meaning of the result can fail, and that fails for a response
below 500 without success. -/
theorem outcome_iff :
    Outcome sent answers ⟨.ok (attempt (answers (attemptCount sent answers - 1))).isOk,
      deliverWithRetry sent answers⟩ ↔ SucceedsBelow500 answers := by
  have hreturned := attempt_ok_iff (answers (attemptCount sent answers - 1))
  have hlength := @length_deliverWithRetry answers sent
  rw [@succeedsBelow500_iff answers sent]
  constructor
  · intro houtcome statusCode hresponse hbelow
    have htrue := hreturned.2 ⟨statusCode, hresponse, hbelow⟩
    obtain ⟨statusCode', hresponse', hsuccess⟩ := houtcome.delivered.1 (congrArg Except.ok htrue)
    rw [hlength, hresponse] at hresponse'
    obtain rfl := Answer.response.inj hresponse'
    exact hsuccess
  · intro h
    refine ⟨?_, ?_, ?_, ⟨_, rfl⟩, ?_⟩
    · rw [hlength]
      exact ⟨count_pos, count_le⟩
    · intro a ha
      rw [deliverWithRetry_eq] at ha
      obtain ⟨k, _, rfl⟩ := List.mem_map.1 ha
      rfl
    · intro k hk statusCode hresponse
      rw [hlength] at hk
      by_contra hbelow
      have hlast := last_of_below (Nat.lt_of_succ_lt hk) hresponse (Nat.lt_of_not_le hbelow)
      omega
    · rw [Except.ok.injEq, hreturned, hlength]
      constructor
      · rintro ⟨statusCode, hresponse, hbelow⟩
        exact ⟨statusCode, hresponse, h statusCode hresponse hbelow⟩
      · rintro ⟨statusCode, hresponse, _, hle⟩
        exact ⟨statusCode, hresponse, by omega⟩

/-- No delivery keeps its promise: it raises on every path. With log calls that
pass, it is kept if and only if no attempt is answered below 500 without success. -/
theorem never_delivers (env : Environment) (hlog : EventParameter env) (url eventType : String)
    (payload : Dict) (orgId : Option UUID) (body : ByteArray) (answers : ℕ → Answer)
    (h : env.dumps (message eventType (toString env.now) payload) = .ok body) :
    ¬ Outcome (request env url eventType body) answers
        (deliverWebhook env url eventType payload orgId answers) ∧
      (Outcome (request env url eventType body) answers
        (deliverWebhook env.quiet url eventType payload orgId answers) ↔ SucceedsBelow500 answers) := by
  have hquiet := @deliverWebhook_eq answers env.quiet url eventType payload orgId body h
  refine ⟨deliverWebhook_raises hlog h, ?_⟩
  rw [hquiet, logged_quiet]
  exact outcome_iff

section Sample

/-- The logger: the keywords of an entry next to its positional `event`. -/
def boundLogger (_ : String) (kw : Dict) : Except PyException Unit :=
  if (kw.map Prod.fst).contains "event" then
    .error (.typeError "BoundLogger.info() got multiple values for argument 'event'")
  else .ok ()

/-- What `orjson` makes of the message of an empty payload. -/
def completed : ByteArray :=
  "\x7b\"event\":\"evaluation.completed\",\"timestamp\":\"1700000000\",\"data\":\x7b\x7d\x7d".toUTF8

def server : Environment :=
  { now := 1700000000
    secretKey := "secret"
    appVersion := "1.0.0"
    dumps := fun _ => .ok completed
    hmacSha256 := fun _ _ => "08a276ecfc78365067bd326d4c7e88c7a6d37642986cef9fcd49fd9eb9e2625b"
    info := boundLogger
    error := boundLogger }

theorem server_eventParameter : EventParameter server := by
  refine ⟨?_, ?_⟩ <;>
  · intro text kw hkw
    exact ⟨_, if_pos (List.contains_iff_mem.2 hkw)⟩

/-- An endpoint that takes the message. -/
def accepting : ℕ → Answer := fun _ => .response 204

theorem delivery_raises : ¬ Outcome (request server "https://startup.io/hook" "evaluation.completed"
    completed) accepting
    (deliverWebhook server "https://startup.io/hook" "evaluation.completed" [] none accepting) :=
  @deliverWebhook_raises _ _ server _ _ _ _ completed server_eventParameter rfl

/-- An endpoint that is overloaded at first. -/
def overloaded : ℕ → Answer
  | 0 => .response 503
  | _ => .response 204

theorem never_delivers_overloaded :
    ¬ Outcome (request server "https://startup.io/hook" "evaluation.completed" completed) overloaded
        (deliverWebhook server "https://startup.io/hook" "evaluation.completed" [] (some 1) overloaded) ∧
      Outcome (request server "https://startup.io/hook" "evaluation.completed" completed) overloaded
        (deliverWebhook server.quiet "https://startup.io/hook" "evaluation.completed" [] (some 1)
          overloaded) := by
  obtain ⟨hnever, hquiet⟩ := never_delivers server server_eventParameter "https://startup.io/hook"
    "evaluation.completed" [] (some 1) completed overloaded rfl
  refine ⟨hnever, hquiet.2 ?_⟩
  intro k _ _ statusCode hresponse hbelow
  cases k with
  | zero =>
    obtain rfl := Answer.response.inj hresponse
    omega
  | succ k =>
    obtain rfl := Answer.response.inj hresponse
    omega

end Sample

end EvalEngine.WebhookDelivery
