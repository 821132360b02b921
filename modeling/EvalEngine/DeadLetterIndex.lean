import EvalEngine.DeadLetterRetry
import EvalEngine.IndexedStore

namespace EvalEngine.DeadLetterIndex

open EvalEngine.JsonValues EvalEngine.DeadLetters EvalEngine.DeadLetterRetry EvalEngine.IndexedStore

/-- `LRANGE`: a negative index counts from the end, and the last one is included. -/
def lrange {α : Type} (xs : List α) (start stop : Int) : List α :=
  let n : Int := xs.length
  let first := if start < 0 then max (n + start) 0 else start
  let last := if stop < 0 then n + stop else min stop (n - 1)
  if last < first ∨ n ≤ first then [] else (xs.drop first.toNat).take (last - first + 1).toNat

/-- `get_dlq_entries`, which swallows every exception. A key without a hash is passed over. -/
def getDlqEntries (limit : Int) (redisAnswers : Bool) (redis : Redis) : List DlqEntry :=
  if redisAnswers then (lrange redis.all 0 (limit - 1)).filterMap redis.hashes else []

abbrev Pair := String × String

def pairOf (entry : DlqEntry) : Pair := (entry.runId, entry.workerType)

def keyOfPair (p : Pair) : String := keyOf p.1 p.2

/-- Redis, and the pairs that were sent and not successfully retried since, the
most recently failed one first. -/
structure State where
  redis : Redis := {}
  outstanding : List Pair := []

inductive Call
  | sendToDlq (task : EvalTask) (runId : String) (kwargs : Dict) (retries : Nat) (attempt : Attempt)
  | retryDlqEntry (runId workerType : String) (answers : Answers)

def step (s : State) : Call → State
  | .sendToDlq task runId kwargs retries attempt =>
    { redis := sendToDlq task runId kwargs retries attempt s.redis
      outstanding := (runId, task.workerType) :: s.outstanding.erase (runId, task.workerType) }
  | .retryDlqEntry runId workerType answers =>
    let retried := retryDlqEntry runId workerType answers s.redis
    { redis := retried.redis
      outstanding :=
        if retried.returned then s.outstanding.erase (runId, workerType) else s.outstanding }

def run (s : State) (calls : List Call) : State := calls.foldl step s

/-- What the monitoring shows of the dead letters. -/
structure Shows (limit : ℕ) (s : State) : Prop where
  count : (getDlqEntries limit true s.redis).length = min limit s.outstanding.length
  different : ((getDlqEntries limit true s.redis).map pairOf).Nodup
  latestFirst : (getDlqEntries limit true s.redis).map pairOf = s.outstanding.take limit

/-- A failure is sent while its key is not in the list, and while there is room
there. A retry finds the entry of its own pair, and takes the key from the list
when it has deleted the hash. -/
def Meets (redis : Redis) : Call → Prop
  | .sendToDlq task runId _ _ attempt =>
    3 ≤ attempt.answered ∧ redis.all.length < 10000 ∧ dlqKey task runId ∉ redis.all
  | .retryDlqEntry runId workerType answers =>
    (∀ entry, redis.hashes (keyOf runId workerType) = some entry →
      pairOf entry = (runId, workerType)) ∧
    (answers.deletes = true → answers.unlists = true)

def Along : State → List Call → Prop
  | _, [] => True
  | s, call :: calls => Meets s.redis call ∧ Along (step s call) calls

def storeOf (redis : Redis) : Store String DlqEntry := ⟨redis.hashes, redis.all⟩

/-- The list mirrors the hashes, and both tell the outstanding pairs. -/
structure Mirror (s : State) : Prop where
  mirrored : (storeOf s.redis).Mirrored
  keys : s.redis.all = s.outstanding.map keyOfPair
  entries : ∀ p ∈ s.outstanding, ∃ entry, s.redis.hashes (keyOfPair p) = some entry ∧ pairOf entry = p

variable {s : State}

theorem lrange_take {α : Type} (xs : List α) {limit : ℕ} (h : 1 ≤ limit) :
    lrange xs 0 (limit - 1) = xs.take limit := by
  have hstart : ¬ (0 : Int) < 0 := by omega
  have hstop : ¬ (limit : Int) - 1 < 0 := by omega
  simp only [lrange, if_neg hstart, if_neg hstop]
  cases xs with
  | nil => simp
  | cons x xs =>
    have hin : ¬ (min ((limit : Int) - 1) (((x :: xs).length : Int) - 1) < 0 ∨
        ((x :: xs).length : Int) ≤ 0) := by
      rw [List.length_cons]
      omega
    rw [if_neg hin, Int.toNat_zero, List.drop_zero]
    by_cases hle : limit ≤ (x :: xs).length
    · have hmin : (min ((limit : Int) - 1) (((x :: xs).length : Int) - 1) - 0 + 1).toNat = limit := by
        omega
      rw [hmin]
    · have hmin : (min ((limit : Int) - 1) (((x :: xs).length : Int) - 1) - 0 + 1).toNat =
          (x :: xs).length := by
        omega
      rw [hmin, List.take_length, List.take_of_length_le (by omega)]

/-- A limit of 0 asks for everything up to the last element. -/
theorem lrange_all {α : Type} (xs : List α) : lrange xs 0 (((0 : ℕ) : Int) - 1) = xs := by
  cases xs with
  | nil => simp [lrange]
  | cons x xs =>
    have hin : ¬ (((x :: xs).length : Int) + (((0 : ℕ) : Int) - 1) < 0 ∨
        ((x :: xs).length : Int) ≤ 0) := by
      rw [List.length_cons]
      omega
    have hlen : (((x :: xs).length : Int) + (((0 : ℕ) : Int) - 1) - 0 + 1).toNat =
        (x :: xs).length := by
      omega
    have hstart : ¬ (0 : Int) < 0 := by omega
    have hstop : ((0 : ℕ) : Int) - 1 < 0 := by omega
    simp only [lrange, if_neg hstart, if_pos hstop, if_neg hin, Int.toNat_zero, List.drop_zero]
    rw [hlen, List.take_length]

theorem getDlqEntries_eq {limit : ℕ} (h : 1 ≤ limit) (redis : Redis) :
    getDlqEntries limit true redis = (storeOf redis).window limit := by
  rw [getDlqEntries, if_pos rfl, lrange_take _ h]
  rfl

theorem Mirror.outstanding_nodup (h : Mirror s) : s.outstanding.Nodup := by
  apply List.Nodup.of_map keyOfPair
  rw [← h.keys]
  exact h.mirrored.nodup

theorem Mirror.map_window (h : Mirror s) (limit : ℕ) :
    ((storeOf s.redis).window limit).map pairOf = s.outstanding.take limit := by
  have hindex : (storeOf s.redis).index.take limit = (s.outstanding.take limit).map keyOfPair := by
    rw [List.map_take, ← h.keys]
    rfl
  rw [Store.window, hindex]
  apply map_filterMap_eq
  intro p hp
  exact h.entries p (List.mem_of_mem_take hp)

theorem Mirror.shows (h : Mirror s) {limit : ℕ} (hlimit : 1 ≤ limit) : Shows limit s := by
  have hpairs := h.map_window limit
  rw [← getDlqEntries_eq hlimit] at hpairs
  constructor
  · rw [← List.length_map pairOf, hpairs, List.length_take]
  · rw [hpairs]
    exact h.outstanding_nodup.sublist (List.take_sublist _ _)
  · exact hpairs

theorem Mirror.shows_iff (h : Mirror s) (limit : ℕ) :
    Shows limit s ↔ 1 ≤ limit ∨ s.outstanding = [] := by
  cases limit with
  | succ limit => simp [h.shows (Nat.succ_le_succ (Nat.zero_le limit))]
  | zero =>
    have hall : getDlqEntries ((0 : ℕ) : Int) true s.redis = s.redis.all.filterMap s.redis.hashes := by
      rw [getDlqEntries, if_pos rfl, lrange_all]
    have hpairs : (getDlqEntries ((0 : ℕ) : Int) true s.redis).map pairOf = s.outstanding := by
      rw [hall, h.keys]
      exact map_filterMap_eq h.entries
    constructor
    · intro hshows
      right
      rw [← hpairs, hshows.latestFirst, List.take_zero]
    · intro hempty
      rw [hempty.resolve_left (by omega)] at hpairs
      have hnone := List.map_eq_nil_iff.1 hpairs
      constructor
      · rw [hnone]
        simp
      · rw [hnone]
        exact List.nodup_nil
      · rw [hnone]
        simp

theorem storeOf_sendToDlq {task : EvalTask} {runId : String} {kwargs : Dict} {retries : Nat}
    {attempt : Attempt} {redis : Redis} (hanswers : 3 ≤ attempt.answered)
    (hroom : redis.all.length < 10000) :
    ∃ entry, pairOf entry = (runId, task.workerType) ∧
      storeOf (sendToDlq task runId kwargs retries attempt redis) =
        (storeOf redis).put (dlqKey task runId) entry := by
  have htake : (dlqKey task runId :: redis.all).take 10000 = dlqKey task runId :: redis.all := by
    apply List.take_of_length_le
    rw [List.length_cons]
    omega
  have hstored : 1 ≤ attempt.answered := by omega
  refine ⟨newEntry task runId kwargs retries attempt, rfl, ?_⟩
  simp only [sendToDlq, htake, if_pos hstored, if_pos hanswers, ite_self]
  rfl

theorem retry_cases_meets {runId workerType : String} {answers : Answers} {redis : Redis}
    (h : answers.deletes = true → answers.unlists = true) :
    (retryDlqEntry runId workerType answers redis).returned = false ∧
        (retryDlqEntry runId workerType answers redis).redis = redis ∨
      (retryDlqEntry runId workerType answers redis).returned = true ∧
        (∃ entry, redis.hashes (keyOf runId workerType) = some entry) ∧
        storeOf (retryDlqEntry runId workerType answers redis).redis =
          (storeOf redis).drop (keyOf runId workerType) := by
  obtain ⟨redisAnswers, sends, deletes, unlists⟩ := answers
  cases redisAnswers with
  | false => exact .inl ⟨rfl, rfl⟩
  | true =>
    cases hentry : redis.hashes (keyOf runId workerType) with
    | none =>
      left
      simp only [retryDlqEntry, hentry, if_true, and_self]
    | some entry =>
      by_cases hname : entry.taskName = ""
      · left
        simp only [retryDlqEntry, hentry, if_pos hname, if_true, and_self]
      · cases sends with
        | false =>
          left
          simp only [retryDlqEntry, hentry, if_neg hname, if_true, Bool.false_eq_true, if_false,
            and_self]
        | true =>
          cases deletes with
          | false =>
            left
            simp only [retryDlqEntry, hentry, if_neg hname, if_true, Bool.false_eq_true, if_false,
              and_self]
          | true =>
            right
            obtain rfl : unlists = true := h rfl
            simp only [retryDlqEntry, hentry, if_neg hname, if_true, true_and]
            exact ⟨⟨entry, rfl⟩, rfl⟩

theorem Mirror.notMem_outstanding (h : Mirror s) {p : Pair} (hp : keyOfPair p ∉ s.redis.all) :
    p ∉ s.outstanding := by
  intro hmem
  apply hp
  rw [h.keys]
  exact List.mem_map_of_mem hmem

/-- The hash under a key is of an outstanding pair. -/
theorem Mirror.outstanding_of_entry (h : Mirror s) {key : String} {entry : DlqEntry}
    (hentry : s.redis.hashes key = some entry) :
    pairOf entry ∈ s.outstanding ∧ keyOfPair (pairOf entry) = key := by
  have hlisted : key ∈ s.redis.all := by
    apply (h.mirrored.mem_index key).2
    exact Option.isSome_iff_exists.2 ⟨entry, hentry⟩
  rw [h.keys] at hlisted
  obtain ⟨p, hp, rfl⟩ := List.mem_map.1 hlisted
  obtain ⟨entry', hentry', rfl⟩ := h.entries p hp
  rw [hentry', Option.some.injEq] at hentry
  subst hentry
  exact ⟨hp, rfl⟩

theorem Mirror.sendToDlq (h : Mirror s) {task : EvalTask} {runId : String} {kwargs : Dict}
    {retries : Nat} {attempt : Attempt}
    (hmeets : Meets s.redis (.sendToDlq task runId kwargs retries attempt)) :
    Mirror (step s (.sendToDlq task runId kwargs retries attempt)) := by
  obtain ⟨hanswers, hroom, hkey⟩ := hmeets
  obtain ⟨entry, hpair, hstore⟩ :=
    @storeOf_sendToDlq task runId kwargs retries attempt s.redis hanswers hroom
  have hnew : (runId, task.workerType) ∉ s.outstanding := h.notMem_outstanding hkey
  have hhashes := congrArg Store.values hstore
  have hall := congrArg Store.index hstore
  refine ⟨?_, ?_, ?_⟩
  · rw [step, hstore]
    exact h.mirrored.put hkey entry
  · rw [step, List.erase_of_not_mem hnew, List.map_cons, ← h.keys]
    exact hall
  · rw [step, List.erase_of_not_mem hnew]
    intro p hp
    obtain rfl | hp := List.mem_cons.1 hp
    · exact ⟨entry, (congrFun hhashes _).trans (Function.update_self _ _ _), hpair⟩
    · have hother : keyOfPair p ≠ dlqKey task runId := by
        intro hsame
        apply hkey
        rw [h.keys, ← hsame]
        exact List.mem_map_of_mem hp
      obtain ⟨entry', hentry', hpair'⟩ := h.entries p hp
      refine ⟨entry', ?_, hpair'⟩
      rw [← hentry']
      exact (congrFun hhashes _).trans (Function.update_of_ne hother _ _)

theorem Mirror.retryDlqEntry (h : Mirror s) {runId workerType : String} {answers : Answers}
    (hmeets : Meets s.redis (.retryDlqEntry runId workerType answers)) :
    Mirror (step s (.retryDlqEntry runId workerType answers)) := by
  obtain ⟨howner, hcomplete⟩ := hmeets
  obtain ⟨hfalse, hsame⟩ | ⟨htrue, ⟨entry, hentry⟩, hstore⟩ :=
    @retry_cases_meets runId workerType answers s.redis hcomplete
  · rw [step, hfalse, hsame]
    exact h
  · have hmem := (h.outstanding_of_entry hentry).1
    rw [howner entry hentry] at hmem
    have hnodup : (s.outstanding.map keyOfPair).Nodup := h.keys ▸ h.mirrored.nodup
    have hhashes := congrArg Store.values hstore
    have hall := congrArg Store.index hstore
    refine ⟨?_, ?_, ?_⟩
    · rw [step, hstore]
      exact h.mirrored.drop _
    · have herase := erase_map hnodup hmem
      rw [← h.keys] at herase
      rw [step, if_pos htrue]
      exact hall.trans herase
    · rw [step, if_pos htrue]
      intro p hp
      have hp' := h.outstanding_nodup.mem_erase_iff.1 hp
      have hother : keyOfPair p ≠ keyOf runId workerType :=
        fun hkey => hp'.1 (List.inj_on_of_nodup_map hnodup hp'.2 hmem hkey)
      obtain ⟨entry', hentry', hpair'⟩ := h.entries p hp'.2
      refine ⟨entry', ?_, hpair'⟩
      rw [← hentry']
      exact (congrFun hhashes _).trans (Function.update_of_ne hother _ _)

theorem Mirror.step (h : Mirror s) {call : Call} (hmeets : Meets s.redis call) :
    Mirror (step s call) := by
  cases call with
  | sendToDlq task runId kwargs retries attempt => exact h.sendToDlq hmeets
  | retryDlqEntry runId workerType answers => exact h.retryDlqEntry hmeets

theorem Mirror.run {calls : List Call} (h : Mirror s) (halong : Along s calls) :
    Mirror (run s calls) := by
  induction calls generalizing s with
  | nil => exact h
  | cons call calls ih => exact ih (h.step halong.1) halong.2

theorem mirror_empty : Mirror {} := by
  refine ⟨mirrored_empty, rfl, ?_⟩
  intro p hp
  cases hp

/-- A failure that is sent while its key is in the list is shown twice. -/
theorem not_shows_twice {task : EvalTask} {runId : String} {kwargs : Dict}
    {retries : Nat} {attempt : Attempt} (hanswers : 3 ≤ attempt.answered)
    (hroom : s.redis.all.length < 10000) (hkey : dlqKey task runId ∈ s.redis.all) :
    ¬ Shows (s.redis.all.length + 1)
      (step s (.sendToDlq task runId kwargs retries attempt)) := by
  obtain ⟨entry, hpair, hstore⟩ :=
    @storeOf_sendToDlq task runId kwargs retries attempt s.redis hanswers hroom
  obtain ⟨before, after, htwice⟩ := Store.window_put_of_mem (s := storeOf s.redis) hkey entry
  intro hshows
  have hdifferent := hshows.different
  rw [getDlqEntries_eq (Nat.succ_le_succ (Nat.zero_le _)), step, hstore] at hdifferent
  have hnodup := List.Nodup.of_map _ hdifferent
  rw [show s.redis.all.length = (storeOf s.redis).index.length from rfl, htwice] at hnodup
  exact (List.nodup_cons.1 hnodup).1 (List.mem_append_right _ List.mem_cons_self)

/-- As long as no failure is sent while its key is in the list, the list shows
the outstanding pairs, in every state that is reached. A failure that is sent
while its key is there ends this. -/
theorem dlq_index (calls : List Call) (halong : Along {} calls) :
    (∀ limit, Shows limit (run {} calls) ↔ 1 ≤ limit ∨ (run {} calls).outstanding = []) ∧
    ∀ task runId kwargs retries attempt, 3 ≤ attempt.answered →
      (run {} calls).redis.all.length < 10000 →
      ((∀ limit, 1 ≤ limit →
          Shows limit (step (run {} calls) (.sendToDlq task runId kwargs retries attempt))) ↔
        dlqKey task runId ∉ (run {} calls).redis.all) := by
  have hmirror := mirror_empty.run halong
  refine ⟨hmirror.shows_iff, ?_⟩
  intro task runId kwargs retries attempt hanswers hroom
  constructor
  · intro hshows hkey
    exact not_shows_twice hanswers hroom hkey (hshows _ (Nat.succ_le_succ (Nat.zero_le _)))
  · intro hkey limit hlimit
    have hmeets : Meets (run {} calls).redis (.sendToDlq task runId kwargs retries attempt) :=
      ⟨hanswers, hroom, hkey⟩
    exact (hmirror.step hmeets).shows hlimit

section Sample

/-- The finalizer of run 1, which the database fails for good. -/
def lost (task : EvalTask) : Call :=
  .sendToDlq task "1" [] 2 { outcome := .raised .maxRetriesExceeded, traceback := "connection refused" }

/-- The run is dispatched again, and fails again. -/
theorem dlq_index_twice : ¬ Shows 50 (run {} [lost finalize, lost finalize]) := by
  intro hshows
  have htwo : (getDlqEntries (50 : ℕ) true (run {} [lost finalize, lost finalize]).redis).length = 2 := by
    decide +kernel
  have hone : (run {} [lost finalize, lost finalize]).outstanding.length = 1 := by decide +kernel
  have hcount := hshows.count
  rw [htwo, hone] at hcount
  cases hcount

/-- The calls of a retried failure that comes back beside another one. -/
def retried : List Call :=
  [lost finalize, lost llmJudge, .retryDlqEntry "1" "finalize" {}, lost finalize]

theorem dlq_index_retried : Shows 1 (run {} retried) ∧
    (run {} retried).outstanding = [("1", "finalize"), ("1", "llm_judge")] := by
  have halong : Along {} retried := by
    refine ⟨⟨by decide, ?_, ?_⟩, ⟨by decide, ?_, ?_⟩, ⟨?_, fun _ => rfl⟩, ⟨by decide, ?_, ?_⟩, trivial⟩
    · decide +kernel
    · decide +kernel
    · decide +kernel
    · decide +kernel
    · intro entry hentry
      have hpair : ((run {} [lost finalize, lost llmJudge]).redis.hashes
          (keyOf "1" "finalize")).map pairOf = some ("1", "finalize") := by
        decide +kernel
      have hfound : (run {} [lost finalize, lost llmJudge]).redis.hashes (keyOf "1" "finalize") =
        some entry := hentry
      rw [hfound] at hpair
      exact Option.some.inj hpair
    · decide +kernel
    · decide +kernel
  exact ⟨((dlq_index retried halong).1 1).2 (.inl le_rfl), by decide +kernel⟩

end Sample

end EvalEngine.DeadLetterIndex
