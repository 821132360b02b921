import EvalEngine.AuditService
import EvalEngine.StageRedelivery
import EvalEngine.SyntheticScores

namespace EvalEngine.Billing

open EvalEngine.JsonValues EvalEngine.Exceptions EvalEngine.QueryResults EvalEngine.Rounding
open EvalEngine.RunModel EvalEngine.StageTables EvalEngine.StageContracts EvalEngine.AuditService
open EvalEngine.LlmJudge

/-- The changes of the audit row of step 6. -/
def billingChanges (usage : TokenUsage) (model : String) : Dict :=
  [("model_used", .str model),
    ("token_usage", usage.json),
    ("estimated_cost_usd", .num (estimateCost usage model))]

/-- What step 6 hands to the audit log. -/
def billingEntry (run : EvaluationRun) (runId : UUID) (usage : TokenUsage) (model : String) : AuditEntry :=
  { action := .scoreRecorded
    resourceType := "evaluation_run"
    resourceId := some (uuidText runId)
    organizationId := some run.organizationId
    changes := some (billingChanges usage model) }

/-- `_run_llm_judge` with its last transaction. -/
def judgeAndBill (db : Store) (runId : UUID) (answers : Answers) :
    Except PyException (Store × AuditEntry × Dict) := do
  let run ← scalarOne (db.runs.filter (fun run => decide (run.id = runId)))
  let (db', out) ← runLlmJudge db runId answers
  return (db', billingEntry run runId (judge answers).2.1 (judge answers).2.2, out)

/-- The usage that a call has returned, and the model that was called. -/
def returnedCall (answers : Answers) : Option (TokenUsage × String) :=
  match answers.primary, answers.backup with
  | .ok (_, usage), _ => some (usage, primaryModel)
  | .error _, .ok (_, usage) => some (usage, backupModel)
  | .error _, .error _ => none

/-- The tokens of a call at the rates of a model. -/
def price (usage : TokenUsage) (model : String) : ℚ :=
  usage.promptTokens * (rates model).1 + usage.completionTokens * (rates model).2

def amountDue (answers : Answers) : ℚ := (returnedCall answers).elim 0 fun call => price call.1 call.2

def costIn (d : Dict) (amount : ℚ) : Prop := find "estimated_cost_usd" d = some (.num amount)

/-- The amount due is logged and returned. -/
structure Billed (answers : Answers) (entry : AuditEntry) (out : Dict) : Prop where
  logged : ∃ changes, entry.changes = some changes ∧ costIn changes (roundTo 6 (amountDue answers))
  returned : costIn out (roundTo 6 (amountDue answers))

/-- The first call has failed, or its output is used, or it has used no tokens. -/
def PrimaryServes (answers : Answers) : Prop :=
  ∀ output usage, answers.primary = .ok (output, usage) →
    (validateLlmOutput output).isSome = true ∨ usage.promptTokens = 0 ∧ usage.completionTokens = 0

theorem rates_primary : rates primaryModel = (1 / 100000, 3 / 100000) := by decide +kernel

theorem rates_backup : rates backupModel = (1 / 2000000, 3 / 2000000) := by decide +kernel

/-- A label that the table does not know has the rates of the backup model. -/
theorem rates_fallback :
    rates (primaryModel ++ "_fallback") = rates backupModel ∧
      rates (backupModel ++ "_fallback") = rates backupModel := by decide +kernel

theorem estimateCost_eq (usage : TokenUsage) (model : String) :
    estimateCost usage model = roundTo 6 (price usage model) := rfl

theorem price_congr (usage : TokenUsage) {model model' : String} (h : rates model = rates model') :
    price usage model = price usage model' := by
  rw [price, price, h]

theorem price_unused (model : String) : price {} model = 0 := by simp [price]

theorem price_primary (usage : TokenUsage) :
    price usage primaryModel = (usage.promptTokens + 3 * usage.completionTokens : ℕ) / 100000 := by
  rw [price, rates_primary]
  push_cast
  ring

theorem price_backup (usage : TokenUsage) :
    price usage backupModel = (usage.promptTokens + 3 * usage.completionTokens : ℕ) / 2000000 := by
  rw [price, rates_backup]
  push_cast
  ring

/-- Twenty times the price is another amount, rounded or not. -/
theorem roundTo_price_eq_iff (n : ℕ) :
    roundTo 6 ((n : ℚ) / 2000000) = roundTo 6 ((n : ℚ) / 100000) ↔ n = 0 := by
  constructor
  · intro h
    have hexact : roundTo 6 ((n : ℚ) / 100000) = (n : ℚ) / 100000 := by
      apply roundTo_of_hasDigits
      refine ⟨10 * n, ?_⟩
      push_cast
      ring
    have hlow : roundTo 6 ((n : ℚ) / 2000000) ≤ (n : ℚ) / 1000000 := by
      have hle : roundHalfEven ((n : ℚ) / 2000000 * 10 ^ 6) ≤ n := by
        apply roundHalfEven_le
        have hn : (0 : ℚ) ≤ n := Nat.cast_nonneg n
        push_cast
        linarith
      have hcast : (roundHalfEven ((n : ℚ) / 2000000 * 10 ^ 6) : ℚ) ≤ n := by exact_mod_cast hle
      rw [roundTo]
      linarith
    rw [h, hexact] at hlow
    have hzero : (n : ℚ) ≤ 0 := by linarith
    exact Nat.le_zero.1 (by exact_mod_cast hzero)
  · rintro rfl
    simp

theorem estimateCost_primary_fallback_iff (usage : TokenUsage) :
    estimateCost usage (primaryModel ++ "_fallback") = roundTo 6 (price usage primaryModel) ↔
      usage.promptTokens = 0 ∧ usage.completionTokens = 0 := by
  rw [estimateCost_eq, price_congr usage rates_fallback.1, price_backup, price_primary,
    roundTo_price_eq_iff]
  omega

/-- The label under which step 6 bills is the called model's own, one with the
same rates, or one for no tokens at all: but for the first model's rejected output. -/
theorem estimateCost_judge_iff (answers : Answers) :
    estimateCost (judge answers).2.1 (judge answers).2.2 = roundTo 6 (amountDue answers) ↔
      PrimaryServes answers := by
  cases hprimary : answers.primary with
  | ok call =>
    have hdue : amountDue answers = price call.2 primaryModel := by
      simp only [amountDue, returnedCall, hprimary, Option.elim]
    have hserves : PrimaryServes answers ↔ ((validateLlmOutput call.1).isSome = true ∨
        call.2.promptTokens = 0 ∧ call.2.completionTokens = 0) := by
      simp only [PrimaryServes, hprimary, Except.ok.injEq]
      exact ⟨fun h => h call.1 call.2 rfl, by rintro h _ _ rfl; exact h⟩
    rw [hdue, hserves]
    cases hvalid : validateLlmOutput call.1 with
    | some validated => simp [judge, hprimary, hvalid, estimateCost_eq]
    | none =>
      simp only [judge, hprimary, hvalid, Option.isSome_none, Bool.false_eq_true, false_or]
      exact estimateCost_primary_fallback_iff call.2
  | error e =>
    have hserves : PrimaryServes answers := by
      intro output usage h
      rw [hprimary] at h
      cases h
    apply iff_of_true _ hserves
    cases hbackup : answers.backup with
    | ok call =>
      have hdue : amountDue answers = price call.2 backupModel := by
        simp only [amountDue, returnedCall, hprimary, hbackup, Option.elim]
      rw [hdue]
      cases hvalid : validateLlmOutput call.1 with
      | some validated => simp only [judge, hprimary, hbackup, hvalid, estimateCost_eq]
      | none =>
        simp only [judge, hprimary, hbackup, hvalid, estimateCost_eq]
        rw [price_congr call.2 rates_fallback.2]
    | error e' =>
      have hdue : amountDue answers = 0 := by
        simp only [amountDue, returnedCall, hprimary, hbackup, Option.elim]
      have husage : (judge answers).2.1 = {} := by
        simp only [judge, hprimary, hbackup]
        split <;> rfl
      rw [hdue, husage, estimateCost_eq, price_unused]

theorem cost_runLlmJudge {db db' : Store} {runId : UUID} {answers : Answers} {out : Dict}
    (h : runLlmJudge db runId answers = .ok (db', out)) :
    find "estimated_cost_usd" out =
      some (.num (estimateCost (judge answers).2.1 (judge answers).2.2)) := by
  simp only [runLlmJudge, bind_eq_ok] at h
  obtain ⟨run, _, scores, _, db'', _, hout⟩ := h
  cases hout
  rfl

/-- The bill fails no execution: whoever gets scores gets a bill. -/
theorem judgeAndBill_of_ok {db db' : Store} {runId : UUID} {answers : Answers} {out : Dict}
    (h : runLlmJudge db runId answers = .ok (db', out)) :
    ∃ entry, judgeAndBill db runId answers = .ok (db', entry, out) := by
  have hjudged := h
  simp only [runLlmJudge, bind_eq_ok] at hjudged
  obtain ⟨run, hrun, _⟩ := hjudged
  refine ⟨billingEntry run runId (judge answers).2.1 (judge answers).2.2, ?_⟩
  simp only [judgeAndBill, hrun, h, bind, Except.bind]
  rfl

theorem costIn_iff {d : Dict} {cost : ℚ} (h : find "estimated_cost_usd" d = some (.num cost))
    (amount : ℚ) : costIn d amount ↔ cost = amount := by
  rw [costIn, h, Option.some.injEq, Json.num.injEq]

/-- What is logged and returned is what is due unless the first model's usage is
billed for an output that is thrown away. -/
theorem billed_iff (db db' : Store) (runId : UUID) (answers : Answers) (entry : AuditEntry) (out : Dict)
    (h : judgeAndBill db runId answers = .ok (db', entry, out)) :
    Billed answers entry out ↔ PrimaryServes answers := by
  simp only [judgeAndBill, bind_eq_ok] at h
  obtain ⟨run, _, r, hrun, hr⟩ := h
  cases hr
  have hreturned := costIn_iff (cost_runLlmJudge hrun) (roundTo 6 (amountDue answers))
  rw [← estimateCost_judge_iff answers]
  constructor
  · intro hbilled
    exact hreturned.1 hbilled.returned
  · intro hcost
    exact ⟨⟨_, rfl, (costIn_iff rfl _).2 hcost⟩, hreturned.2 hcost⟩

section Sample

open EvalEngine.StageRedelivery EvalEngine.SyntheticScores

/-- The first model is paid for something that is no output. -/
def garbled : Answers :=
  { primary := .ok (.null, { promptTokens := 1000, completionTokens := 500, totalTokens := 1500 })
    backup := .error (.failure "not called")
    synthetic := syntheticOutput [] [] unvaried 0 }

theorem garbled_judged : ∃ db' out, runLlmJudge unscored 1 garbled = .ok (db', out) := by
  have hok : (runLlmJudge unscored 1 garbled).isOk = true := by decide +kernel
  obtain ⟨r, hr⟩ := exists_of_isOk hok
  exact ⟨r.1, r.2, hr⟩

/-- An eighth of a cent is billed where two and a half are due. -/
theorem garbled_underbilled : amountDue garbled = 25 / 1000 ∧
    ∃ db' entry out, judgeAndBill unscored 1 garbled = .ok (db', entry, out) ∧
      costIn out (125 / 100000) ∧ ¬ Billed garbled entry out := by
  have hdue : amountDue garbled = 25 / 1000 := by decide +kernel
  have hbilled : estimateCost (judge garbled).2.1 (judge garbled).2.2 = 125 / 100000 := by decide +kernel
  obtain ⟨db', out, hjudged⟩ := garbled_judged
  obtain ⟨entry, h⟩ := judgeAndBill_of_ok hjudged
  have hcost : costIn out (125 / 100000) := (costIn_iff (cost_runLlmJudge hjudged) _).2 hbilled
  refine ⟨hdue, db', entry, out, h, hcost, ?_⟩
  intro hpaid
  have hother := (costIn_iff hcost _).1 hpaid.returned
  rw [hdue] at hother
  revert hother
  decide +kernel

theorem billed_iff_simulated : ∃ db' entry out,
    judgeAndBill unscored 1 simulatedAnswers = .ok (db', entry, out) ∧
      (Billed simulatedAnswers entry out ↔ PrimaryServes simulatedAnswers) := by
  obtain ⟨db', out, hjudged⟩ := judge_commits
  obtain ⟨entry, h⟩ := judgeAndBill_of_ok hjudged
  exact ⟨db', entry, out, h, billed_iff unscored db' 1 simulatedAnswers entry out h⟩

end Sample

end EvalEngine.Billing
