import EvalEngine.DetectContradiction
import EvalEngine.StoredFindings

namespace EvalEngine.ContradictionOrder

open EvalEngine.JsonValues EvalEngine.Exceptions EvalEngine.QueryResults EvalEngine.RunModel
open EvalEngine.StageTables EvalEngine.CrossCheck EvalEngine.StageContracts
open EvalEngine.DetectContradiction EvalEngine.StoredFindings EvalEngine.PairwiseLoop
open EvalEngine.Doubles
open EvalEngine.FinalScore EvalEngine.Finalize EvalEngine.ExceptLists

theorem textStorable_tenths (r : Option Double) : textStorable (tenths r) = true := by
  have hpoint : textStorable "." = true := by decide
  rcases r with _ | _ | q
  · decide
  · decide
  · simp only [tenths, textStorable_append, textStorable_toString, hpoint, Bool.and_self]

/-- What the detector reports on two texts of the database can be stored. -/
theorem detectContradiction_storable {textA textB : String} {finding : Finding}
    (hA : textStorable textA = true) (hB : textStorable textB = true)
    (h : detectContradiction textA textB = some finding) : Finding.storable finding = true := by
  rw [detectContradiction_eq] at h
  obtain ⟨v, _, rfl⟩ := Option.map_eq_some_iff.1 h
  have htype : varchar 100 "numerical" = true := by decide
  have hhead : textStorable "Numerical inconsistency: '" = true := by decide
  have hmiddle : textStorable "' vs '" = true := by decide
  have hratio : textStorable "' (ratio: " = true := by decide
  have htail : textStorable "x)" = true := by decide
  simp only [Finding.storable, report, textStorable_append, textStorable_tenths, hA, hB, htype,
    hhead, hmiddle, hratio, htail, Bool.and_self]

theorem findings_storable_of_rows {rows : List Claim} (h : ∀ claim ∈ rows, claim.storable = true) :
    ∀ found ∈ findContradictions detectContradiction rows, Finding.storable found.2.2 = true := by
  intro found hfound
  rw [findContradictions_eq] at hfound
  obtain ⟨a, ha, b, hb, hpair⟩ := mem_pairs hfound
  have htext : ∀ claim ∈ rows, textStorable claim.claimText = true := by
    intro claim hclaim
    have hall := h claim hclaim
    simp only [Claim.storable, Bool.and_eq_true] at hall
    exact hall.1.1.1.1
  simp only [findPair] at hpair
  split at hpair
  · cases hpair
  · obtain ⟨finding, hfinding, rfl⟩ := Option.map_eq_some_iff.1 hpair
    exact detectContradiction_storable (htext a ha) (htext b hb) hfinding

/-- What a stage has deducted by its contradictions, for the run that they are about. -/
theorem penalty_compared {run : EvaluationRun} {rows : List Claim} {db db' : Store}
    (h : Compared detectContradiction run rows db db') (r : EvaluationRun)
    (workerStats : List (String × Nat)) :
    (statsOf db' r workerStats).penalty = (statsOf db r workerStats).penalty +
      if run.id = r.id ∧ run.organizationId = r.organizationId then
        ((recorded db db').map (fun l => deduction l.2)).sum
      else 0 := by
  obtain ⟨added, hadded, howner⟩ := h.added
  have hlive : ∀ c ∈ added, liveContradiction r.id r.organizationId c =
      decide (run.id = r.id ∧ run.organizationId = r.organizationId) := by
    intro c hc
    obtain ⟨hrun, horg, hdeleted⟩ := howner c hc
    simp [liveContradiction, hrun, horg, hdeleted]
  have hrecorded : (recorded db db').map (fun l => deduction l.2) =
      added.map (fun c => deduction c.severity) := by
    rw [recorded, hadded, List.drop_left, List.map_map]
    rfl
  rw [penalty_statsOf, penalty_statsOf, hadded, List.filter_append, List.map_append, List.sum_append,
    hrecorded, List.filter_congr hlive]
  split
  next howns => simp [howns]
  next hother => simp [hother]

theorem finalScore_compared {run : EvaluationRun} {rows rows' : List Claim} {db db' db'' : Store}
    (h : Compared detectContradiction run rows db db')
    (h' : Compared detectContradiction run rows' db db'')
    (hperm : (recorded db db'').Perm (recorded db db')) (r : EvaluationRun)
    (workerStats : List (String × Nat)) :
    (statsOf db'' r workerStats).finalScore = (statsOf db' r workerStats).finalScore := by
  have hbase : (statsOf db'' r workerStats).baseScore = (statsOf db' r workerStats).baseScore := by
    rw [baseScore_statsOf, baseScore_statsOf, h.scores, h'.scores]
  have hsum := (hperm.map (fun l => deduction l.2)).sum_eq
  have hpenalty : (statsOf db'' r workerStats).penalty = (statsOf db' r workerStats).penalty := by
    rw [penalty_compared h, penalty_compared h', hsum]
  rw [Stats.finalScore, Stats.finalScore, hbase, hpenalty]

/-- A pair is recorded alike in both orders exactly when the texts agree, if
they are compared at all. -/
theorem link_comm_iff (a b : Claim) :
    link detectContradiction a b = link detectContradiction b a ↔
      (a.category = b.category → Agree (numbersIn a.claimText) (numbersIn b.claimText)) := by
  rw [← reportedSeverity_comm_iff]
  by_cases h : a.category = b.category
  · have hlink : ∀ a b : Claim, a.category = b.category → link detectContradiction a b =
        (reportedSeverity a.claimText b.claimText).map (fun q => (s(some a, some b), q)) := by
      intro a b hcat
      have hcat' : ¬ a.category ≠ b.category := fun hne => hne hcat
      rw [link, findPair, if_neg hcat', reportedSeverity, Option.map_map, Option.map_map]
      rfl
    have hinj : ∀ p : Sym2 (Option Claim), Function.Injective (fun q : ℚ => ((p, q) : Link)) := by
      intro p q r hqr
      exact congrArg Prod.snd hqr
    rw [hlink a b h, hlink b a h.symm, Sym2.eq_swap, (Option.map_injective (hinj _)).eq_iff]
    exact ⟨fun hsev _ => hsev, fun hsev => hsev h⟩
  · have h' : b.category ≠ a.category := fun heq => h heq.symm
    rw [link, link, findPair, findPair, if_pos h, if_pos h']
    exact ⟨fun _ heq => absurd heq h, fun _ => rfl⟩

theorem aggregate_tagged {results : List Json} {claims : List Dict}
    (h : aggregate results = .ok claims) : ∀ d ∈ claims, ∃ source, set "source_task" source d = d := by
  obtain ⟨lists, hlists, rfl⟩ := map_eq_ok.1 h
  intro d hd
  obtain ⟨list, hlist, hmem⟩ := List.mem_flatten.1 hd
  obtain ⟨result, _, hresult⟩ := exists_of_forall₂ (forall₂_of_mapM.1 hlists).flip list hlist
  cases result with
  | obj taskResult =>
    obtain ⟨items, _, htag⟩ := bind_eq_ok.1 hresult
    obtain ⟨item, _, hitem⟩ := exists_of_forall₂ (forall₂_of_mapM.1 htag).flip d hmem
    cases item with
    | obj claim =>
      cases hitem
      exact ⟨_, set_set _ _ _⟩
    | null | bool | num | str | arr => cases hitem
  | null | bool | num | str | arr =>
    cases hresult
    cases hmem

/-- The result of a task that has found one claim. -/
def resultOf (source : Json) (claim : Dict) : Json :=
  .obj [("claims", .arr [.obj claim]), ("status", source)]

theorem aggregate_exists {claims : List Dict}
    (h : ∀ d ∈ claims, ∃ source, set "source_task" source d = d) :
    ∃ results, aggregate results = .ok claims := by
  induction claims with
  | nil => exact ⟨[], rfl⟩
  | cons d claims ih =>
    obtain ⟨source, hsource⟩ := h d List.mem_cons_self
    obtain ⟨results, hresults⟩ := ih fun e he => h e (List.mem_cons_of_mem _ he)
    obtain ⟨lists, hlists, hflat⟩ := map_eq_ok.1 hresults
    have hfirst : claimsOf (resultOf source d) = .ok [d] := by
      have htag : claimsOf (resultOf source d) = .ok [set "source_task" source d] := rfl
      rw [htag, hsource]
    refine ⟨resultOf source d :: results, map_eq_ok.2 ⟨[d] :: lists, ?_, ?_⟩⟩
    · exact forall₂_of_mapM.2 (.cons hfirst (forall₂_of_mapM.1 hlists))
    · rw [List.flatten_cons, hflat]
      rfl

/-- Claims that can be compared can be compared in another order. -/
theorem crossCheck_perm {db db' : Store} {runId : UUID} {results results' : List Json}
    {claims claims' : List Dict} {out : Dict} (hclaims : aggregate results = .ok claims)
    (hclaims' : aggregate results' = .ok claims') (hperm : claims'.Perm claims)
    (hmany : ¬ claims.length < 2)
    (h : crossCheck detectContradiction db runId results = .ok (db', out)) :
    ∃ db'' out', crossCheck detectContradiction db runId results' = .ok (db'', out') := by
  obtain ⟨run, rows, hrun, hrows, hcompared⟩ := crossCheck_compared hclaims hmany h
  obtain ⟨rows', hrows', hrowsPerm⟩ := mapM_perm hperm hrows
  have hstorable : ∀ claim ∈ rows', claim.storable = true :=
    fun claim hclaim => hcompared.storable claim (hrowsPerm.mem_iff.1 hclaim)
  have hlength : ¬ rows'.length < 2 := by
    rw [hrowsPerm.length_eq, mapM_length hrows]
    exact hmany
  have hunsaved : unsavedClaims run results' = .ok rows' := by
    rw [unsavedClaims, hclaims']
    exact hrows'
  obtain ⟨⟨db'', out'⟩, hr⟩ := crossCheck_exists hrun
    ⟨rows', hunsaved, not_lt.1 hlength, hstorable, findings_storable_of_rows hstorable⟩
  exact ⟨db'', out', hr⟩

/-- The stage writes the same pairs with the same severities and leads to the
same final score, whatever the order of its claims. -/
def OrderIrrelevant (db db' : Store) (runId : UUID) (claims : List Dict) : Prop :=
  ∀ results' claims', aggregate results' = .ok claims' → claims'.Perm claims →
    ∃ db'' out', crossCheck detectContradiction db runId results' = .ok (db'', out') ∧
      (recorded db db'').Perm (recorded db db') ∧
      ∀ run workerStats,
        (statsOf db'' run workerStats).finalScore = (statsOf db' run workerStats).finalScore

theorem orderIrrelevant_few {db db' : Store} {runId : UUID} {claims : List Dict}
    (hfew : claims.length < 2) (hdb : db' = db) : OrderIrrelevant db db' runId claims := by
  intro results' claims' hclaims' hperm
  have hfew' : claims'.length < 2 := by
    rw [hperm.length_eq]
    exact hfew
  subst hdb
  have hcheck : crossCheck detectContradiction db' runId results' = .ok (db',
      [("status", .str "completed"), ("contradictions_found", .num 0),
        ("claims_analyzed", .num claims'.length)]) := by
    simp only [crossCheck, hclaims', bind, Except.bind, if_pos hfew']
    rfl
  exact ⟨db', _, hcheck, .refl _, fun _ _ => rfl⟩

theorem orderIrrelevant_iff {db db' : Store} {runId : UUID} {results : List Json}
    {claims : List Dict} {out : Dict} (hclaims : aggregate results = .ok claims)
    (hmany : ¬ claims.length < 2)
    (h : crossCheck detectContradiction db runId results = .ok (db', out)) :
    OrderIrrelevant db db' runId claims ↔ ∀ d ∈ claims, ∀ e ∈ claims,
      categoryOf d = categoryOf e → Agree (numbersIn (textOf d)) (numbersIn (textOf e)) := by
  obtain ⟨run, rows, hrun, hrows, hcompared⟩ := crossCheck_compared hclaims hmany h
  have hrow := forall₂_of_mapM.1 hrows
  have hpairs : (∀ rows', rows'.Perm rows →
      (pairs (link detectContradiction) rows').Perm (pairs (link detectContradiction) rows)) ↔
      ∀ d ∈ claims, ∀ e ∈ claims,
        categoryOf d = categoryOf e → Agree (numbersIn (textOf d)) (numbersIn (textOf e)) := by
    rw [pairs_perm_iff]
    constructor
    · intro hcomm d hd e he hcat
      obtain ⟨a, ha, hrowA⟩ := exists_of_forall₂ hrow d hd
      obtain ⟨b, hb, hrowB⟩ := exists_of_forall₂ hrow e he
      obtain ⟨htextA, hcatA⟩ := newClaim_text hrowA
      obtain ⟨htextB, hcatB⟩ := newClaim_text hrowB
      rw [hcatA, hcatB, Json.str.injEq] at hcat
      rw [← htextA, ← htextB]
      exact (link_comm_iff a b).1 (hcomm a ha b hb) hcat
    · intro hagree a ha b hb
      obtain ⟨d, hd, hrowA⟩ := exists_of_forall₂ hrow.flip a ha
      obtain ⟨e, he, hrowB⟩ := exists_of_forall₂ hrow.flip b hb
      obtain ⟨htextA, hcatA⟩ := newClaim_text hrowA
      obtain ⟨htextB, hcatB⟩ := newClaim_text hrowB
      rw [link_comm_iff, htextA, htextB]
      intro hcat
      apply hagree d hd e he
      rw [hcatA, hcatB, hcat]
  rw [← hpairs]
  constructor
  · intro hirrelevant rows' hperm
    obtain ⟨claims', hrows', hclaimsPerm⟩ := mapM_perm_rows hperm hrows
    have htagged : ∀ d ∈ claims', ∃ source, set "source_task" source d = d :=
      fun d hd => aggregate_tagged hclaims d (hclaimsPerm.mem_iff.1 hd)
    obtain ⟨results', hclaims'⟩ := aggregate_exists htagged
    obtain ⟨db'', out', hcheck, hrecorded, _⟩ := hirrelevant results' claims' hclaims' hclaimsPerm
    have hmany' : ¬ claims'.length < 2 := by
      rw [hclaimsPerm.length_eq]
      exact hmany
    obtain ⟨run', rows'', hrun', hrows'', hcompared'⟩ := crossCheck_compared hclaims' hmany' hcheck
    rw [hrun] at hrun'
    cases hrun'
    rw [hrows'] at hrows''
    cases hrows''
    rwa [hcompared.recorded, hcompared'.recorded] at hrecorded
  · intro hpairsPerm results' claims' hclaims' hperm
    have hmany' : ¬ claims'.length < 2 := by
      rw [hperm.length_eq]
      exact hmany
    obtain ⟨db'', out', hcheck⟩ := crossCheck_perm hclaims hclaims' hperm hmany h
    obtain ⟨run', rows', hrun', hrows', hcompared'⟩ := crossCheck_compared hclaims' hmany' hcheck
    rw [hrun] at hrun'
    cases hrun'
    obtain ⟨rows'', hrows'', hrowsPerm⟩ := mapM_perm hperm hrows
    rw [hrows'] at hrows''
    cases hrows''
    have hrecorded : (recorded db db'').Perm (recorded db db') := by
      rw [hcompared.recorded, hcompared'.recorded]
      exact hpairsPerm rows' hrowsPerm
    exact ⟨db'', out', hcheck, hrecorded, finalScore_compared hcompared hcompared' hrecorded⟩

/-- The detector finds something in one order exactly when it does in the
other. What it reports, and with it the pairs and the final score of a run,
does not depend on the order exactly when the texts of one category agree. -/
theorem contradictions_order (textA textB : String) (db db' : Store) (runId : UUID)
    (results : List Json) (claims : List Dict) (out : Dict) (hclaims : aggregate results = .ok claims)
    (h : crossCheck detectContradiction db runId results = .ok (db', out)) :
    (detectContradiction textA textB = none ↔ detectContradiction textB textA = none) ∧
    (reportedSeverity textA textB = reportedSeverity textB textA ↔
      Agree (numbersIn textA) (numbersIn textB)) ∧
    (OrderIrrelevant db db' runId claims ↔ ∀ d ∈ claims, ∀ e ∈ claims,
      categoryOf d = categoryOf e → Agree (numbersIn (textOf d)) (numbersIn (textOf e))) := by
  refine ⟨detectContradiction_none_comm textA textB, reportedSeverity_comm_iff textA textB, ?_⟩
  by_cases hmany : claims.length < 2
  · have hself : ∀ d ∈ claims, ∀ e ∈ claims,
        categoryOf d = categoryOf e → Agree (numbersIn (textOf d)) (numbersIn (textOf e)) := by
      intro d hd e he _
      obtain rfl | ⟨rest, hrest⟩ := exists_perm_heads hd he
      · exact (reportedSeverity_comm_iff _ _).1 rfl
      · rw [hrest.length_eq, List.length_cons, List.length_cons] at hmany
        omega
    exact ⟨fun _ => hself, fun _ => orderIrrelevant_few hmany (crossCheck_few hclaims hmany h)⟩
  · exact orderIrrelevant_iff hclaims hmany h

def finalScoreAfter (texts : List String) : Option ℚ :=
  (crossCheck detectContradiction comparedStore 1 (resultsWith texts)).toOption.map
    fun r => (statsOf r.1 comparedRun []).finalScore

/-- Both orders report, with severities 0.4 and 1, and only one of them costs
the run points. -/
theorem severity_depends_on_order :
    (reportedSeverity "1 of 10" "1 of 4" = some (4 / 10) ∧
      reportedSeverity "1 of 4" "1 of 10" = some 1) ∧
    finalScoreAfter ["1 of 10", "1 of 4"] = some (50 / 100) ∧
      finalScoreAfter ["1 of 4", "1 of 10"] = some (45 / 100) := by
  decide +kernel

/-- Texts with one number each agree. -/
theorem agree_singleton (x y : Double) : Agree [x] [y] := by
  intro va hva vb hvb
  obtain ⟨ha, vb', hvb', hinc⟩ := exists_partner hva
  have hmem := List.mem_of_find?_eq_some hvb'
  rw [List.mem_singleton.1 hmem] at hinc
  rw [List.mem_singleton.1 (exists_partner hvb).1]
  exact .inl hinc

theorem contradictions_order_people :
    ∃ db' out, crossCheck detectContradiction comparedStore 1 (resultsWith ["10 people", "2 people"]) =
        .ok (db', out) ∧
      OrderIrrelevant comparedStore db' 1 [taggedClaim "10 people", taggedClaim "2 people"] := by
  cases hcheck : crossCheck detectContradiction comparedStore 1
      (resultsWith ["10 people", "2 people"]) with
  | error e =>
    have hsome : (crossCheck detectContradiction comparedStore 1
        (resultsWith ["10 people", "2 people"])).toOption.isSome = true := by decide +kernel
    rw [hcheck] at hsome
    cases hsome
  | ok r =>
    refine ⟨r.1, r.2, rfl, ?_⟩
    have hsingle : ∀ d ∈ [taggedClaim "10 people", taggedClaim "2 people"],
        ∃ x, numbersIn (textOf d) = [x] := by
      intro d hd
      simp only [List.mem_cons, List.not_mem_nil, or_false] at hd
      obtain rfl | rfl := hd
      · exact ⟨(10 : ℚ), by decide +kernel⟩
      · exact ⟨(2 : ℚ), by decide +kernel⟩
    apply (contradictions_order "" "" comparedStore r.1 1 (resultsWith ["10 people", "2 people"])
      [taggedClaim "10 people", taggedClaim "2 people"] r.2 rfl hcheck).2.2.2
    intro d hd e he _
    obtain ⟨x, hx⟩ := hsingle d hd
    obtain ⟨y, hy⟩ := hsingle e he
    rw [hx, hy]
    exact agree_singleton x y

end EvalEngine.ContradictionOrder
