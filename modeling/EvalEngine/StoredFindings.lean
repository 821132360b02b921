import Mathlib.Data.Sym.Sym2
import EvalEngine.ExceptLists
import EvalEngine.FinalScore
import EvalEngine.PairwiseLoop
import EvalEngine.StageContracts

namespace EvalEngine.StoredFindings

open EvalEngine.JsonValues EvalEngine.Exceptions EvalEngine.QueryResults EvalEngine.RunModel
open EvalEngine.KeyedRows EvalEngine.StageTables EvalEngine.CrossCheck EvalEngine.StageContracts
open EvalEngine.PairwiseLoop EvalEngine.FinalScore EvalEngine.ExceptLists

/-- The text that the constructor of a claim reads. -/
def textOf (data : Dict) : String :=
  match CrossCheck.get "text" (.str "") data with
  | .str s => s
  | _ => ""

def categoryOf (data : Dict) : Json := CrossCheck.get "category" (.str "general") data

theorem textColumn_ok {value : Json} {s : String} (h : textColumn value = .ok s) : value = .str s := by
  cases value with
  | str t =>
    cases h
    rfl
  | null | bool | num | arr | obj => cases h

theorem newClaim_text {run : EvaluationRun} {data : Dict} {claim : Claim}
    (h : newClaim run data = .ok claim) :
    claim.claimText = textOf data ∧ categoryOf data = .str claim.category := by
  simp only [newClaim, bind_eq_ok] at h
  obtain ⟨claimText, htext, category, hcategory, _, _, _, _, hclaim⟩ := h
  cases hclaim
  constructor
  · rw [textOf, textColumn_ok htext]
  · exact textColumn_ok hcategory

/-- A claim without the key that the table has given it. -/
def unsaved (claim : Claim) : Claim := { claim with id := 0 }

theorem newClaim_unsaved {run : EvaluationRun} {data : Dict} {claim : Claim}
    (h : newClaim run data = .ok claim) : unsaved claim = claim := by
  simp only [newClaim, bind_eq_ok] at h
  obtain ⟨_, _, _, _, _, _, _, _, hclaim⟩ := h
  cases hclaim
  rfl

theorem storeClaims_unsaved {run : EvaluationRun} {data : List Dict} {db db' : Store}
    {stored : List Claim} (h : storeClaims run db data = .ok (db', stored)) :
    data.mapM (newClaim run) = .ok (stored.map unsaved) := by
  induction data generalizing db stored with
  | nil =>
    cases h
    rfl
  | cons d data ih =>
    simp only [storeClaims, bind_eq_ok] at h
    obtain ⟨claim, hclaim, ⟨db₁, claim'⟩, hinsert, ⟨db₂, rest⟩, hrest, hresult⟩ := h
    cases hresult
    obtain ⟨-, rfl, -⟩ := insertClaim_ok hinsert
    rw [List.mapM_cons, hclaim, ih hrest, List.map_cons]
    exact congrArg (fun c => Except.ok (c :: rest.map unsaved)) (newClaim_unsaved hclaim).symm

/-- A row of step 3, for what it was made from. -/
structure RowOf (run : EvaluationRun) (found : Claim × Claim × Finding) (c : Contradiction) : Prop where
  evaluationRunId : c.evaluationRunId = run.id
  organizationId : c.organizationId = run.organizationId
  claimAId : c.claimAId = found.1.id
  claimBId : c.claimBId = found.2.1.id
  severity : c.severity = found.2.2.severity
  deletedAt : c.deletedAt = none

theorem storeContradictions_rows {run : EvaluationRun} {db db' : Store}
    {found : List (Claim × Claim × Finding)} (h : storeContradictions run db found = .ok db') :
    ∃ added, db'.contradictions = db.contradictions ++ added ∧
      List.Forall₂ (RowOf run) found added := by
  induction found generalizing db with
  | nil =>
    cases h
    exact ⟨[], (List.append_nil _).symm, .nil⟩
  | cons f found ih =>
    simp only [storeContradictions, List.foldlM_cons, bind_eq_ok] at h
    obtain ⟨db₁, hinsert, hrest⟩ := h
    obtain ⟨-, hcontra₁, -⟩ := insertContradiction_ok hinsert
    obtain ⟨added, hcontra₂, hrows⟩ := ih hrest
    refine ⟨{ newContradiction run f with id := db.nextId } :: added, ?_, .cons ?_ hrows⟩
    · rw [hcontra₂, hcontra₁, List.append_assoc]
      rfl
    · exact ⟨rfl, rfl, rfl, rfl, rfl, rfl⟩

/-- The claim behind a foreign key, without the key. -/
def claimOf (db : Store) (id : UUID) : Option Claim :=
  (db.claims.find? (fun c => c.id = id)).map unsaved

theorem claimOf_id {db : Store} {claim : Claim} (h : claim ∈ db.claims) :
    claimOf db claim.id = some (unsaved claim) := by
  rw [claimOf, find?_key Claim.id db.keys h]
  rfl

/-- A pair of claims in no order, with its severity. -/
abbrev Link := Sym2 (Option Claim) × ℚ

def linkOf (db : Store) (c : Contradiction) : Link :=
  (s(claimOf db c.claimAId, claimOf db c.claimBId), c.severity)

/-- What a stage has added to the contradictions, as pairs of claims. -/
def recorded (db db' : Store) : List Link :=
  (db'.contradictions.drop db.contradictions.length).map (linkOf db')

variable (detect : String → String → Option Finding)

/-- The pair that step 3 makes of two claims. -/
def link (a b : Claim) : Option Link :=
  (findPair detect a b).map fun found => (s(some a, some b), found.2.2.severity)

theorem findContradictions_eq (claims : List Claim) :
    findContradictions detect claims = pairs (findPair detect) claims := by
  induction claims with
  | nil => rfl
  | cons a rest ih => simp only [findContradictions, pairs, ih]

variable {detect}

theorem map_pairs {α β γ : Type} {f : α → α → Option β} {g : β → γ} (xs : List α) :
    (pairs f xs).map g = pairs (fun a b => (f a b).map g) xs := by
  induction xs with
  | nil => rfl
  | cons a rest ih => simp only [pairs, List.map_append, List.map_filterMap, ih]

theorem pairs_map {α β γ : Type} {f : β → β → Option γ} {g : α → β} (xs : List α) :
    pairs f (xs.map g) = pairs (fun a b => f (g a) (g b)) xs := by
  induction xs with
  | nil => rfl
  | cons a rest ih => simp only [pairs, List.map_cons, List.filterMap_map, Function.comp_def, ih]

theorem pairs_congr {α β : Type} {f g : α → α → Option β} {xs : List α}
    (h : ∀ a ∈ xs, ∀ b ∈ xs, f a b = g a b) : pairs f xs = pairs g xs := by
  induction xs with
  | nil => rfl
  | cons a rest ih =>
    have hrow : rest.filterMap (f a) = rest.filterMap (g a) :=
      List.filterMap_congr fun b hb => h a List.mem_cons_self b (List.mem_cons_of_mem _ hb)
    rw [pairs, pairs, hrow,
      ih fun b hb c hc => h b (List.mem_cons_of_mem _ hb) c (List.mem_cons_of_mem _ hc)]

/-- What a finding is about are the texts and the categories, not the keys. -/
theorem link_unsaved (a b : Claim) : link detect (unsaved a) (unsaved b) =
    (findPair detect a b).map fun found =>
      (s(some (unsaved found.1), some (unsaved found.2.1)), found.2.2.severity) := by
  by_cases h : a.category ≠ b.category
  · have h' : (unsaved a).category ≠ (unsaved b).category := h
    rw [link, findPair, findPair, if_pos h, if_pos h', Option.map_none, Option.map_none]
  · have h' : ¬ (unsaved a).category ≠ (unsaved b).category := h
    rw [link, findPair, findPair, if_neg h, if_neg h', Option.map_map, Option.map_map]
    rfl

/-- What `_cross_check` leaves where there is something to compare. -/
structure Compared (detect : String → String → Option Finding) (run : EvaluationRun)
    (rows : List Claim) (db db' : Store) : Prop where
  claims : ∃ stored, db'.claims = db.claims ++ stored ∧ stored.map unsaved = rows
  storable : ∀ claim ∈ rows, claim.storable = true
  recorded : recorded db db' = pairs (link detect) rows
  added : ∃ added, db'.contradictions = db.contradictions ++ added ∧
    ∀ c ∈ added, c.evaluationRunId = run.id ∧ c.organizationId = run.organizationId ∧ c.deletedAt = none
  scores : db'.scores = db.scores
  runs : db'.runs = db.runs

theorem recorded_of_rows {run : EvaluationRun} {db db' : Store} {found : List (Claim × Claim × Finding)}
    {added : List Contradiction} (hadded : db'.contradictions = db.contradictions ++ added)
    (hrows : List.Forall₂ (RowOf run) found added)
    (hfound : ∀ f ∈ found, f.1 ∈ db'.claims ∧ f.2.1 ∈ db'.claims) :
    recorded db db' = found.map fun f =>
      (s(some (unsaved f.1), some (unsaved f.2.1)), f.2.2.severity) := by
  rw [recorded, hadded, List.drop_left]
  clear hadded
  induction hrows with
  | nil => rfl
  | cons hrow _ ih =>
    obtain ⟨ha, hb⟩ := hfound _ List.mem_cons_self
    rw [List.map_cons, List.map_cons, ih fun f hf => hfound f (List.mem_cons_of_mem _ hf), linkOf,
      hrow.claimAId, hrow.claimBId, hrow.severity, claimOf_id ha, claimOf_id hb]

theorem crossCheck_compared {db db' : Store} {runId : UUID} {results : List Json} {claims : List Dict}
    {out : Dict} (hclaims : aggregate results = .ok claims) (hmany : ¬ claims.length < 2)
    (h : crossCheck detect db runId results = .ok (db', out)) :
    ∃ run rows, scalarOne (db.runs.filter (fun run => decide (run.id = runId))) = .ok run ∧
      claims.mapM (newClaim run) = .ok rows ∧ Compared detect run rows db db' := by
  simp only [crossCheck, bind_eq_ok] at h
  obtain ⟨_, hsame, h⟩ := h
  rw [hclaims] at hsame
  cases hsame
  rw [if_neg hmany] at h
  simp only [bind_eq_ok] at h
  obtain ⟨run, hrun, ⟨db₁, stored⟩, hstored, db₂, hcontra, hresult⟩ := h
  cases hresult
  obtain ⟨rows, hrows, hforall, hclaims₁, _, hcontra₁, hscores₁, hruns₁⟩ := storeClaims_ok hstored
  obtain ⟨_, _, _, hclaims₂, hscores₂, hruns₂⟩ :=
    storeContradictions_ok (fun _ hf => mem_findContradictions hf) hcontra
  obtain ⟨added, hadded, hrowOf⟩ := storeContradictions_rows hcontra
  rw [hcontra₁] at hadded
  have hsaved : stored.map unsaved = rows := by
    have hagain := storeClaims_unsaved hstored
    rw [hrows] at hagain
    exact (Except.ok.inj hagain).symm
  subst hsaved
  refine ⟨run, _, hrun, hrows, ?_⟩
  refine ⟨⟨stored, hclaims₂.trans hclaims₁, rfl⟩, ?_, ?_, ⟨added, hadded, ?_⟩,
    hscores₂.trans hscores₁, hruns₂.trans hruns₁⟩
  · intro claim hclaim
    obtain ⟨_, _, hstoredAs⟩ := exists_of_forall₂ hforall claim hclaim
    exact hstoredAs.storable
  · have hfound : ∀ f ∈ findContradictions detect stored, f.1 ∈ db'.claims ∧ f.2.1 ∈ db'.claims := by
      intro f hf
      obtain ⟨ha, hb⟩ := mem_findContradictions hf
      rw [hclaims₂, hclaims₁]
      exact ⟨List.mem_append_right _ ha, List.mem_append_right _ hb⟩
    rw [recorded_of_rows hadded hrowOf hfound, findContradictions_eq, map_pairs, pairs_map]
    exact pairs_congr fun a _ b _ => (link_unsaved a b).symm
  · intro c hc
    obtain ⟨f, _, hrow⟩ := exists_of_forall₂ hrowOf.flip c hc
    exact ⟨hrow.evaluationRunId, hrow.organizationId, hrow.deletedAt⟩

theorem crossCheck_few {db db' : Store} {runId : UUID} {results : List Json} {claims : List Dict}
    {out : Dict} (hclaims : aggregate results = .ok claims) (hfew : claims.length < 2)
    (h : crossCheck detect db runId results = .ok (db', out)) : db' = db := by
  simp only [crossCheck, bind_eq_ok] at h
  obtain ⟨_, hsame, h⟩ := h
  rw [hclaims] at hsame
  cases hsame
  rw [if_pos hfew] at h
  cases h
  rfl

def comparedRun : EvaluationRun :=
  { id := 1, submissionId := 2, configId := none, organizationId := 3, triggeredById := none
    createdAt := 10, updatedAt := 10 }

def comparedStore : Store :=
  { runs := [comparedRun], claims := [], contradictions := [], scores := [], nextId := 4
    keys := List.nodup_nil, fresh := fun _ h => absurd h List.not_mem_nil }

def textClaim (text : String) : Json := .obj [("text", .str text)]

def resultsWith (texts : List String) : List Json :=
  [.obj [("status", .str "completed"), ("claims", .arr (texts.map textClaim))]]

def taggedClaim (text : String) : Dict := [("text", .str text), ("source_task", .str "completed")]

end EvalEngine.StoredFindings
