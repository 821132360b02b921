import EvalEngine.CrossCheck
import EvalEngine.DecimalDigits
import EvalEngine.PairwiseLoop
import EvalEngine.RegularExpressions
import EvalEngine.Rounding

namespace EvalEngine.DetectContradiction

open EvalEngine.JsonValues EvalEngine.Rounding EvalEngine.Doubles EvalEngine.DecimalDigits
open EvalEngine.CrossCheck
open EvalEngine.RegularExpressions

/-- `\d+(?:\.\d+)?` -/
def numeral : Regex Char :=
  .seq (.plus isDecimal) (.opt (.seq (.one (fun c => c == '.')) (.plus isDecimal)))

def numbersIn (text : String) : List Double := (numeral.findall text.toList).map readFloat

/-- `max(va, vb) / min(va, vb)`, a division of floats. -/
def ratio (va vb : Double) : Option Double := divide (max va vb) (min va vb)

/-- Nothing is greater than 3 if it is not a number. -/
def inconsistent (va vb : Double) : Bool :=
  decide (0 < va) && decide (0 < vb) && (ratio va vb).any (fun r => decide (3 < r))

/-- `round(min(1.0, ratio / 10), 2)`, as the decimal whose nearest float it is. -/
def severity (va vb : Double) : ℚ :=
  match (ratio va vb).bind (divide · (10 : ℚ)) with
  | some (q : ℚ) => roundTo 2 (min 1 q)
  | _ => 1

/-- The format `.1f`. -/
def tenths : Option Double → String
  | some (q : ℚ) =>
    let n := (roundHalfEven (q * 10)).toNat
    toString (n / 10) ++ "." ++ toString (n % 10)
  | some ⊤ => "inf"
  | none => "nan"

def report (textA textB : String) (va vb : Double) : Finding where
  type := "numerical"
  severity := severity va vb
  explanation := "Numerical inconsistency: '" ++ textA ++ "' vs '" ++ textB ++ "' (ratio: " ++
    tenths (ratio va vb) ++ "x)"

/-- The nested loops, which return at the first pair. -/
def firstPair (numsA numsB : List Double) : Option (Double × Double) :=
  numsA.findSome? fun va => (numsB.find? (inconsistent va)).map (fun vb => (va, vb))

/-- `_detect_contradiction`. -/
def detectContradiction (textA textB : String) : Option Finding :=
  let numsA := numbersIn textA
  let numsB := numbersIn textB
  if numsA.isEmpty || numsB.isEmpty then none
  else (firstPair numsA numsB).map (fun v => report textA textB v.1 v.2)

theorem ratio_comm (va vb : Double) : ratio va vb = ratio vb va := by
  rw [ratio, ratio, max_comm, min_comm]

theorem inconsistent_comm (va vb : Double) : inconsistent va vb = inconsistent vb va := by
  rw [inconsistent, inconsistent, ratio_comm, Bool.and_comm (decide (0 < va))]

theorem severity_comm (va vb : Double) : severity va vb = severity vb va := by
  rw [severity, severity, ratio_comm]

/-- The first number of a text that contradicts some number of the other. -/
def opening (numsA numsB : List Double) : Option Double :=
  numsA.find? (fun va => numsB.any (inconsistent va))

/-- The two orders of the loops meet the same pair first, or pairs that are
equally severe. -/
def Agree (numsA numsB : List Double) : Prop :=
  ∀ va ∈ opening numsA numsB, ∀ vb ∈ opening numsB numsA,
    inconsistent va vb = true ∨
      ∀ vb' ∈ numsB.find? (inconsistent va), ∀ va' ∈ numsA.find? (inconsistent vb),
        severity va vb' = severity va' vb

theorem findSome?_eq {α β : Type} (p : α → β → Bool) (xs : List α) (ys : List β) :
    (xs.findSome? fun x => (ys.find? (p x)).map (fun y => (x, y))) =
      (xs.find? (fun x => ys.any (p x))).bind fun x => (ys.find? (p x)).map (fun y => (x, y)) := by
  induction xs with
  | nil => rfl
  | cons x xs ih =>
    rw [List.findSome?_cons, List.find?_cons]
    cases hfind : ys.find? (p x) with
    | none =>
      have hany : ys.any (p x) = false := by
        rw [List.any_eq_false]
        exact List.find?_eq_none.1 hfind
      simp only [hany, Option.map_none]
      exact ih
    | some y =>
      have hany : ys.any (p x) = true :=
        List.any_eq_true.2 ⟨y, List.mem_of_find?_eq_some hfind, List.find?_some hfind⟩
      simp [hany, hfind]

theorem firstPair_eq (numsA numsB : List Double) :
    firstPair numsA numsB = (opening numsA numsB).bind fun va =>
      (numsB.find? (inconsistent va)).map (fun vb => (va, vb)) :=
  findSome?_eq inconsistent numsA numsB

theorem firstPair_eq_none {numsA numsB : List Double} :
    firstPair numsA numsB = none ↔ ∀ va ∈ numsA, ∀ vb ∈ numsB, inconsistent va vb = false := by
  simp only [firstPair, List.findSome?_eq_none_iff, Option.map_eq_none_iff, List.find?_eq_none,
    Bool.not_eq_true]

theorem firstPair_none_comm {numsA numsB : List Double} :
    firstPair numsA numsB = none ↔ firstPair numsB numsA = none := by
  rw [firstPair_eq_none, firstPair_eq_none]
  constructor
  · intro h vb hb va ha
    rw [inconsistent_comm]
    exact h va ha vb hb
  · intro h va ha vb hb
    rw [inconsistent_comm]
    exact h vb hb va ha

/-- Without numbers there is no pair, so the guard in front of the loops decides nothing. -/
theorem detectContradiction_eq (textA textB : String) : detectContradiction textA textB =
    (firstPair (numbersIn textA) (numbersIn textB)).map
      (fun v => report textA textB v.1 v.2) := by
  simp only [detectContradiction]
  split
  next hempty =>
    have hnone : firstPair (numbersIn textA) (numbersIn textB) = none := by
      rw [firstPair_eq_none]
      intro va ha vb hb
      obtain h | h := Bool.or_eq_true_iff.1 hempty
      · rw [List.isEmpty_iff.1 h] at ha
        cases ha
      · rw [List.isEmpty_iff.1 h] at hb
        cases hb
    rw [hnone]
    rfl
  next => rfl

theorem detectContradiction_none_comm (textA textB : String) :
    detectContradiction textA textB = none ↔ detectContradiction textB textA = none := by
  rw [detectContradiction_eq, detectContradiction_eq, Option.map_eq_none_iff, Option.map_eq_none_iff]
  exact firstPair_none_comm

/-- The severity that the detector reports, if it does. -/
def reportedSeverity (textA textB : String) : Option ℚ :=
  (detectContradiction textA textB).map Finding.severity

theorem reportedSeverity_eq (textA textB : String) : reportedSeverity textA textB =
    (firstPair (numbersIn textA) (numbersIn textB)).map (fun v => severity v.1 v.2) := by
  rw [reportedSeverity, detectContradiction_eq, Option.map_map]
  rfl

theorem find?_of_imp {α : Type} {p q : α → Bool} {xs : List α} {x : α}
    (hp : xs.find? p = some x) (hq : q x = true) (himp : ∀ y ∈ xs, q y = true → p y = true) :
    xs.find? q = some x := by
  obtain ⟨hpx, before, after, rfl, hbefore⟩ := List.find?_eq_some_iff_append.1 hp
  refine List.find?_eq_some_iff_append.2 ⟨hq, before, after, rfl, ?_⟩
  intro y hy
  cases hqy : q y with
  | false => rfl
  | true =>
    have hpy := himp y (List.mem_append_left _ hy) hqy
    have hnot := hbefore y hy
    rw [hpy] at hnot
    exact hnot

theorem find?_of_opening {numsA numsB : List Double} {va vb : Double} (ha : va ∈ numsA)
    (hb : opening numsB numsA = some vb) (h : inconsistent va vb = true) :
    numsB.find? (inconsistent va) = some vb := by
  apply find?_of_imp hb h
  intro y hy hinc
  rw [inconsistent_comm] at hinc
  exact List.any_eq_true.2 ⟨va, ha, hinc⟩

theorem exists_partner {numsA numsB : List Double} {va : Double} (h : opening numsA numsB = some va) :
    va ∈ numsA ∧ ∃ vb, numsB.find? (inconsistent va) = some vb ∧ inconsistent va vb = true := by
  have hany : numsB.any (inconsistent va) = true :=
    List.find?_some (p := fun va => numsB.any (inconsistent va)) h
  obtain ⟨vb, hvb, hinc⟩ := List.any_eq_true.1 hany
  refine ⟨List.mem_of_find?_eq_some h, ?_⟩
  cases hfind : numsB.find? (inconsistent va) with
  | none => exact absurd hinc (List.find?_eq_none.1 hfind vb hvb)
  | some y => exact ⟨y, rfl, List.find?_some hfind⟩

theorem firstPair_of_opening {numsA numsB : List Double} {va vb : Double} (h : opening numsA numsB = some va)
    (hfind : numsB.find? (inconsistent va) = some vb) : firstPair numsA numsB = some (va, vb) := by
  rw [firstPair_eq, h, Option.bind_some, hfind]
  rfl

theorem firstPair_none_of_opening {numsA numsB : List Double} (h : opening numsA numsB = none) :
    firstPair numsA numsB = none := by
  rw [firstPair_eq, h]
  rfl

theorem severity_comm_iff (numsA numsB : List Double) :
    (firstPair numsA numsB).map (fun v => severity v.1 v.2) =
        (firstPair numsB numsA).map (fun v => severity v.1 v.2) ↔ Agree numsA numsB := by
  cases hA : opening numsA numsB with
  | none =>
    have hnone := firstPair_none_of_opening hA
    rw [hnone, firstPair_none_comm.1 hnone, Agree, hA]
    simp
  | some va =>
    obtain ⟨ha, vb', hvb', hinc⟩ := exists_partner hA
    have hfirst := firstPair_of_opening hA hvb'
    cases hB : opening numsB numsA with
    | none =>
      rw [firstPair_none_comm.1 (firstPair_none_of_opening hB)] at hfirst
      cases hfirst
    | some vb =>
      obtain ⟨hb, va', hva', hinc'⟩ := exists_partner hB
      rw [hfirst, firstPair_of_opening hB hva', Agree, hA, hB]
      simp only [Option.map_some, Option.some.injEq, Option.mem_def]
      constructor
      · rintro h _ rfl _ rfl
        right
        intro y hy x hx
        rw [hvb', Option.some.injEq] at hy
        rw [hva', Option.some.injEq] at hx
        rw [← hy, ← hx, h, severity_comm]
      · intro h
        obtain hmeet | hsame := h va rfl vb rfl
        · -- both orders stop at the two opening numbers
          have hvb : numsB.find? (inconsistent va) = some vb := find?_of_opening ha hB hmeet
          have hva : numsA.find? (inconsistent vb) = some va := by
            apply find?_of_opening hb hA
            rw [inconsistent_comm]
            exact hmeet
          rw [hvb'] at hvb
          rw [hva'] at hva
          cases hvb
          cases hva
          exact severity_comm _ _
        · rw [hsame vb' hvb' va' hva', severity_comm]

/-- The severity does not depend on the order of the texts exactly when their
numbers agree. -/
theorem reportedSeverity_comm_iff (textA textB : String) :
    reportedSeverity textA textB = reportedSeverity textB textA ↔
      Agree (numbersIn textA) (numbersIn textB) := by
  rw [reportedSeverity_eq, reportedSeverity_eq]
  exact severity_comm_iff _ _

end EvalEngine.DetectContradiction
