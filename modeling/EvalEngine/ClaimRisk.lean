import EvalEngine.DecimalDigits
import EvalEngine.Fabrication
import EvalEngine.LowerCase
import EvalEngine.PythonText
import EvalEngine.RegularExpressions
import Mathlib.Algebra.Order.BigOperators.Group.List
import Mathlib.Data.List.Basic

namespace EvalEngine.ClaimRisk

open EvalEngine.JsonValues EvalEngine.Rounding EvalEngine.DecimalDigits EvalEngine.LowerCase EvalEngine.PythonText
open EvalEngine.RegularExpressions EvalEngine.Fabrication

/-- What the running interpreter says about letters, digits and the text of a float. -/
structure Interpreter extends CaseTables where
  isAlnum : Char → Bool
  floatText : ℚ → String
  blank_not_alnum : isAlnum ' ' = false

/-- An amount of risk and the factor that accounts for it. -/
abbrev Suspicion := ℚ × String

def superlatives : List String := ["first", "only", "best", "largest", "fastest", "revolutionary"]

/-- The first superlative of the list that occurs ends the loop. -/
def superlativeClaim (textLower : String) : List Suspicion :=
  ((superlatives.find? (fun word => isIn word textLower)).map
    (fun word => (2 / 10, "Superlative claim: '" ++ word ++ "'"))).toList

/-- `\b(\d+)\b` -/
def wholeNumber (word : Char → Bool) : Regex Char :=
  .seq (.boundary word) (.seq (.plus isDecimal) (.boundary word))

def roundNumber (n : Nat) : Option Suspicion :=
  if 1000 ≤ n ∧ n % 1000 = 0 then some (15 / 100, "Suspiciously round number: " ++ toString n)
  else if 100 ≤ n ∧ n % 100 = 0 then some (1 / 10, "Round number: " ++ toString n)
  else none

/-- `(\d+)x\s*growth` -/
def growthMultiplier : Regex Char :=
  .seq (.plus isDecimal) (.seq (.literal ['x']) (.seq (.many isSpace) (.literal "growth".toList)))

/-- `(\d+)%\s*(growth|increase)` -/
def growthPercentage : Regex Char :=
  .seq (.plus isDecimal) (.seq (.literal ['%']) (.seq (.many isSpace)
    (.alt (.literal "growth".toList) (.literal "increase".toList))))

/-- `(\d+)\s*million\s*users` -/
def millionUsers : Regex Char :=
  .seq (.plus isDecimal) (.seq (.many isSpace) (.seq (.literal "million".toList)
    (.seq (.many isSpace) (.literal "users".toList))))

def growthPatterns : List (Regex Char × Suspicion) :=
  [(growthMultiplier, 2 / 10, "Extreme growth multiplier"),
    (growthPercentage, 1 / 10, "High percentage growth"),
    (millionUsers, 3 / 10, "Large user count claim")]

def growthClaims (textLower : String) : List Suspicion :=
  (growthPatterns.filter (fun p => p.1.search none textLower.toList)).map Prod.snd

variable (py : Interpreter)

/-- The class `\w`. -/
def isWord (c : Char) : Bool := py.isAlnum c || c == '_'

/-- `int(num)` is taken to be exact. The interpreter refuses more than 4300 digits. -/
def roundNumbers (text : String) : List Suspicion :=
  ((wholeNumber (isWord py)).findall text.toList).filterMap (fun num => roundNumber (readInt num))

def lowConfidence (confidence : ℚ) : List Suspicion :=
  if confidence < 1 / 2 then [(15 / 100, "Low extraction confidence: " ++ py.floatText confidence)]
  else []

def suspicions (text : String) (confidence : ℚ) : List Suspicion :=
  superlativeClaim (lower py.toCaseTables text) ++ roundNumbers py text ++
    growthClaims (lower py.toCaseTables text) ++ lowConfidence py confidence

/-- `_assess_claim_risk`, which does not look at the category. -/
def assessClaimRisk (text _category : String) (confidence : ℚ) : Risk where
  score := min 1 (roundTo 4 ((suspicions py text confidence).map Prod.fst).sum)
  factors := (suspicions py text confidence).map Prod.snd

/-- The amounts alone. -/
def weights (text : String) (confidence : ℚ) : List ℚ := (suspicions py text confidence).map Prod.fst

theorem weights_eq (text : String) (confidence : ℚ) :
    weights py text confidence =
      (superlativeClaim (lower py.toCaseTables text)).map Prod.fst ++
        (roundNumbers py text).map Prod.fst ++
        (growthClaims (lower py.toCaseTables text)).map Prod.fst ++
        (lowConfidence py confidence).map Prod.fst := by
  simp only [weights, suspicions, List.map_append]

theorem superlativeClaim_weights (textLower : String) : (superlativeClaim textLower).map Prod.fst =
    if superlatives.any (fun word => isIn word textLower) then [2 / 10] else [] := by
  rw [superlativeClaim]
  cases hfind : superlatives.find? (fun word => isIn word textLower) with
  | none =>
    have hany : superlatives.any (fun word => isIn word textLower) = false := by
      rw [List.any_eq_false]
      exact List.find?_eq_none.1 hfind
    rw [hany]
    rfl
  | some word =>
    have hany : superlatives.any (fun word => isIn word textLower) = true :=
      List.any_eq_true.2 ⟨word, List.mem_of_find?_eq_some hfind,
        List.find?_some (p := fun word => isIn word textLower) hfind⟩
    rw [hany]
    rfl

theorem superlativeClaim_sublist {s t : String} (h : s.toList <:+: t.toList) :
    ((superlativeClaim s).map Prod.fst).Sublist ((superlativeClaim t).map Prod.fst) := by
  rw [superlativeClaim_weights, superlativeClaim_weights]
  by_cases hs : superlatives.any (fun word => isIn word s) = true
  · have ht : superlatives.any (fun word => isIn word t) = true := by
      obtain ⟨word, hword, hin⟩ := List.any_eq_true.1 hs
      exact List.any_eq_true.2 ⟨word, hword, isIn_trans hin h⟩
    rw [if_pos hs, if_pos ht]
  · rw [if_neg hs]
    exact List.nil_sublist _

theorem local_growthPatterns : ∀ p ∈ growthPatterns, p.1.Local := by
  intro p hp
  simp only [growthPatterns, List.mem_cons, List.not_mem_nil, or_false] at hp
  obtain rfl | rfl | rfl := hp
  · exact ⟨⟨trivial, trivial⟩, local_literal _, trivial, local_literal _⟩
  · exact ⟨⟨trivial, trivial⟩, local_literal _, trivial, local_literal _, local_literal _⟩
  · exact ⟨⟨trivial, trivial⟩, trivial, local_literal _, trivial, local_literal _⟩

/-- The patterns look at no more than their match, which a longer text still has. -/
theorem growthClaims_sublist {s t : String} (h : s.toList <:+: t.toList) :
    (growthClaims s).Sublist (growthClaims t) := by
  obtain ⟨before, after, ht⟩ := h
  have hfound : ∀ p ∈ growthPatterns, p.1.search none s.toList = true →
      p.1.search none t.toList = true := by
    intro p hp hs
    have hlocal := local_growthPatterns p hp
    have hbehind := search_append_right hlocal (b := none) hs before
    rw [← ht]
    exact search_append_left hlocal hbehind after
  have hfilter : growthPatterns.filter (fun p => p.1.search none s.toList) =
      (growthPatterns.filter (fun p => p.1.search none t.toList)).filter
        (fun p => p.1.search none s.toList) := by
    rw [List.filter_filter]
    apply List.filter_congr
    intro p hp
    cases hs : p.1.search none s.toList with
    | false => rfl
    | true => rw [hfound p hp hs, Bool.and_true]
  rw [growthClaims, hfilter]
  exact List.filter_sublist.map Prod.snd

theorem avoids_wholeNumber : (wholeNumber (isWord py)).Avoids ' ' := by
  have hword : isWord py ' ' = false := by
    rw [isWord, py.blank_not_alnum]
    rfl
  have hdigit : isDecimal ' ' = false := by decide
  exact ⟨hword, ⟨hdigit, hdigit⟩, hword⟩

theorem roundNumbers_append (t u : String) :
    roundNumbers py (t ++ " " ++ u) = roundNumbers py t ++ roundNumbers py u := by
  have hlist : (t ++ " " ++ u).toList = t.toList ++ ' ' :: u.toList := by simp [String.toList_append]
  rw [roundNumbers, hlist, findall_append (avoids_wholeNumber py), List.filterMap_append]
  rfl

theorem lowConfidence_sublist {c d : ℚ} (h : c ≤ d) :
    ((lowConfidence py d).map Prod.fst).Sublist ((lowConfidence py c).map Prod.fst) := by
  simp only [lowConfidence]
  by_cases hd : d < 1 / 2
  · rw [if_pos hd, if_pos (h.trans_lt hd)]
    exact List.Sublist.refl _
  · rw [if_neg hd]
    exact List.nil_sublist _

/-- Where a suspicion comes from. -/
theorem mem_suspicions {text : String} {confidence : ℚ} {s : Suspicion}
    (h : s ∈ suspicions py text confidence) :
    (∃ word ∈ superlatives, s = (2 / 10, "Superlative claim: '" ++ word ++ "'")) ∨
      (∃ n, roundNumber n = some s) ∨ (∃ p ∈ growthPatterns, s = p.2) ∨
      s = (15 / 100, "Low extraction confidence: " ++ py.floatText confidence) := by
  simp only [suspicions, List.mem_append] at h
  obtain ((h | h) | h) | h := h
  · obtain ⟨word, hword, rfl⟩ := Option.map_eq_some_iff.1 (Option.mem_toList.1 h)
    exact .inl ⟨word, List.mem_of_find?_eq_some hword, rfl⟩
  · obtain ⟨num, _, hround⟩ := List.mem_filterMap.1 h
    exact .inr (.inl ⟨_, hround⟩)
  · obtain ⟨p, hp, rfl⟩ := List.mem_map.1 h
    exact .inr (.inr (.inl ⟨p, List.mem_of_mem_filter hp, rfl⟩))
  · simp only [lowConfidence] at h
    split at h
    · exact .inr (.inr (.inr (List.mem_singleton.1 h)))
    · cases h

theorem roundNumber_cases {n : Nat} {s : Suspicion} (h : roundNumber n = some s) :
    s = (15 / 100, "Suspiciously round number: " ++ toString n) ∨
      s = (1 / 10, "Round number: " ++ toString n) := by
  simp only [roundNumber] at h
  split at h
  · exact .inl (Option.some.inj h).symm
  · split at h
    · exact .inr (Option.some.inj h).symm
    · cases h

theorem weights_nonneg (text : String) (confidence : ℚ) : ∀ w ∈ weights py text confidence, 0 ≤ w := by
  intro w hw
  rw [weights] at hw
  obtain ⟨s, hs, rfl⟩ := List.mem_map.1 hw
  obtain ⟨word, _, rfl⟩ | ⟨n, hround⟩ | ⟨p, hp, rfl⟩ | rfl := mem_suspicions py hs
  · norm_num
  · obtain rfl | rfl := roundNumber_cases hround <;> norm_num
  · simp only [growthPatterns, List.mem_cons, List.not_mem_nil, or_false] at hp
    obtain rfl | rfl | rfl := hp <;> norm_num
  · norm_num

/-- What a text gives reason for, a longer one does as well. -/
theorem weights_sublist_append (t u : String) (confidence : ℚ) :
    (weights py t confidence).Sublist (weights py (t ++ " " ++ u) confidence) ∧
      (weights py u confidence).Sublist (weights py (t ++ " " ++ u) confidence) := by
  have hlower := lower_append_blank py.toCaseTables t u
  have hleft : (lower py.toCaseTables t).toList <:+: (lower py.toCaseTables (t ++ " " ++ u)).toList := by
    rw [hlower]
    exact (List.prefix_append _ _).isInfix
  have hright : (lower py.toCaseTables u).toList <:+: (lower py.toCaseTables (t ++ " " ++ u)).toList := by
    rw [hlower]
    exact ((List.suffix_cons _ _).trans (List.suffix_append _ _)).isInfix
  simp only [weights_eq, roundNumbers_append, List.map_append]
  constructor
  · exact (((superlativeClaim_sublist hleft).append (List.sublist_append_left _ _)).append
      ((growthClaims_sublist hleft).map _)).append (List.Sublist.refl _)
  · exact (((superlativeClaim_sublist hright).append (List.sublist_append_right _ _)).append
      ((growthClaims_sublist hright).map _)).append (List.Sublist.refl _)

theorem weights_sublist_confidence (text : String) {c d : ℚ} (h : c ≤ d) :
    (weights py text d).Sublist (weights py text c) := by
  rw [weights_eq, weights_eq]
  exact (List.Sublist.refl _).append (lowConfidence_sublist py h)

theorem score_eq (text category : String) (confidence : ℚ) :
    (assessClaimRisk py text category confidence).score =
      min 1 (roundTo 4 (weights py text confidence).sum) := rfl

theorem factors_eq (text category : String) (confidence : ℚ) :
    (assessClaimRisk py text category confidence).factors =
      (suspicions py text confidence).map Prod.snd := by
  rw [assessClaimRisk]

theorem score_mem (text category : String) (confidence : ℚ) :
    0 ≤ (assessClaimRisk py text category confidence).score ∧
      (assessClaimRisk py text category confidence).score ≤ 1 := by
  have hsum : 0 ≤ (weights py text confidence).sum := List.sum_nonneg (weights_nonneg py text confidence)
  have hround : 0 ≤ roundTo 4 (weights py text confidence).sum := by
    have hmono := @roundTo_mono 4 _ _ hsum
    rwa [roundTo_of_hasDigits ⟨0, by norm_num⟩] at hmono
  rw [score_eq]
  exact ⟨le_min zero_le_one hround, min_le_left _ _⟩

theorem score_le_of_sublist {s t : String} (category category' : String) {c d : ℚ}
    (h : (weights py s c).Sublist (weights py t d)) :
    (assessClaimRisk py s category c).score ≤ (assessClaimRisk py t category' d).score := by
  rw [score_eq, score_eq]
  exact min_le_min le_rfl (roundTo_mono (h.sum_le_sum (weights_nonneg py t d)))

/-- No factor has a character that a column cannot hold. -/
theorem factors_storable (hfloat : ∀ q, textStorable (py.floatText q) = true) (text category : String)
    (confidence : ℚ) : (assessClaimRisk py text category confidence).factors.all textStorable = true := by
  rw [factors_eq, List.all_eq_true]
  intro factor hfactor
  obtain ⟨s, hs, rfl⟩ := List.mem_map.1 hfactor
  have hlabels : textStorable "Superlative claim: '" = true ∧ textStorable "'" = true ∧
      textStorable "Suspiciously round number: " = true ∧ textStorable "Round number: " = true ∧
      textStorable "Low extraction confidence: " = true := by decide +kernel
  obtain ⟨word, hword, rfl⟩ | ⟨n, hround⟩ | ⟨p, hp, rfl⟩ | rfl := mem_suspicions py hs
  · have hwords : ∀ word ∈ superlatives, textStorable word = true := by decide +kernel
    simp only [textStorable_append, hlabels, hwords word hword, Bool.and_self]
  · obtain rfl | rfl := roundNumber_cases hround <;>
      simp only [textStorable_append, hlabels, textStorable_toString, Bool.and_self]
  · simp only [growthPatterns, List.mem_cons, List.not_mem_nil, or_false] at hp
    obtain rfl | rfl | rfl := hp <;> decide +kernel
  · simp only [textStorable_append, hlabels, hfloat, Bool.and_self]

/-- More text or less confidence does not make a claim look safer. -/
theorem risk_bounded_monotone (t u category category' : String) (c d : ℚ) (h : c ≤ d) :
    (0 ≤ (assessClaimRisk py t category c).score ∧ (assessClaimRisk py t category c).score ≤ 1) ∧
      (assessClaimRisk py t category c).score ≤
        (assessClaimRisk py (t ++ " " ++ u) category' c).score ∧
      (assessClaimRisk py u category c).score ≤
        (assessClaimRisk py (t ++ " " ++ u) category' c).score ∧
      (assessClaimRisk py t category d).score ≤ (assessClaimRisk py t category' c).score := by
  obtain ⟨hleft, hright⟩ := weights_sublist_append py t u c
  exact ⟨score_mem py t category c, score_le_of_sublist py category category' hleft,
    score_le_of_sublist py category category' hright,
    score_le_of_sublist py category category' (weights_sublist_confidence py t h)⟩

/-- Floats have one digit behind the point here. -/
def asciiInterpreter : Interpreter where
  toCaseTables := asciiCases
  isAlnum := Char.isAlphanum
  floatText q := toString (roundHalfEven (q * 10) / 10) ++ "." ++ toString (roundHalfEven (q * 10) % 10)
  blank_not_alnum := by decide

theorem floatText_storable (q : ℚ) : textStorable (asciiInterpreter.floatText q) = true := by
  have hpoint : textStorable "." = true := by decide
  simp only [asciiInterpreter, textStorable_append, textStorable_toString_int, hpoint, Bool.and_self]

example : (assessClaimRisk asciiInterpreter "First with 5 million users" "traction" (3 / 10)).score =
      65 / 100 ∧
    (assessClaimRisk asciiInterpreter "First with 5 million users" "traction" (3 / 10)).factors =
      ["Superlative claim: 'first'", "Large user count claim", "Low extraction confidence: 0.3"] := by
  decide +kernel

theorem risk_bounded_monotone_sample :
    (0 ≤ (assessClaimRisk asciiInterpreter "2000 users" "traction" (3 / 10)).score ∧
        (assessClaimRisk asciiInterpreter "2000 users" "traction" (3 / 10)).score ≤ 1) ∧
      (assessClaimRisk asciiInterpreter "2000 users" "traction" (3 / 10)).score ≤
        (assessClaimRisk asciiInterpreter ("2000 users" ++ " " ++ "100% growth") "traction" (3 / 10)).score ∧
      (assessClaimRisk asciiInterpreter "100% growth" "traction" (3 / 10)).score ≤
        (assessClaimRisk asciiInterpreter ("2000 users" ++ " " ++ "100% growth") "traction" (3 / 10)).score ∧
      (assessClaimRisk asciiInterpreter "2000 users" "traction" (8 / 10)).score ≤
        (assessClaimRisk asciiInterpreter "2000 users" "traction" (3 / 10)).score :=
  risk_bounded_monotone asciiInterpreter "2000 users" "100% growth" "traction" "traction" (3 / 10) (8 / 10)
    (by norm_num)

end EvalEngine.ClaimRisk
