import Mathlib.Data.List.Infix

namespace EvalEngine.LowerCase

/-- What the running interpreter's Unicode tables say about single characters. -/
structure CaseTables where
  lowerChar : Char → List Char
  isCased : Char → Bool
  isCaseIgnorable : Char → Bool
  lowerChar_blank : lowerChar ' ' = [' ']
  blank_not_cased : isCased ' ' = false
  blank_not_ignorable : isCaseIgnorable ' ' = false

variable (tables : CaseTables)

/-- The next character that is not ignorable, in either direction, is cased. -/
def casedNext (cs : List Char) : Bool :=
  (cs.find? (fun c => !tables.isCaseIgnorable c)).any tables.isCased

/-- A capital sigma in front of `after`; what is before it is in reverse. -/
def lowerSigma (before after : List Char) : Char :=
  if casedNext tables before && !casedNext tables after then Char.ofNat 0x3C2 else Char.ofNat 0x3C3

def lowerFrom (before : List Char) : List Char → List Char
  | [] => []
  | c :: cs =>
    (if c.toNat = 0x3A3 then [lowerSigma tables before cs] else tables.lowerChar c) ++
      lowerFrom (c :: before) cs

/-- `str.lower`. -/
def lower (s : String) : String := String.ofList (lowerFrom tables [] s.toList)

theorem casedNext_append_blank (cs rest : List Char) :
    casedNext tables (cs ++ ' ' :: rest) = casedNext tables cs := by
  rw [casedNext, casedNext, List.find?_append]
  cases cs.find? (fun c => !tables.isCaseIgnorable c) with
  | some c => rfl
  | none => simp [tables.blank_not_ignorable, tables.blank_not_cased]

theorem lowerFrom_append_blank (before cs rest : List Char) :
    lowerFrom tables before (cs ++ ' ' :: rest) =
      lowerFrom tables before cs ++ ' ' :: lowerFrom tables (' ' :: (cs.reverse ++ before)) rest := by
  induction cs generalizing before with
  | nil =>
    simp [lowerFrom, tables.lowerChar_blank]
  | cons c cs ih =>
    have hsame : lowerSigma tables before (cs ++ ' ' :: rest) = lowerSigma tables before cs := by
      rw [lowerSigma, lowerSigma, casedNext_append_blank]
    simp only [List.cons_append, lowerFrom, hsame, ih, List.append_assoc, List.reverse_cons,
      List.nil_append]

theorem lowerFrom_behind_blank (before before' cs : List Char) :
    lowerFrom tables (before ++ ' ' :: before') cs = lowerFrom tables before cs := by
  induction cs generalizing before with
  | nil => rfl
  | cons c cs ih =>
    have hsame : lowerSigma tables (before ++ ' ' :: before') cs = lowerSigma tables before cs := by
      rw [lowerSigma, lowerSigma, casedNext_append_blank]
    have hrest := ih (c :: before)
    rw [List.cons_append] at hrest
    simp only [lowerFrom, hsame, hrest]

/-- A blank ends the context in which a capital sigma is the last letter of its word. -/
theorem lower_append_blank (s t : String) :
    (lower tables (s ++ " " ++ t)).toList =
      (lower tables s).toList ++ ' ' :: (lower tables t).toList := by
  have hlist : (s ++ " " ++ t).toList = s.toList ++ ' ' :: t.toList := by
    simp [String.toList_append]
  simp only [lower, String.toList_ofList, hlist, lowerFrom_append_blank]
  have hbehind := lowerFrom_behind_blank tables [] (s.toList.reverse ++ []) t.toList
  rw [List.nil_append] at hbehind
  rw [hbehind]

/-- The tables below the first non-ASCII character. -/
def asciiCases : CaseTables where
  lowerChar c := [c.toLower]
  isCased := Char.isAlpha
  isCaseIgnorable c := decide (c.toNat ∈ [0x27, 0x2E, 0x3A, 0x5E, 0x60])
  lowerChar_blank := by decide
  blank_not_cased := by decide
  blank_not_ignorable := by decide

end EvalEngine.LowerCase
