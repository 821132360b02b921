import EvalEngine.PythonText
import EvalEngine.PythonValues
import EvalEngine.WordRuns

namespace EvalEngine.SanitizedText

open EvalEngine.PythonValues EvalEngine.WordRuns

/-- `str.isspace` of one character, and the class `\s` of a regular expression. -/
def isSpace (c : CodePoint) : Bool :=
  let n := c.val
  (9 ≤ n && n ≤ 13) || (28 ≤ n && n ≤ 32) || n = 0x85 || n = 0xA0 || n = 0x1680 ||
    (0x2000 ≤ n && n ≤ 0x200A) || n = 0x2028 || n = 0x2029 || n = 0x202F || n = 0x205F ||
    n = 0x3000

theorem isSpace_codePoint (c : Char) : isSpace (codePoint c) = PythonText.isSpace c := rfl

def space : CodePoint := codePoint ' '

def nul : CodePoint := codePoint (Char.ofNat 0)

def sanitizeString (value : Text) (maxLength : ℕ) : Text :=
  let stripped := trim isSpace value
  let collapsed := collapse isSpace space false stripped
  let cleaned := collapsed.filter (· ≠ nul)
  cleaned.take maxLength

/-- The rules for a sanitized text. -/
structure Sanitized (maxLength : ℕ) (value : Text) : Prop extends Spaced isSpace space value where
  short : value.length ≤ maxLength
  no_null : nul ∉ value

/-- The words of a text (`value.split()`), without their null characters. -/
def bareWords (value : Text) : List Text := (words isSpace value).map (List.filter (· ≠ nul))

def joined (ws : List Text) : Text := [space].intercalate ws

/-- Each space between two words that comes within the limit has a character
left on either side: neither word is made of null characters alone, and the
limit is not reached right behind the space. -/
def SpacesFit (maxLength : ℕ) (value : Text) : Prop :=
  ∀ before v w after, bareWords value = before ++ v :: w :: after →
    (joined (before ++ [v])).length < maxLength →
      v ≠ [] ∧ w ≠ [] ∧ (joined (before ++ [v])).length + 1 < maxLength

variable {value : Text} {maxLength : ℕ}

theorem sanitizeString_eq (value : Text) (maxLength : ℕ) :
    sanitizeString value maxLength = (joined (bareWords value)).take maxLength := by
  have hcollapsed := collapse_of_trimmed space _ (trimmed_trim isSpace value)
  dsimp only [sanitizeString, joined, bareWords]
  rw [hcollapsed, words_trim, filter_intercalate (by decide)]

theorem mem_bareWords {w : Text} (h : w ∈ bareWords value) :
    (∀ c ∈ w, isSpace c = false) ∧ nul ∉ w := by
  obtain ⟨v, hv, rfl⟩ := List.mem_map.1 h
  constructor
  · intro c hc
    exact mem_words hv c (List.mem_of_mem_filter hc)
  · intro hmem
    simpa using (List.mem_filter.1 hmem).2

theorem length_sanitizeString (value : Text) (maxLength : ℕ) :
    (sanitizeString value maxLength).length ≤ maxLength :=
  List.length_take_le _ _

theorem nul_not_mem_sanitizeString (value : Text) (maxLength : ℕ) : nul ∉ sanitizeString value maxLength := by
  intro h
  rw [sanitizeString_eq] at h
  obtain hnul | ⟨w, hw, hmem⟩ := mem_intercalate (List.mem_of_mem_take h)
  · exact absurd hnul (by decide)
  · exact (mem_bareWords hw).2 hmem

/-- What keeps the rules is left as it is. -/
theorem sanitizeString_of_sanitized (h : Sanitized maxLength value) : sanitizeString value maxLength = value := by
  have hkept : value.filter (· ≠ nul) = value := by
    apply List.filter_eq_self.2
    intro c hc
    apply decide_eq_true
    rintro rfl
    exact h.no_null hc
  dsimp only [sanitizeString]
  rw [trim_of_trimmed h.toTrimmed, collapse_of_spaced h.only h.single, hkept, List.take_of_length_le h.short]

theorem sanitized_iff (value : Text) (maxLength : ℕ) :
    Sanitized maxLength (sanitizeString value maxLength) ↔ SpacesFit maxLength value := by
  have hwords : ∀ w ∈ bareWords value, ∀ c ∈ w, isSpace c = false := fun w hw => (mem_bareWords hw).1
  have hspaced := spaced_take_iff (show isSpace space = true by decide) hwords maxLength
  unfold SpacesFit joined
  rw [← hspaced, ← joined, ← sanitizeString_eq]
  constructor
  · intro h
    exact h.toSpaced
  · intro h
    exact ⟨h, length_sanitizeString value maxLength, nul_not_mem_sanitizeString value maxLength⟩

/-- A text comes out in normal form, which sanitizing leaves as it is, exactly
when its spaces fit. -/
theorem sanitizeString_normal_iff (value : Text) (maxLength : ℕ) :
    (Sanitized maxLength (sanitizeString value maxLength) ∧
      sanitizeString (sanitizeString value maxLength) maxLength = sanitizeString value maxLength) ↔
      SpacesFit maxLength value := by
  rw [← sanitized_iff]
  constructor
  · intro h
    exact h.1
  · intro h
    exact ⟨h, sanitizeString_of_sanitized h⟩

/-- The limit leaves the space behind the first word, and sanitizing once more
takes it away. -/
theorem space_left_at_limit :
    sanitizeString (text "ab cd") 3 = text "ab " ∧ sanitizeString (text "ab ") 3 = text "ab" ∧
      ¬ Sanitized 3 (sanitizeString (text "ab cd") 3) := by
  have hsanitized : sanitizeString (text "ab cd") 3 = text "ab " := by decide
  refine ⟨hsanitized, by decide, ?_⟩
  intro h
  rw [hsanitized] at h
  exact absurd (h.trailing space (by decide)) (by decide)

end EvalEngine.SanitizedText
