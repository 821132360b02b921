import EvalEngine.PythonValues
import EvalEngine.RegularExpressions
import Mathlib.Data.List.Infix

namespace EvalEngine.Validators

open EvalEngine.PythonValues EvalEngine.RegularExpressions

def within (first last : Char) (c : CodePoint) : Bool :=
  decide (codePoint first ≤ c ∧ c ≤ codePoint last)

/-- `[a-z0-9]` -/
def isAlnum (c : CodePoint) : Bool := within 'a' 'z' c || within '0' '9' c

/-- `[a-z0-9-]` -/
def isSlugChar (c : CodePoint) : Bool := isAlnum c || decide (c = codePoint '-')

/-- `[a-z_]` -/
def isScopeChar (c : CodePoint) : Bool := within 'a' 'z' c || decide (c = codePoint '_')

/-- `[a-z0-9]([a-z0-9-]*[a-z0-9])?` -/
def slugPattern : Regex CodePoint :=
  .seq (.one isAlnum) (.opt (.seq (.many isSlugChar) (.one isAlnum)))

/-- `[a-z_]+:[a-z_]+` -/
def scopePattern : Regex CodePoint :=
  .seq (.plus isScopeChar) (.seq (.one fun c => decide (c = codePoint ':')) (.plus isScopeChar))

def newline : CodePoint := codePoint '\n'

def isValidSlug (value : Text) : Bool :=
  if value = [] ∨ 63 < value.length then false
  else if !slugPattern.matchLine newline value then false
  else if text "--" <:+: value then false
  else true

def isValidScope (scope : Text) : Bool := scopePattern.matchLine newline scope

/-- The rules for a slug. -/
structure Slug (value : Text) : Prop where
  nonempty : 1 ≤ value.length
  short : value.length ≤ 63
  chars : ∀ c ∈ value, isSlugChar c = true
  first : value.head? ≠ some (codePoint '-')
  last : value.getLast? ≠ some (codePoint '-')
  single : ¬ text "--" <:+: value

/-- Two parts joined by a colon. -/
def Scope (scope : Text) : Prop :=
  ∃ resource action, scope = resource ++ codePoint ':' :: action ∧ resource ≠ [] ∧ action ≠ [] ∧
    (∀ c ∈ resource, isScopeChar c = true) ∧ ∀ c ∈ action, isScopeChar c = true

variable {value body scope : Text}

theorem isAlnum_iff {c : CodePoint} :
    isAlnum c = true ↔ isSlugChar c = true ∧ c ≠ codePoint '-' := by
  have hhyphen : isAlnum (codePoint '-') = false := by decide
  rw [isSlugChar, Bool.or_eq_true, decide_eq_true_eq]
  constructor
  · intro h
    refine ⟨.inl h, ?_⟩
    rintro rfl
    exact Bool.false_ne_true (hhyphen.symm.trans h)
  · rintro ⟨h | h, hne⟩
    · exact h
    · exact absurd h hne

theorem matches_scopePattern : scopePattern.Matches scope ↔ Scope scope := by
  constructor
  · rintro ⟨resource, _, rfl, hresource, _, action, rfl, ⟨c, rfl, hc⟩, haction⟩
    obtain rfl := of_decide_eq_true hc
    obtain ⟨hr, hrs⟩ := matches_plus.1 hresource
    obtain ⟨ha, has⟩ := matches_plus.1 haction
    exact ⟨resource, action, rfl, hr, ha, hrs, has⟩
  · rintro ⟨resource, action, rfl, hr, ha, hrs, has⟩
    exact ⟨resource, _, rfl, matches_plus.2 ⟨hr, hrs⟩, [codePoint ':'], action, rfl,
      ⟨_, rfl, decide_eq_true rfl⟩, matches_plus.2 ⟨ha, has⟩⟩

/-- The pattern of a slug checks its characters and both of its ends. -/
theorem matches_slugPattern : slugPattern.Matches value ↔
    value ≠ [] ∧ (∀ c ∈ value, isSlugChar c = true) ∧ value.head? ≠ some (codePoint '-') ∧
      value.getLast? ≠ some (codePoint '-') := by
  constructor
  · rintro ⟨_, rest, rfl, ⟨c, rfl, hc⟩, hrest⟩
    obtain ⟨hcslug, hcne⟩ := isAlnum_iff.1 hc
    refine ⟨List.cons_ne_nil c rest, ?_⟩
    obtain ⟨mid, _, rfl, hmid, d, rfl, hd⟩ | hempty := hrest
    · obtain ⟨hdslug, hdne⟩ := isAlnum_iff.1 hd
      have hmid : ∀ c ∈ mid, isSlugChar c = true := hmid
      refine ⟨?_, by simpa using hcne, by simpa [List.getLast?_cons] using hdne⟩
      intro e he
      simp only [List.singleton_append, List.mem_cons, List.mem_append, List.not_mem_nil,
        or_false] at he
      obtain rfl | he | rfl := he
      · exact hcslug
      · exact hmid e he
      · exact hdslug
    · obtain rfl : rest = [] := hempty
      exact ⟨by simpa using hcslug, by simpa using hcne, by simpa using hcne⟩
  · rintro ⟨hne, hchars, hfirst, hlast⟩
    obtain ⟨c, rest, rfl⟩ := List.exists_cons_of_ne_nil hne
    obtain ⟨hc, hrest⟩ := List.forall_mem_cons.1 hchars
    have hcne : c ≠ codePoint '-' := by simpa using hfirst
    refine ⟨[c], rest, rfl, ⟨c, rfl, isAlnum_iff.2 ⟨hc, hcne⟩⟩, ?_⟩
    by_cases hnil : rest = []
    · exact .inr hnil
    · obtain ⟨mid, d, rfl⟩ := (List.eq_nil_or_concat' rest).resolve_left hnil
      have hdne : d ≠ codePoint '-' := by simpa [List.getLast?_cons] using hlast
      refine .inl ⟨mid, [d], rfl, ?_, d, rfl, isAlnum_iff.2 ⟨hrest d (by simp), hdne⟩⟩
      intro e he
      exact hrest e (List.mem_append_left _ he)

theorem slug_iff : Slug value ↔
    slugPattern.Matches value ∧ value.length ≤ 63 ∧ ¬ text "--" <:+: value := by
  rw [matches_slugPattern]
  constructor
  · intro h
    exact ⟨⟨List.length_pos_iff.1 h.nonempty, h.chars, h.first, h.last⟩, h.short, h.single⟩
  · rintro ⟨⟨hne, hchars, hfirst, hlast⟩, hshort, hsingle⟩
    exact ⟨List.length_pos_iff.2 hne, hshort, hchars, hfirst, hlast, hsingle⟩

/-- A line break makes no pair of hyphens. -/
theorem hyphens_newline : text "--" <:+: body ++ [newline] ↔ text "--" <:+: body := by
  rw [List.infix_concat_iff]
  apply or_iff_right
  rintro ⟨front, h⟩
  have hpair : text "--" = [codePoint '-'] ++ [codePoint '-'] := rfl
  rw [hpair, ← List.append_assoc] at h
  have hlast := (List.append_inj' h rfl).2
  revert hlast
  decide

theorem isValidSlug_eq : isValidSlug value = true ↔
    value ≠ [] ∧ value.length ≤ 63 ∧ slugPattern.matchLine newline value = true ∧
      ¬ text "--" <:+: value := by
  rw [isValidSlug]
  split
  next h =>
    apply iff_of_false Bool.false_ne_true
    rintro ⟨hne, hshort, -⟩
    obtain h | h := h
    · exact hne h
    · omega
  next h =>
    rw [not_or, not_lt] at h
    cases hmatch : slugPattern.matchLine newline value with
    | false => simp
    | true => simp [h]

/-- Both validators accept their grammar, and a line break behind it. -/
theorem isValidSlug_iff : isValidSlug value = true ↔
    Slug value ∨ ∃ body, value = body ++ [newline] ∧ Slug body ∧ body.length ≤ 62 := by
  have hlocal : slugPattern.Local := ⟨trivial, ⟨trivial, trivial⟩, trivial⟩
  rw [isValidSlug_eq, matchLine_iff hlocal]
  constructor
  · rintro ⟨-, hshort, hmatch | ⟨body, rfl, hmatch⟩, hsingle⟩
    · exact .inl (slug_iff.2 ⟨hmatch, hshort, hsingle⟩)
    · rw [List.length_append, List.length_singleton] at hshort
      rw [hyphens_newline] at hsingle
      exact .inr ⟨body, rfl, slug_iff.2 ⟨hmatch, by omega, hsingle⟩, by omega⟩
  · rintro (h | ⟨body, rfl, h, hlength⟩)
    · obtain ⟨hmatch, hshort, hsingle⟩ := slug_iff.1 h
      exact ⟨List.length_pos_iff.1 h.nonempty, hshort, .inl hmatch, hsingle⟩
    · obtain ⟨hmatch, -, hsingle⟩ := slug_iff.1 h
      refine ⟨by simp, ?_, .inr ⟨body, rfl, hmatch⟩, mt hyphens_newline.1 hsingle⟩
      rw [List.length_append, List.length_singleton]
      omega

theorem isValidScope_iff : isValidScope scope = true ↔
    Scope scope ∨ ∃ body, scope = body ++ [newline] ∧ Scope body := by
  have hlocal : scopePattern.Local := ⟨⟨trivial, trivial⟩, trivial, trivial, trivial⟩
  simp only [isValidScope, matchLine_iff hlocal, matches_scopePattern]

theorem not_slug_newline : ¬ Slug (body ++ [newline]) := by
  intro h
  have hnewline : isSlugChar newline = false := by decide
  have hchar := h.chars newline (by simp)
  rw [hnewline] at hchar
  cases hchar

theorem not_scope_newline : ¬ Scope (body ++ [newline]) := by
  rintro ⟨resource, action, h, -, -, hresource, haction⟩
  have hnewline : isScopeChar newline = false ∧ newline ≠ codePoint ':' := by decide
  have hmem : newline ∈ resource ++ codePoint ':' :: action := h ▸ by simp
  rw [List.mem_append, List.mem_cons] at hmem
  obtain hmem | hmem | hmem := hmem
  · exact Bool.false_ne_true (hnewline.1.symm.trans (hresource _ hmem))
  · exact hnewline.2 hmem
  · exact Bool.false_ne_true (hnewline.1.symm.trans (haction _ hmem))

/-- A validator accepts exactly its grammar, apart from a valid string with a line break
behind it. -/
theorem validators_iff (s : Text) :
    ((isValidSlug s = true ↔ Slug s) ↔
      ¬ ∃ body, s = body ++ [newline] ∧ Slug body ∧ body.length ≤ 62) ∧
    ((isValidScope s = true ↔ Scope s) ↔ ¬ ∃ body, s = body ++ [newline] ∧ Scope body) := by
  rw [isValidSlug_iff, isValidScope_iff]
  constructor
  · constructor
    · rintro h ⟨body, rfl, hbody⟩
      exact not_slug_newline (h.1 (.inr ⟨body, rfl, hbody⟩))
    · exact fun h => or_iff_left h
  · constructor
    · rintro h ⟨body, rfl, hbody⟩
      exact not_scope_newline (h.1 (.inr ⟨body, rfl, hbody⟩))
    · exact fun h => or_iff_left h

/-- `$` matches before a line break that ends the string. -/
theorem validators_line_break :
    ¬ (∀ s : Text, (isValidSlug s = true ↔ Slug s) ∧ (isValidScope s = true ↔ Scope s)) := by
  intro h
  have hslug := (h (text "a\n")).1.1 (by decide)
  have hchar := hslug.chars newline (by decide)
  revert hchar
  decide

end EvalEngine.Validators
