import EvalEngine.JsonSchema
import EvalEngine.ServiceRequests
import EvalEngine.Validators
import EvalEngine.WordRuns

namespace EvalEngine.OrganizationSlugs

open EvalEngine.PythonValues EvalEngine.PythonText EvalEngine.Validators EvalEngine.WordRuns
open EvalEngine.ServiceTables EvalEngine.AuditService EvalEngine.AuthService EvalEngine.AuthContracts
open EvalEngine.RunModel EvalEngine.Exceptions EvalEngine.ServiceContracts EvalEngine.ConstrainedTables
open EvalEngine.ServiceRequests
open Entity Stored Contract

def hyphen : CodePoint := codePoint '-'

/-- Words of `[a-z0-9]` with single hyphens between them. -/
inductive Words : Text → Prop
  | last {c : CodePoint} : isAlnum c = true → Words [c]
  | letter {c : CodePoint} {s : Text} : isAlnum c = true → Words s → Words (c :: s)
  | hyphenated {c : CodePoint} {s : Text} : isAlnum c = true → Words s → Words (c :: hyphen :: s)

theorem Words.head {s : Text} (h : Words s) : ∃ c r, s = c :: r ∧ isAlnum c = true := by
  cases h with
  | last hc | letter hc _ | hyphenated hc _ => exact ⟨_, _, rfl, hc⟩

theorem not_alnum_hyphen : isAlnum hyphen = false := by decide

/-- Between two hyphens there is a letter or a digit. -/
theorem Words.single {s : Text} (h : Words s) : ¬ [hyphen, hyphen] <:+: s := by
  have hne : ∀ {c}, isAlnum c = true → hyphen ≠ c := by
    rintro c hc rfl
    exact Bool.false_ne_true (not_alnum_hyphen.symm.trans hc)
  have hhead : ∀ {c : CodePoint} {s : Text}, isAlnum c = true → ¬ [hyphen, hyphen] <:+: s →
      ¬ [hyphen, hyphen] <:+: c :: s := by
    intro c s hc hs hin
    obtain hprefix | hin := List.infix_cons_iff.1 hin
    · exact hne hc (List.cons_prefix_cons.1 hprefix).1
    · exact hs hin
  induction h with
  | last hc => exact hhead hc (by simp)
  | letter hc hs ih => exact hhead hc ih
  | hyphenated hc hs ih =>
    apply hhead hc
    intro hin
    obtain hprefix | hin := List.infix_cons_iff.1 hin
    · obtain ⟨d, r, rfl, hd⟩ := hs.head
      exact hne hd (List.cons_prefix_cons.1 (List.cons_prefix_cons.1 hprefix).2).1
    · exact ih hin

theorem Words.last_alnum {s : Text} (h : Words s) : ∃ c ∈ s.getLast?, isAlnum c = true := by
  induction h with
  | last hc => exact ⟨_, rfl, hc⟩
  | letter hc hs ih =>
    obtain ⟨d, r, rfl, -⟩ := hs.head
    simpa [List.getLast?_cons_cons] using ih
  | hyphenated hc hs ih =>
    obtain ⟨d, r, rfl, -⟩ := hs.head
    simpa [List.getLast?_cons_cons] using ih

theorem Words.chars {s : Text} (h : Words s) : ∀ c ∈ s, isSlugChar c = true := by
  induction h with
  | last hc => simpa using (isAlnum_iff.1 hc).1
  | letter hc hs ih => exact List.forall_mem_cons.2 ⟨(isAlnum_iff.1 hc).1, ih⟩
  | hyphenated hc hs ih =>
    exact List.forall_mem_cons.2 ⟨(isAlnum_iff.1 hc).1, List.forall_mem_cons.2 ⟨by decide, ih⟩⟩

theorem words_of_slug : ∀ s : Text, Slug s → Words s
  | [], h => absurd h.nonempty (by simp)
  | [c], h => .last (isAlnum_iff.2 ⟨h.chars c List.mem_cons_self, fun hc => h.first (by rw [hc]; rfl)⟩)
  | c :: d :: s, h => by
    have hc : isAlnum c = true :=
      isAlnum_iff.2 ⟨h.chars c List.mem_cons_self, fun hc => h.first (by rw [hc]; rfl)⟩
    have hlast : (d :: s).getLast? ≠ some (codePoint '-') := by
      rw [← List.getLast?_cons_cons (a := c)]
      exact h.last
    have hlen := h.short
    simp only [List.length_cons] at hlen
    by_cases hd : d = hyphen
    · subst hd
      cases s with
      | nil => exact absurd rfl hlast
      | cons e s =>
        refine .hyphenated hc (words_of_slug (e :: s) ⟨by simp, ?_, ?_, ?_, ?_, ?_⟩)
        · simp only [List.length_cons] at hlen ⊢
          omega
        · exact fun x hx => h.chars x (List.mem_cons_of_mem c (List.mem_cons_of_mem _ hx))
        · intro he
          obtain rfl : e = codePoint '-' := by simpa using he
          exact h.single ⟨[c], s, rfl⟩
        · rwa [List.getLast?_cons_cons] at hlast
        · exact fun hin => h.single (hin.trans ⟨[c, hyphen], [], by simp⟩)
    · refine .letter hc (words_of_slug (d :: s) ⟨by simp, ?_, ?_, ?_, hlast, ?_⟩)
      · simp only [List.length_cons]
        omega
      · exact fun x hx => h.chars x (List.mem_cons_of_mem c hx)
      · intro he
        exact hd (Option.some.inj he)
      · exact fun hin => h.single (hin.trans ⟨[c], [], by simp⟩)

theorem slug_iff_words {s : Text} (hlen : s.length ≤ 63) : Slug s ↔ Words s := by
  constructor
  · exact words_of_slug s
  · intro h
    obtain ⟨c, r, rfl, hc⟩ := h.head
    refine ⟨by simp, hlen, h.chars, ?_, ?_, h.single⟩
    · intro hfirst
      exact (isAlnum_iff.1 hc).2 (by simpa using hfirst)
    · intro hlast
      obtain ⟨d, hd, halnum⟩ := h.last_alnum
      rw [hlast] at hd
      obtain rfl : codePoint '-' = d := Option.some.inj hd
      exact (isAlnum_iff.1 halnum).2 rfl

/-- What `[\s_]` matches. -/
def separator (c : Char) : Bool := isSpace c || c == '_'

def alnum (c : Char) : Bool := isAlnum (codePoint c)

/-- A name, lower-cased and stripped, without the characters that a slug drops. -/
def kept (u : UnicodeTables) (name : String) : List Char := (strip (u.lower name).toList).filter (inSlug u)

/-- Words of `[a-z0-9]`, each joined to the next by one hyphen or by one run of
whitespace and underscores. The number counts such a run as one character. -/
inductive Joined : List Char → ℕ → Prop
  | last {c : Char} : alnum c = true → Joined [c] 1
  | letter {c : Char} {cs : List Char} {n : ℕ} : alnum c = true → Joined cs n → Joined (c :: cs) (n + 1)
  | hyphen {c : Char} {cs : List Char} {n : ℕ} : alnum c = true → Joined cs n → Joined (c :: '-' :: cs) (n + 2)
  | gap {c d : Char} {gap cs : List Char} {n : ℕ} : alnum c = true → (∀ e ∈ d :: gap, separator e = true) →
      Joined cs n → Joined (c :: d :: (gap ++ cs)) (n + 2)

/-- The kept characters of the name are joined words of at most 63 characters,
or begin with joined words of 63 characters. -/
def Sluggable (u : UnicodeTables) (name : String) : Prop :=
  ∃ front rest n, kept u name = front ++ rest ∧ Joined front n ∧ (rest = [] ∧ n ≤ 63 ∨ n = 63)

/-- The kept characters with a hyphen for every run of separators. -/
def spelled (cs : List Char) : List Char := collapse separator '-' false cs

theorem slugify_eq (u : UnicodeTables) (name : String) :
    slugify u name = String.ofList ((spelled (kept u name)).take 63) := rfl

theorem alnum_iff {c : Char} :
    alnum c = true ↔ 97 ≤ c.toNat ∧ c.toNat ≤ 122 ∨ 48 ≤ c.toNat ∧ c.toNat ≤ 57 := by
  unfold alnum isAlnum within
  rw [Bool.or_eq_true, decide_eq_true_eq, decide_eq_true_eq]
  rfl

theorem not_separator {c : Char} (hc : alnum c = true) : separator c = false := by
  have hrange := alnum_iff.1 hc
  have hspace : isSpace c = false := by
    unfold isSpace
    simp only [Bool.or_eq_false_iff, Bool.and_eq_false_iff, decide_eq_false_iff_not]
    omega
  have hunderscore : c ≠ '_' := by
    rintro rfl
    revert hrange
    decide
  unfold separator
  rw [hspace, Bool.false_or, beq_eq_false_iff_ne]
  exact hunderscore

theorem spelled_cons {c : Char} (hc : separator c = false) (cs : List Char) : spelled (c :: cs) = c :: spelled cs := by
  unfold spelled
  rw [collapse, if_neg (Bool.eq_false_iff.1 hc)]

theorem spelled_gap {d : Char} {gap cs : List Char} (hgap : ∀ e ∈ d :: gap, separator e = true)
    (hcs : cs.dropWhile separator = cs) : spelled (d :: (gap ++ cs)) = '-' :: spelled cs := by
  obtain ⟨hd, hgap⟩ := List.forall_mem_cons.1 hgap
  unfold spelled
  rw [collapse, if_pos hd, if_neg Bool.false_ne_true, collapse_true, List.dropWhile_append_of_pos hgap, hcs]

theorem Joined.head {cs : List Char} {n : ℕ} (h : Joined cs n) : ∃ c r, cs = c :: r ∧ alnum c = true := by
  cases h with
  | last hc | letter hc _ | hyphen hc _ | gap hc _ _ => exact ⟨_, _, rfl, hc⟩

/-- Joined words are spelled as words, whatever comes behind them. -/
theorem Joined.spells {cs : List Char} {n : ℕ} (h : Joined cs n) : ∃ s : List Char, Words (s.map codePoint) ∧
    s.length = n ∧ ∀ rest, spelled (cs ++ rest) = s ++ spelled rest := by
  induction h with
  | @last c hc =>
    refine ⟨[c], .last hc, rfl, ?_⟩
    intro rest
    exact spelled_cons (not_separator hc) rest
  | @letter c cs n hc h ih =>
    obtain ⟨s, hwords, rfl, hspelled⟩ := ih
    refine ⟨c :: s, .letter hc hwords, rfl, ?_⟩
    intro rest
    rw [List.cons_append, spelled_cons (not_separator hc), hspelled, List.cons_append]
  | @hyphen c cs n hc h ih =>
    obtain ⟨s, hwords, rfl, hspelled⟩ := ih
    refine ⟨c :: '-' :: s, .hyphenated hc hwords, rfl, ?_⟩
    intro rest
    rw [List.cons_append, List.cons_append, spelled_cons (not_separator hc), spelled_cons (by decide), hspelled,
      List.cons_append, List.cons_append]
  | @gap c d gap cs n hc hgap h ih =>
    obtain ⟨s, hwords, rfl, hspelled⟩ := ih
    refine ⟨c :: '-' :: s, .hyphenated hc hwords, rfl, ?_⟩
    intro rest
    have hdrop : (cs ++ rest).dropWhile separator = cs ++ rest := by
      obtain ⟨e, r, rfl, he⟩ := h.head
      exact List.dropWhile_cons_of_neg (Bool.eq_false_iff.1 (not_separator he))
    rw [List.cons_append, List.cons_append, List.append_assoc, spelled_cons (not_separator hc),
      spelled_gap hgap hdrop, hspelled, List.cons_append, List.cons_append]

/-- The text behind the first letter, when the name is spelled with it. -/
theorem spelled_eq_cons {c : Char} {cs s : List Char} (hc : alnum c = true) (h : spelled cs = c :: s) :
    ∃ r, cs = c :: r ∧ spelled r = s := by
  cases cs with
  | nil => cases h
  | cons d cs =>
    by_cases hd : separator d = true
    · unfold spelled at h
      rw [collapse, if_pos hd, if_neg Bool.false_ne_true] at h
      obtain ⟨rfl, -⟩ := List.cons.inj h
      exact absurd hc (by decide)
    · rw [spelled_cons (Bool.eq_false_iff.2 hd)] at h
      obtain ⟨rfl, hs⟩ := List.cons.inj h
      exact ⟨cs, rfl, hs⟩

/-- Where a hyphen is spelled, the name has a hyphen or a run of separators. -/
theorem spelled_eq_hyphen {cs s : List Char} (h : spelled cs = '-' :: s) :
    (∃ r, cs = '-' :: r ∧ spelled r = s) ∨ ∃ d gap r, cs = d :: (gap ++ r) ∧
      (∀ e ∈ d :: gap, separator e = true) ∧ spelled r = s := by
  cases cs with
  | nil => cases h
  | cons d cs =>
    by_cases hd : separator d = true
    · unfold spelled at h
      rw [collapse, if_pos hd, if_neg Bool.false_ne_true, collapse_true] at h
      refine .inr ⟨d, cs.takeWhile separator, cs.dropWhile separator, by simp, ?_, (List.cons.inj h).2⟩
      exact List.forall_mem_cons.2 ⟨hd, fun e he => List.mem_takeWhile_imp he⟩
    · rw [spelled_cons (Bool.eq_false_iff.2 hd)] at h
      obtain ⟨rfl, hs⟩ := List.cons.inj h
      exact .inl ⟨cs, rfl, hs⟩

/-- What is spelled as words begins with joined words. -/
theorem joined_of_spelled {w : Text} (hw : Words w) {cs s t : List Char} (hs : s.map codePoint = w)
    (h : spelled cs = s ++ t) : ∃ front rest, cs = front ++ rest ∧ Joined front s.length ∧ spelled rest = t := by
  induction hw generalizing cs s with
  | @last c hc =>
    obtain ⟨d, rfl, rfl⟩ := List.map_eq_singleton_iff.1 hs
    obtain ⟨r, rfl, hr⟩ := spelled_eq_cons hc h
    exact ⟨[d], r, rfl, .last hc, hr⟩
  | @letter c w hc hw ih =>
    obtain ⟨d, s, rfl, rfl, htail⟩ := List.map_eq_cons_iff.1 hs
    obtain ⟨r, rfl, hr⟩ := spelled_eq_cons hc h
    obtain ⟨front, rest, rfl, hfront, hrest⟩ := ih htail hr
    exact ⟨d :: front, rest, rfl, .letter hc hfront, hrest⟩
  | @hyphenated c w hc hw ih =>
    obtain ⟨d, _, rfl, rfl, htail⟩ := List.map_eq_cons_iff.1 hs
    obtain ⟨e, s, rfl, he, hmap⟩ := List.map_eq_cons_iff.1 htail
    obtain rfl : e = '-' := JsonSchema.codePoint_injective he
    obtain ⟨r, rfl, hr⟩ := spelled_eq_cons hc h
    obtain ⟨r, rfl, hbehind⟩ | ⟨x, gap, r, rfl, hgap, hbehind⟩ := spelled_eq_hyphen hr
    · obtain ⟨front, rest, rfl, hfront, hrest⟩ := ih hmap hbehind
      exact ⟨d :: '-' :: front, rest, rfl, .hyphen hc hfront, hrest⟩
    · obtain ⟨front, rest, rfl, hfront, hrest⟩ := ih hmap hbehind
      exact ⟨d :: x :: (gap ++ front), rest, by simp, .gap hc hgap hfront, hrest⟩

theorem spelled_ne_nil {cs : List Char} (h : cs ≠ []) : spelled cs ≠ [] := collapse_ne_nil h

/-- A slug spells words exactly for the names that can be slugged. -/
theorem words_slugify_iff (u : UnicodeTables) (name : String) :
    Words (text (slugify u name)) ↔ Sluggable u name := by
  have htext : text (slugify u name) = ((spelled (kept u name)).take 63).map codePoint := by
    rw [slugify_eq, text, String.toList_ofList]
  rw [htext]
  constructor
  · intro hwords
    have hsplit := (List.take_append_drop 63 (spelled (kept u name))).symm
    obtain ⟨front, rest, hkept, hfront, hrest⟩ := joined_of_spelled hwords rfl hsplit
    refine ⟨front, rest, _, hkept, hfront, ?_⟩
    have hle := List.length_take_le 63 (spelled (kept u name))
    by_cases hnil : rest = []
    · exact .inl ⟨hnil, hle⟩
    · have hne := spelled_ne_nil hnil
      rw [hrest, ne_eq, List.drop_eq_nil_iff] at hne
      refine .inr ?_
      rw [List.length_take]
      omega
  · rintro ⟨front, rest, n, hkept, hfront, hn⟩
    obtain ⟨s, hwords, rfl, hspelled⟩ := hfront.spells
    have htake : (spelled (kept u name)).take 63 = s := by
      rw [hkept, hspelled]
      obtain ⟨rfl, hle⟩ | hfull := hn
      · rw [show spelled [] = [] from rfl, List.append_nil, List.take_of_length_le hle]
      · exact List.take_left' hfull
    rw [htake]
    exact hwords

theorem length_text_slugify (u : UnicodeTables) (name : String) : (text (slugify u name)).length ≤ 63 := by
  rw [slugify_eq, text, String.toList_ofList, List.length_map]
  exact List.length_take_le _ _

/-- Line breaks are whitespace, so that no slug has any. -/
theorem newline_not_mem_slugify (u : UnicodeTables) (name : String) : newline ∉ text (slugify u name) := by
  intro hmem
  rw [slugify_eq, text, String.toList_ofList, List.mem_map] at hmem
  obtain ⟨c, hc, hcode⟩ := hmem
  obtain rfl : c = '\n' := JsonSchema.codePoint_injective hcode
  obtain h | ⟨_, h⟩ := mem_collapse (List.mem_of_mem_take hc)
  · exact absurd h (by decide)
  · exact absurd h (by decide)

theorem isValidSlug_slugify_iff (u : UnicodeTables) (name : String) :
    isValidSlug (text (slugify u name)) = true ↔ Sluggable u name := by
  rw [isValidSlug_iff, slug_iff_words (length_text_slugify u name), words_slugify_iff]
  constructor
  · rintro (h | ⟨body, hbody, -⟩)
    · exact h
    · exact absurd (hbody ▸ by simp) (newline_not_mem_slugify u name)
  · exact Or.inl

/-- What the tables say about the characters of a slug. -/
structure AsciiTables (u : UnicodeTables) : Prop where
  lower : ∀ s : String, (∀ c ∈ s.toList, alnum c = true ∨ c = '-') → u.lower s = s
  isAlnum : ∀ c, alnum c = true → u.isAlnum c = true

/-- A valid slug is its own slug. -/
theorem slugify_of_words {u : UnicodeTables} (hascii : AsciiTables u) {s : String} (h : Words (text s))
    (hlen : (text s).length ≤ 63) : slugify u s = s := by
  have hchars : ∀ c ∈ s.toList, alnum c = true ∨ c = '-' := by
    intro c hc
    obtain hslug | hhyphen := Bool.or_eq_true_iff.1 (h.chars (codePoint c) (List.mem_map_of_mem hc))
    · exact .inl hslug
    · exact .inr (JsonSchema.codePoint_injective (of_decide_eq_true hhyphen))
  have hplain : ∀ c ∈ s.toList, separator c = false := by
    intro c hc
    obtain h | rfl := hchars c hc
    · exact not_separator h
    · decide
  have hspace : ∀ c ∈ s.toList, isSpace c = false := fun c hc => (Bool.or_eq_false_iff.1 (hplain c hc)).1
  have hstrip : strip s.toList = s.toList :=
    trim_of_trimmed ⟨fun c hc => hspace c (List.mem_of_mem_head? hc),
      fun c hc => hspace c (List.mem_of_getLast? hc)⟩
  have hkept : kept u s = s.toList := by
    unfold kept
    rw [hascii.lower s hchars, hstrip, List.filter_eq_self]
    intro c hc
    unfold inSlug UnicodeTables.isWord
    obtain h | rfl := hchars c hc
    · rw [hascii.isAlnum c h]
      rfl
    · simp
  have hspelled : spelled s.toList = s.toList := by
    have hsame := collapse_append '-' hplain []
    rwa [List.append_nil, show collapse separator '-' false [] = [] from rfl, List.append_nil] at hsame
  rw [slugify_eq, hkept, hspelled, List.take_of_length_le, String.ofList_toList]
  rwa [text, List.length_map] at hlen

/-- Two names with the same slug, which is safe in a URL. -/
def SharedForm (u : UnicodeTables) (name other : String) : Prop :=
  ∃ form, form ≠ "" ∧ isValidSlug (text form) = true ∧ slugify u name = form ∧ slugify u other = form

/-- The slug that `register_user` stores for a name is valid and stable, and a
name is refused as taken only for one that it shares a form with. -/
structure WellSlugged (ctx : Context) (name : String) : Prop where
  valid : ∀ id, isValidSlug (text (newOrganization ctx name id).slug) = true
  stable : ∀ id, slugify ctx.unicode (newOrganization ctx name id).slug = (newOrganization ctx name id).slug
  shared : ∀ email password fullName ip tables,
    (∀ org ∈ tables.organizations.rows, org.slug = (newOrganization ctx org.name org.id).slug) →
    usersOf email tables = [] →
    (registerContract ctx email password fullName name ip tables).guard = some (organizationTaken name) →
      ∃ org ∈ tables.organizations.rows, SharedForm ctx.unicode name org.name

theorem organizations_of_guard {ctx : Context} {email password fullName name : String} {ip : Option String}
    {tables : Tables} (husers : usersOf email tables = [])
    (h : (registerContract ctx email password fullName name ip tables).guard = some (organizationTaken name)) :
    ∃ org ∈ tables.organizations.rows, org.slug = slugify ctx.unicode name := by
  cases horgs : organizationsOf (slugify ctx.unicode name) tables with
  | nil => simp [registerContract, husers, horgs] at h
  | cons org orgs =>
    have hmem : org ∈ organizationsOf (slugify ctx.unicode name) tables := horgs ▸ List.mem_cons_self
    obtain ⟨hrow, hslug⟩ := List.mem_filter.1 hmem
    exact ⟨org, hrow, of_decide_eq_true hslug⟩

/-- The names whose slugs are valid and stable are those that can be slugged. -/
theorem wellSlugged_iff (ctx : Context) (name : String) (hascii : AsciiTables ctx.unicode) :
    WellSlugged ctx name ↔ Sluggable ctx.unicode name := by
  rw [← isValidSlug_slugify_iff]
  constructor
  · intro h
    exact h.valid 0
  · intro hvalid
    have hwords := (words_slugify_iff ctx.unicode name).2 ((isValidSlug_slugify_iff ctx.unicode name).1 hvalid)
    refine ⟨fun _ => hvalid, ?_, ?_⟩
    · intro id
      exact slugify_of_words hascii hwords (length_text_slugify ctx.unicode name)
    · intro email password fullName ip tables hstored husers hguard
      obtain ⟨org, hrow, hslug⟩ := organizations_of_guard husers hguard
      refine ⟨org, hrow, slugify ctx.unicode name, ?_, hvalid, rfl, (hstored org hrow).symm.trans hslug⟩
      intro hempty
      obtain ⟨c, r, htext, -⟩ := hwords.head
      rw [hempty] at htext
      cases htext

theorem toLower_of_slug {c : Char} (h : alnum c = true ∨ c = '-') : c.toLower = c := by
  obtain h | rfl := h
  · have hrange := alnum_iff.1 h
    have hlower : ¬ (c.val ≥ 'A'.val ∧ c.val ≤ 'Z'.val) := by
      rintro ⟨hge, hle⟩
      have hA : 65 ≤ c.toNat := UInt32.le_iff_toNat_le.1 hge
      have hZ : c.toNat ≤ 90 := UInt32.le_iff_toNat_le.1 hle
      omega
    exact dif_neg hlower
  · decide

theorem ascii_sampleContext : AsciiTables sampleContext.unicode where
  lower := by
    intro s hs
    have hsame : s.toList.map Char.toLower = s.toList.map id :=
      List.map_congr_left fun c hc => toLower_of_slug (hs c hc)
    show String.ofList (s.toList.map Char.toLower) = s
    rw [hsame, List.map_id, String.ofList_toList]
  isAlnum := by
    intro c hc
    show (c.isUpper || c.isLower || c.isDigit) = true
    obtain ⟨ha, hz⟩ | ⟨hzero, hnine⟩ := alnum_iff.1 hc
    · have hlower : c.isLower = true :=
        Bool.and_eq_true_iff.2 ⟨decide_eq_true (UInt32.le_iff_toNat_le.2 ha),
          decide_eq_true (UInt32.le_iff_toNat_le.2 hz)⟩
      rw [hlower, Bool.or_true, Bool.true_or]
    · have hdigit : c.isDigit = true :=
        Bool.and_eq_true_iff.2 ⟨decide_eq_true (UInt32.le_iff_toNat_le.2 hzero),
          decide_eq_true (UInt32.le_iff_toNat_le.2 hnine)⟩
      rw [hdigit, Bool.or_true]

theorem underscore_run_slugged : AsciiTables sampleContext.unicode ∧ WellSlugged sampleContext "Q_ 1" :=
  ⟨ascii_sampleContext, (wellSlugged_iff sampleContext "Q_ 1" ascii_sampleContext).2
    ⟨['q', '_', ' ', '1'], [], 3, by decide +kernel,
      @Joined.gap 'q' '_' [' '] ['1'] 1 (by decide) (List.all_eq_true.1 (by decide))
        (.last (by decide)), .inl ⟨rfl, by decide⟩⟩⟩

/-- A hyphen between two blanks becomes three, and of punctuation nothing is left. -/
theorem hyphens_spelled_thrice :
    slugify sampleContext.unicode "Acme - Labs" = "acme---labs" ∧ ¬ WellSlugged sampleContext "Acme - Labs" ∧
      slugify sampleContext.unicode "!!!" = "" ∧ slugify sampleContext.unicode "???" = "" ∧
      ¬ SharedForm sampleContext.unicode "!!!" "???" := by
  have hacme : slugify sampleContext.unicode "Acme - Labs" = "acme---labs" := by decide +kernel
  have hbang : slugify sampleContext.unicode "!!!" = "" := by decide +kernel
  refine ⟨hacme, ?_, hbang, by decide +kernel, ?_⟩
  · intro h
    have hvalid := h.valid 0
    rw [show (newOrganization sampleContext "Acme - Labs" 0).slug = "acme---labs" from hacme] at hvalid
    revert hvalid
    decide +kernel
  · rintro ⟨form, hne, -, hform, -⟩
    exact hne (hform.symm.trans hbang)

end EvalEngine.OrganizationSlugs
