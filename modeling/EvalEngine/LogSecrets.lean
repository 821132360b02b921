import EvalEngine.LogMasking

namespace EvalEngine.LogSecrets

open EvalEngine.PythonValues EvalEngine.RegularExpressions EvalEngine.GroupSubstitution EvalEngine.SanitizedText
open EvalEngine.LogMasking

structure Credential (c : Text) : Prop where
  nonempty : c ≠ []
  chars : ∀ d ∈ c, notSpace d = true

/-- A credential ends here: at a blank or at the end of the text. -/
def Ends (t : Text) : Prop := ∀ d ∈ t.head?, notSpace d = false

/-- A text with a marker in it, and what follows the marker. -/
def marked (front behind : Text) : Text := front ++ (bearer ++ space :: behind)

/-- Texts that differ only in credentials behind a marker. -/
inductive SameText : Text → Text → Prop
  | refl (s : Text) : SameText s s
  | credential {front c c' t t' : Text} : Credential c → Credential c' → Ends t → Ends t' → SameText t t' →
      SameText (marked front (c ++ t)) (marked front (c' ++ t'))

def HasCredential (s : Text) : Prop :=
  ∃ front behind, s = marked front behind ∧ ∃ d ∈ behind.head?, notSpace d = true

/-- No match of the pattern takes up a marker with a credential unless it begins with it. -/
def Covered (s : Text) : Prop :=
  ∀ front behind, s = marked front behind → (∃ d ∈ behind.head?, notSpace d = true) →
    Reaches tokenPrefix notSpace front (bearer ++ space :: behind)

/-- The last two characters are behind every credential. -/
def Shielded (s : Text) : Prop :=
  ∀ front c t, s = marked front (c ++ t) → Credential c → Ends t → 2 ≤ t.length

variable {s s' front c t : Text}

theorem exists_credential {behind : Text} (h : ∃ d ∈ behind.head?, notSpace d = true) :
    ∃ c t, behind = c ++ t ∧ Credential c ∧ Ends t := by
  obtain ⟨d, hhead, hd⟩ := h
  obtain ⟨behind, rfl⟩ : ∃ rest, behind = d :: rest := List.head?_eq_some_iff.1 hhead
  refine ⟨d :: behind.takeWhile notSpace, behind.dropWhile notSpace, by simp, ⟨List.cons_ne_nil _ _, ?_⟩,
    head_dropWhile behind⟩
  exact List.forall_mem_cons.2 ⟨hd, fun e he => List.mem_takeWhile_imp he⟩

theorem Credential.head (h : Credential c) (t : Text) : ∃ d ∈ (c ++ t).head?, notSpace d = true := by
  obtain ⟨d, c, rfl⟩ := List.exists_cons_of_ne_nil h.nonempty
  exact ⟨d, rfl, h.chars d List.mem_cons_self⟩

theorem SameText.replace {c' : Text} (hc : Credential c) (hc' : Credential c') (ht : Ends t) :
    SameText (marked front (c ++ t)) (marked front (c' ++ t)) :=
  .credential hc hc' ht ht (.refl t)

theorem marked_inj {behind behind' : Text} (h : marked front behind = marked front behind') : behind = behind' :=
  (List.cons.inj (List.append_cancel_left (List.append_cancel_left h))).2

theorem marked_append (front c t : Text) : marked front (c ++ t) = (front ++ (bearer ++ space :: c)) ++ t := by
  simp [marked]

/-- Letters that no core begins with. -/
def letterX : CodePoint := codePoint 'x'

def letterY : CodePoint := codePoint 'y'

def credentialX : Text := [letterX, letterX]

def credentialY : Text := [letterY, letterY]

theorem credential_letters : Credential credentialX ∧ Credential credentialY :=
  ⟨⟨by decide, List.all_eq_true.1 (by decide)⟩, ⟨by decide, List.all_eq_true.1 (by decide)⟩⟩

/-- At a marker the pattern matches, with the credential as the run. -/
theorem splits_marker (hc : Credential c) (ht : Ends t) :
    Splits tokenPrefix notSpace (bearer ++ space :: (c ++ t)) (bearer ++ [space]) c t :=
  ⟨by simp, bearer_group, hc.nonempty, hc.chars, ht⟩

theorem redact_marker (hc : Credential c) (ht : Ends t) :
    redact (bearer ++ space :: (c ++ t)) = bearer ++ [space] ++ redacted ++ redact t :=
  sub_of_splits determined_tokenPrefix (splits_marker hc ht)

/-- A scan of what follows the first credential comes to the markers in it. -/
theorem Covered.tail (h : Covered (marked front (c ++ t))) (hc : Credential c) (ht : Ends t) : Covered t := by
  rintro front' behind rfl hhead
  have hfirst := h front _ rfl (hc.head _)
  have hwhole := h (front ++ ((bearer ++ [space]) ++ (c ++ front'))) behind (by simp [marked]) hhead
  have hbehind := Reaches.suffix determined_tokenPrefix (by simpa [marked] using hfirst) hwhole
  have hsplits := splits_marker hc ht
  obtain ⟨front'', hfront, -, hreaches⟩ := hbehind.jumped determined_tokenPrefix (by simp)
    (by simpa [marked] using hsplits)
  obtain rfl := List.append_cancel_left (List.append_cancel_left hfront)
  exact hreaches

theorem redact_before_marker (front : Text) : ∃ out,
    ((∀ behind, Reaches tokenPrefix notSpace front (bearer ++ space :: behind)) ∧
      ∀ behind, redact (marked front behind) = out ++ redact (bearer ++ space :: behind)) ∨
    (∀ behind, ¬ Reaches tokenPrefix notSpace front (bearer ++ space :: behind)) ∧
      ∀ behind, redact (marked front behind) = out ++ redact (space :: behind) :=
  sub_before_marker determined_tokenPrefix marker_bearer front

theorem redact_of_same (h : SameText s s') (hs : Covered s) : redact s = redact s' := by
  induction h with
  | refl => rfl
  | @credential front c c' t t' hc hc' ht ht' _ ih =>
    have hreaches := hs front _ rfl (hc.head t)
    obtain ⟨out, ⟨-, hout⟩ | ⟨hnot, -⟩⟩ := redact_before_marker front
    · rw [hout, hout, redact_marker hc ht, redact_marker hc' ht', ih (hs.tail hc ht)]
    · exact absurd hreaches (hnot _)

/-- A match begins with the first letter of a core. -/
theorem first_of_matchesAt {d : CodePoint} {cs : Text} (h : MatchesAt tokenPrefix notSpace (d :: cs)) :
    ∃ ks ∈ cores, ∃ k ∈ ks.head?, oneOf k d = true := by
  obtain ⟨g, run, rest, hsplits⟩ := h
  obtain ⟨core, blanks, rfl, -, ks, hks, hcore⟩ := core_of_group hsplits.group
  cases hcore with
  | nil => exact absurd rfl (core_ne_nil hks .nil)
  | @cons k e ks core hone _ =>
    obtain ⟨rfl, -⟩ := List.cons.inj hsplits.text
    exact ⟨k :: ks, hks, k, rfl, hone⟩

theorem redact_letter {d : CodePoint} (hd : ∀ ks ∈ cores, ∀ k ∈ ks.head?, oneOf k d = false) (cs : Text) :
    redact (d :: cs) = d :: redact cs := by
  apply sub_of_not_matchesAt determined_tokenPrefix
  intro h
  obtain ⟨ks, hks, k, hk, hone⟩ := first_of_matchesAt h
  rw [hd ks hks k hk] at hone
  cases hone

theorem first_letters : ∀ ks ∈ cores, ∀ k ∈ ks.head?,
    oneOf k space = false ∧ oneOf k letterX = false ∧ oneOf k letterY = false := by decide

theorem exists_unequal_redact (h : ¬ Covered s) : ∃ s', SameText s s' ∧ redact s ≠ redact s' := by
  unfold Covered at h
  push Not at h
  obtain ⟨front, behind, rfl, hhead, hnot⟩ := h
  obtain ⟨c, t, rfl, hc, ht⟩ := exists_credential hhead
  obtain ⟨out, ⟨hreach, -⟩ | ⟨-, hout⟩⟩ := redact_before_marker front
  · exact absurd (hreach _) hnot
  have hspace : ∀ cs, redact (space :: cs) = space :: redact cs :=
    redact_letter fun ks hks k hk => (first_letters ks hks k hk).1
  have hletterX : ∀ cs, redact (letterX :: cs) = letterX :: redact cs :=
    redact_letter fun ks hks k hk => (first_letters ks hks k hk).2.1
  have hletterY : ∀ cs, redact (letterY :: cs) = letterY :: redact cs :=
    redact_letter fun ks hks k hk => (first_letters ks hks k hk).2.2
  have hx : redact (marked front (credentialX ++ t)) = out ++ space :: letterX :: letterX :: redact t := by
    rw [hout, hspace, credentialX, List.cons_append, List.singleton_append, hletterX, hletterX]
  have hy : redact (marked front (credentialY ++ t)) = out ++ space :: letterY :: letterY :: redact t := by
    rw [hout, hspace, credentialY, List.cons_append, List.singleton_append, hletterY, hletterY]
  by_cases hsame : redact (marked front (c ++ t)) = redact (marked front (credentialX ++ t))
  · refine ⟨_, .replace hc credential_letters.2 ht, ?_⟩
    rw [hsame, hx, hy]
    intro heq
    have hletters := List.append_cancel_left heq
    exact absurd (List.cons.inj (List.cons.inj hletters).2).1 (by decide)
  · exact ⟨_, .replace hc credential_letters.1 ht, hsame⟩

def lastTwo (s : Text) : Text := s.drop (s.length - 2)

theorem maskValue_long (h : 6 < s.length) : maskValue s = s.take 2 ++ text "***" ++ lastTwo s := by
  unfold maskValue
  rw [if_neg (by omega)]
  rfl

theorem length_marked (front behind : Text) : (marked front behind).length = front.length + (7 + behind.length) := by
  have hbearer : bearer.length = 6 := rfl
  unfold marked
  rw [List.length_append, List.length_append, List.length_cons, hbearer]
  omega

theorem lastTwo_append (front : Text) (ht : 2 ≤ t.length) : lastTwo (front ++ t) = lastTwo t := by
  unfold lastTwo
  rw [List.length_append, Nat.add_sub_assoc ht, List.drop_length_add_append]

theorem lastTwo_marked {behind : Text} (h : 2 ≤ behind.length) : lastTwo (marked front behind) = lastTwo behind := by
  have hsplit : marked front behind = (front ++ (bearer ++ [space])) ++ behind := by simp [marked]
  rw [hsplit, lastTwo_append _ h]

theorem length_lastTwo (h : 2 ≤ s.length) : (lastTwo s).length = 2 := by
  unfold lastTwo
  rw [List.length_drop]
  omega

theorem SameText.long (h : SameText s s') (hs : 6 < s.length) : 6 < s'.length ∧ s.take 2 = s'.take 2 := by
  cases h with
  | refl => exact ⟨hs, rfl⟩
  | @credential front c c' t t' _ _ _ _ _ =>
    constructor
    · rw [length_marked]
      omega
    · have htake : ∀ behind, (marked front behind).take 2 = (front ++ bearer).take 2 := by
        intro behind
        have hbearer : bearer.length = 6 := rfl
        unfold marked
        rw [← List.append_assoc, List.take_append_of_le_length (by rw [List.length_append, hbearer]; omega)]
      rw [htake, htake]

theorem SameText.two_le (h : SameText s s') (hs : 2 ≤ s.length) : 2 ≤ s'.length := by
  cases h with
  | refl => exact hs
  | credential =>
    rw [length_marked]
    omega

theorem Shielded.tail (h : Shielded (marked front (c ++ t))) : Shielded t := by
  rintro front' c' t' rfl hc' ht'
  exact h (front ++ ((bearer ++ [space]) ++ (c ++ front'))) c' t' (by simp [marked]) hc' ht'

theorem SameText.same_end (h : SameText s s') (hs : Shielded s) : lastTwo s = lastTwo s' := by
  induction h with
  | refl => rfl
  | @credential front c c' t t' hc hc' ht ht' hsame ih =>
    have htwo := hs front c t rfl hc ht
    rw [marked_append, marked_append, lastTwo_append _ htwo, lastTwo_append _ (hsame.two_le htwo), ih hs.tail]

theorem maskValue_of_same (h : SameText s s') (hlong : 6 < s.length) (hs : Shielded s) : maskValue s = maskValue s' := by
  obtain ⟨hlong', htake⟩ := h.long hlong
  rw [maskValue_long hlong, maskValue_long hlong', htake, h.same_end hs]

theorem maskValue_maskValue_iff (s : Text) : maskValue (maskValue s) = maskValue s ↔ 6 < s.length := by
  by_cases hlong : 6 < s.length
  · refine iff_of_true ?_ hlong
    rw [maskValue_long hlong]
    obtain ⟨a, b, hfirst⟩ : ∃ a b, s.take 2 = [a, b] :=
      List.length_eq_two.1 (by rw [List.length_take]; omega)
    obtain ⟨d, e, hlast⟩ : ∃ d e, lastTwo s = [d, e] := List.length_eq_two.1 (length_lastTwo (by omega))
    rw [hfirst, hlast]
    rfl
  · refine iff_of_false ?_ hlong
    have hshort : maskValue s = redacted := if_pos (by omega)
    rw [hshort]
    decide

theorem exists_unequal_maskValue (hlong : 6 < s.length) (h : ¬ Shielded s) :
    ∃ s', SameText s s' ∧ maskValue s ≠ maskValue s' := by
  unfold Shielded at h
  push Not at h
  obtain ⟨front, c, t, rfl, hc, ht, hshort⟩ := h
  have hne : maskValue (marked front (credentialX ++ t)) ≠ maskValue (marked front (credentialY ++ t)) := by
    intro heq
    have hbehind : 2 ≤ (credentialX ++ t).length ∧ 2 ≤ (credentialY ++ t).length := by
      simp [credentialX, credentialY]
    have hlongX : 6 < (marked front (credentialX ++ t)).length := by
      rw [length_marked]
      omega
    have hlongY : 6 < (marked front (credentialY ++ t)).length := by
      rw [length_marked]
      omega
    rw [maskValue_long hlongX, maskValue_long hlongY] at heq
    have hlast := List.append_inj_right' heq
      ((length_lastTwo (by omega)).trans (length_lastTwo (by omega)).symm)
    rw [lastTwo_marked hbehind.1, lastTwo_marked hbehind.2] at hlast
    cases t with
    | nil => exact absurd hlast (by decide)
    | cons d t =>
      cases t with
      | nil => exact absurd (List.cons.inj hlast).1 (by decide)
      | cons e t =>
        simp only [List.length_cons] at hshort
        omega
  by_cases hsame : maskValue (marked front (c ++ t)) = maskValue (marked front (credentialX ++ t))
  · exact ⟨_, .replace hc credential_letters.2 ht, hsame ▸ hne⟩
  · exact ⟨_, .replace hc credential_letters.1 ht, hsame⟩

section Values

variable {F : Type} (lower : Text → Text)

/-- A key of a dict inside of the event. -/
def sensitiveKey : Value F → Prop
  | .str key => lower key ∈ sensitiveFields
  | _ => False

mutual

/-- Values that differ only under sensitive keys and in credentials behind a marker. -/
inductive SameValue : Value F → Value F → Prop
  | refl (v : Value F) : SameValue v v
  | str {s s' : Text} : SameText s s' → SameValue (.str s) (.str s')
  | list {xs ys : List (Value F)} : SameItems xs ys → SameValue (.list xs) (.list ys)
  | tuple {xs ys : List (Value F)} : SameItems xs ys → SameValue (.tuple xs) (.tuple ys)
  | dict {es gs : List (Value F × Value F)} : SameEntries es gs → SameValue (.dict es) (.dict gs)

inductive SameItems : List (Value F) → List (Value F) → Prop
  | nil : SameItems [] []
  | cons {x y : Value F} {xs ys : List (Value F)} : SameValue x y → SameItems xs ys → SameItems (x :: xs) (y :: ys)

inductive SameEntries : List (Value F × Value F) → List (Value F × Value F) → Prop
  | nil : SameEntries [] []
  | plain {k v w : Value F} {es gs : List (Value F × Value F)} : SameValue v w → SameEntries es gs →
      SameEntries ((k, v) :: es) ((k, w) :: gs)
  | sensitive {k : Value F} (v w : Value F) {es gs : List (Value F × Value F)} : sensitiveKey lower k →
      SameEntries es gs → SameEntries ((k, v) :: es) ((k, w) :: gs)

end

mutual

/-- Values without a credential in them. -/
def Clean : Value F → Prop
  | .str s => ¬ HasCredential s
  | .list xs | .tuple xs => cleanItems xs
  | .dict es => cleanEntries es
  | .none | .bool _ | .int _ | .float _ | .object _ => True

def cleanItems : List (Value F) → Prop
  | [] => True
  | x :: xs => Clean x ∧ cleanItems xs

def cleanEntries : List (Value F × Value F) → Prop
  | [] => True
  | (k, v) :: es => ¬ sensitiveKey lower k ∧ Clean v ∧ cleanEntries es

end

variable {lower}

theorem eq_of_sameText (h : SameText s s') (hs : ¬ HasCredential s) : s = s' := by
  cases h with
  | refl => rfl
  | @credential front c c' t t' hc _ _ _ _ => exact absurd ⟨front, c ++ t, rfl, hc.head t⟩ hs

mutual

theorem SameValue.eq : ∀ {v w : Value F}, SameValue lower v w → Clean lower v → v = w
  | _, _, .refl _, _ => rfl
  | _, _, .str h, hv => congrArg Value.str (eq_of_sameText h hv)
  | _, _, .list h, hv => congrArg Value.list (SameItems.eq h hv)
  | _, _, .tuple h, hv => congrArg Value.tuple (SameItems.eq h hv)
  | _, _, .dict h, hv => congrArg Value.dict (SameEntries.eq h hv)

theorem SameItems.eq : ∀ {xs ys : List (Value F)}, SameItems lower xs ys → cleanItems lower xs → xs = ys
  | _, _, .nil, _ => rfl
  | _, _, .cons h hs, hxs => by rw [SameValue.eq h hxs.1, SameItems.eq hs hxs.2]

theorem SameEntries.eq : ∀ {es gs : List (Value F × Value F)}, SameEntries lower es gs → cleanEntries lower es →
    es = gs
  | _, _, .nil, _ => rfl
  | _, _, .plain h hs, hes => by rw [SameValue.eq h hes.2.1, SameEntries.eq hs hes.2.2]
  | _, _, .sensitive _ _ hk _, hes => absurd hk hes.1

end

theorem exists_other_text (h : HasCredential s) : ∃ s', SameText s s' ∧ s ≠ s' := by
  obtain ⟨front, behind, rfl, hhead⟩ := h
  obtain ⟨c, t, rfl, hc, ht⟩ := exists_credential hhead
  by_cases hsame : c = credentialX
  · refine ⟨_, .replace hc credential_letters.2 ht, ?_⟩
    intro heq
    have hletters := List.append_cancel_right (marked_inj heq)
    exact absurd (hsame.symm.trans hletters) (by decide)
  · refine ⟨_, .replace hc credential_letters.1 ht, ?_⟩
    intro heq
    exact hsame (List.append_cancel_right (marked_inj heq))

theorem SameItems.refl : ∀ xs : List (Value F), SameItems lower xs xs
  | [] => .nil
  | x :: xs => .cons (.refl x) (SameItems.refl xs)

theorem SameEntries.refl : ∀ es : List (Value F × Value F), SameEntries lower es es
  | [] => .nil
  | (_, v) :: es => .plain (.refl v) (SameEntries.refl es)

theorem exists_ne_value (v : Value F) : ∃ w, v ≠ w := by
  by_cases hv : v = .none
  · exact ⟨.bool true, by rw [hv]; exact fun h => nomatch h⟩
  · exact ⟨.none, hv⟩

mutual

/-- A value that is not clean could be another one. -/
theorem exists_other : ∀ {v : Value F}, ¬ Clean lower v → ∃ w, SameValue lower v w ∧ v ≠ w
  | .str s, h => by
    obtain ⟨s', hsame, hne⟩ := exists_other_text (not_not.1 h)
    exact ⟨.str s', .str hsame, fun heq => hne (Value.str.inj heq)⟩
  | .list xs, h => by
    obtain ⟨ys, hsame, hne⟩ := exists_other_items h
    exact ⟨.list ys, .list hsame, fun heq => hne (Value.list.inj heq)⟩
  | .tuple xs, h => by
    obtain ⟨ys, hsame, hne⟩ := exists_other_items h
    exact ⟨.tuple ys, .tuple hsame, fun heq => hne (Value.tuple.inj heq)⟩
  | .dict es, h => by
    obtain ⟨gs, hsame, hne⟩ := exists_other_entries h
    exact ⟨.dict gs, .dict hsame, fun heq => hne (Value.dict.inj heq)⟩
  | .none, h | .bool _, h | .int _, h | .float _, h | .object _, h => absurd trivial h

theorem exists_other_items : ∀ {xs : List (Value F)}, ¬ cleanItems lower xs → ∃ ys, SameItems lower xs ys ∧ xs ≠ ys
  | [], h => absurd trivial h
  | x :: xs, h => by
    by_cases hx : Clean lower x
    · obtain ⟨ys, hsame, hne⟩ := exists_other_items fun hxs => h ⟨hx, hxs⟩
      exact ⟨x :: ys, .cons (.refl x) hsame, fun heq => hne (List.cons.inj heq).2⟩
    · obtain ⟨y, hsame, hne⟩ := exists_other hx
      exact ⟨y :: xs, .cons hsame (.refl xs), fun heq => hne (List.cons.inj heq).1⟩

theorem exists_other_entries : ∀ {es : List (Value F × Value F)}, ¬ cleanEntries lower es →
    ∃ gs, SameEntries lower es gs ∧ es ≠ gs
  | [], h => absurd trivial h
  | (k, v) :: es, h => by
    by_cases hk : sensitiveKey lower k
    · obtain ⟨w, hne⟩ := exists_ne_value v
      exact ⟨(k, w) :: es, .sensitive v w hk (.refl es), fun heq => hne (Prod.mk.inj (List.cons.inj heq).1).2⟩
    · by_cases hv : Clean lower v
      · obtain ⟨gs, hsame, hne⟩ := exists_other_entries fun hes => h ⟨hk, hv, hes⟩
        exact ⟨(k, v) :: gs, .plain (.refl v) hsame, fun heq => hne (List.cons.inj heq).2⟩
      · obtain ⟨w, hsame, hne⟩ := exists_other hv
        exact ⟨(k, w) :: es, .plain hsame (.refl es), fun heq => hne (Prod.mk.inj (List.cons.inj heq).1).2⟩

end

variable {key : Text} {v : Value F}

theorem maskField_sensitive (h : lower key ∈ sensitiveFields) (v : Value F) :
    maskField lower key v = .str redacted := if_pos h

theorem maskField_pii (h : lower key ∉ sensitiveFields) (hpii : lower key ∈ piiFields) (s : Text) :
    maskField lower key (.str s : Value F) = .str (maskValue s) := by
  dsimp only [maskField]
  rw [if_neg h, if_pos hpii]

theorem maskField_str (h : lower key ∉ sensitiveFields) (hpii : lower key ∉ piiFields) (s : Text) :
    maskField lower key (.str s : Value F) = .str (redact s) := by
  dsimp only [maskField]
  rw [if_neg h, if_neg hpii]
  split
  · rfl
  · next htoken => rw [redact_of_not_hasToken (Bool.eq_false_iff.2 htoken)]

theorem maskField_other (h : lower key ∉ sensitiveFields) (hv : ∀ s, v ≠ .str s) : maskField lower key v = v := by
  dsimp only [maskField]
  rw [if_neg h]
  split
  · next s => exact absurd rfl (hv s)
  · rfl

theorem SameValue.not_str {w : Value F} (h : SameValue lower v w) (hv : ∀ s, v ≠ .str s) : ∀ s, w ≠ .str s := by
  rintro s rfl
  cases h with
  | refl => exact hv s rfl
  | str => exact hv _ rfl

variable (lower)

/-- A field shows nothing of what may differ in its value, and masking it again
changes nothing. -/
structure MasksField (key : Text) (v : Value F) : Prop where
  quiet : ∀ w, lower key ∈ sensitiveFields ∨ SameValue lower v w → maskField lower key v = maskField lower key w
  stable : maskField lower key (maskField lower key v) = maskField lower key v

/-- The fields that are masked as they should be: a text under a key for personal
data is longer than six characters and ends with at least two characters behind
every credential, in another text no match passes over a marker, and other
values are clean. -/
def SafeField (key : Text) (v : Value F) : Prop :=
  lower key ∈ sensitiveFields ∨
    match v with
    | .str s => (lower key ∈ piiFields → 6 < s.length ∧ Shielded s) ∧ (lower key ∉ piiFields → Covered s)
    | other => Clean lower other

variable {lower}

theorem masksField_sensitive (h : lower key ∈ sensitiveFields) (v : Value F) : MasksField lower key v where
  quiet w _ := by rw [maskField_sensitive h, maskField_sensitive h]
  stable := by rw [maskField_sensitive h, maskField_sensitive h]

theorem masksField_str_iff (h : lower key ∉ sensitiveFields) (hpii : lower key ∉ piiFields) (s : Text) :
    MasksField lower key (.str s : Value F) ↔ Covered s := by
  constructor
  · intro hfield
    by_contra hnot
    obtain ⟨s', hsame, hne⟩ := exists_unequal_redact hnot
    have hquiet := hfield.quiet (.str s') (.inr (.str hsame))
    rw [maskField_str h hpii, maskField_str h hpii] at hquiet
    exact hne (Value.str.inj hquiet)
  · intro hs
    constructor
    · rintro w (hkey | hsame)
      · exact absurd hkey h
      · cases hsame with
        | refl => rfl
        | str hsame => rw [maskField_str h hpii, maskField_str h hpii, redact_of_same hsame hs]
    · rw [maskField_str h hpii, maskField_str h hpii, redact_redact]

theorem masksField_pii_iff (h : lower key ∉ sensitiveFields) (hpii : lower key ∈ piiFields) (s : Text) :
    MasksField lower key (.str s : Value F) ↔ 6 < s.length ∧ Shielded s := by
  constructor
  · intro hfield
    have hstable := hfield.stable
    rw [maskField_pii h hpii, maskField_pii h hpii] at hstable
    have hlong := (maskValue_maskValue_iff s).1 (Value.str.inj hstable)
    refine ⟨hlong, ?_⟩
    by_contra hnot
    obtain ⟨s', hsame, hne⟩ := exists_unequal_maskValue hlong hnot
    have hquiet := hfield.quiet (.str s') (.inr (.str hsame))
    rw [maskField_pii h hpii, maskField_pii h hpii] at hquiet
    exact hne (Value.str.inj hquiet)
  · rintro ⟨hlong, hs⟩
    constructor
    · rintro w (hkey | hsame)
      · exact absurd hkey h
      · cases hsame with
        | refl => rfl
        | str hsame => rw [maskField_pii h hpii, maskField_pii h hpii, maskValue_of_same hsame hlong hs]
    · rw [maskField_pii h hpii, maskField_pii h hpii, (maskValue_maskValue_iff s).2 hlong]

theorem masksField_other_iff (h : lower key ∉ sensitiveFields) (hv : ∀ s, v ≠ .str s) :
    MasksField lower key v ↔ Clean lower v := by
  constructor
  · intro hfield
    by_contra hnot
    obtain ⟨w, hsame, hne⟩ := exists_other hnot
    have hquiet := hfield.quiet w (.inr hsame)
    rw [maskField_other h hv, maskField_other h (hsame.not_str hv)] at hquiet
    exact hne hquiet
  · intro hclean
    constructor
    · rintro w (hkey | hsame)
      · exact absurd hkey h
      · rw [hsame.eq hclean]
    · rw [maskField_other h hv, maskField_other h hv]

theorem masksField_iff (key : Text) (v : Value F) : MasksField lower key v ↔ SafeField lower key v := by
  by_cases h : lower key ∈ sensitiveFields
  · exact iff_of_true (masksField_sensitive h v) (.inl h)
  · unfold SafeField
    rw [or_iff_right h]
    split
    · next s =>
      by_cases hpii : lower key ∈ piiFields
      · rw [masksField_pii_iff h hpii s]
        simp only [hpii, true_implies, not_true, false_implies, and_true]
      · rw [masksField_str_iff h hpii s]
        simp only [hpii, false_implies, not_false_eq_true, true_implies, true_and]
    · next hv => exact masksField_other_iff h hv

variable (lower)

/-- Event dicts with the same keys, whose values may differ in what is to be hidden. -/
def SameEvents (d d' : List (Text × Value F)) : Prop :=
  List.Forall₂ (fun e e' => e.1 = e'.1 ∧ (lower e.1 ∈ sensitiveFields ∨ SameValue lower e.2 e'.2)) d d'

/-- The masked event tells nothing of the secrets in it, and masking it again
changes nothing. -/
structure Masks (d : List (Text × Value F)) : Prop where
  quiet : ∀ d', SameEvents lower d d' → sensitiveFieldMasker lower d = sensitiveFieldMasker lower d'
  stable : sensitiveFieldMasker lower (sensitiveFieldMasker lower d) = sensitiveFieldMasker lower d

variable {lower}

theorem sameEvents_refl (d : List (Text × Value F)) : SameEvents lower d d :=
  List.forall₂_same.2 fun e _ => ⟨rfl, .inr (.refl e.2)⟩

theorem masks_iff_fields (d : List (Text × Value F)) :
    Masks lower d ↔ ∀ e ∈ d, MasksField lower e.1 e.2 := by
  constructor
  · intro h e he
    constructor
    · intro w hw
      obtain ⟨front, back, rfl⟩ := List.append_of_mem he
      have hsame : SameEvents lower (front ++ e :: back) (front ++ (e.1, w) :: back) :=
        List.rel_append (sameEvents_refl front) (.cons ⟨rfl, hw⟩ (sameEvents_refl back))
      have hquiet := h.quiet _ hsame
      unfold sensitiveFieldMasker at hquiet
      rw [List.map_append, List.map_append] at hquiet
      exact (Prod.mk.inj (List.cons.inj (List.append_cancel_left hquiet)).1).2
    · have hstable := h.stable
      unfold sensitiveFieldMasker at hstable
      rw [List.map_map] at hstable
      exact (Prod.mk.inj (List.map_inj_left.1 hstable e he)).2
  · intro h
    constructor
    · intro d' hsame
      unfold sensitiveFieldMasker
      induction hsame with
      | nil => rfl
      | @cons e e' d d' he _ ih =>
        obtain ⟨hfield, hd⟩ := List.forall_mem_cons.1 h
        rw [List.map_cons, List.map_cons, ih hd, ← he.1, hfield.quiet e'.2 he.2]
    · unfold sensitiveFieldMasker
      rw [List.map_map]
      apply List.map_congr_left
      intro e he
      exact congrArg (Prod.mk e.1) (h e he).stable

/-- An event is masked as it should be exactly when each of its fields is safe. -/
theorem masks_iff (lower : Text → Text) (d : List (Text × Value F)) :
    Masks lower d ↔ ∀ e ∈ d, SafeField lower e.1 e.2 := by
  rw [masks_iff_fields]
  constructor
  · intro h e he
    exact (masksField_iff e.1 e.2).1 (h e he)
  · intro h e he
    exact (masksField_iff e.1 e.2).2 (h e he)

end Values

section Sample

def nestedPassword (password : Text) : List (Text × Value Unit) :=
  [(text "data", .dict [(.str (text "password"), .str password)])]

/-- A password inside of a dict is shown. Where a key is logged with a token
behind it, the marker is redacted and the token is shown. -/
theorem nested_password_shown :
    SameEvents id (nestedPassword (text "hunter2")) (nestedPassword (text "hunter3")) ∧
      sensitiveFieldMasker id (nestedPassword (text "hunter2")) = nestedPassword (text "hunter2") ∧
      ¬ Masks id (nestedPassword (text "hunter2")) ∧
      redact (text "token: Bearer abc") = text "token: ***REDACTED*** abc" := by
  have hsame : SameEvents id (nestedPassword (text "hunter2")) (nestedPassword (text "hunter3")) := by
    refine .cons ⟨rfl, .inr (.dict (.sensitive _ _ ?_ .nil))⟩ .nil
    show text "password" ∈ sensitiveFields
    decide +kernel
  have hshown : ∀ password, sensitiveFieldMasker id (nestedPassword password) = nestedPassword password := by
    intro password
    have hkey : id (text "data") ∉ sensitiveFields := by decide +kernel
    exact congrArg (fun v => [(text "data", v)]) (maskField_other hkey fun s h => nomatch h)
  refine ⟨hsame, hshown _, ?_, by decide +kernel⟩
  intro h
  have hquiet := h.quiet _ hsame
  rw [hshown, hshown] at hquiet
  unfold nestedPassword at hquiet
  simp only [List.cons.injEq, Prod.mk.injEq, Value.dict.injEq, Value.str.injEq, true_and, and_true] at hquiet
  revert hquiet
  decide

end Sample

end EvalEngine.LogSecrets
