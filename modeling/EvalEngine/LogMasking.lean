import EvalEngine.GroupSubstitution
import EvalEngine.SanitizedText

namespace EvalEngine.LogMasking

open EvalEngine.PythonValues EvalEngine.RegularExpressions EvalEngine.GroupSubstitution EvalEngine.SanitizedText

def sensitiveFields : List Text :=
  ["password", "hashed_password", "token", "access_token", "refresh_token", "api_key", "secret", "secret_key",
    "authorization", "x_api_key", "aws_secret_access_key", "s3_secret_access_key"].map text

def piiFields : List Text := ["email", "ip_address", "client_ip"].map text

def star : CodePoint := codePoint '*'

def redacted : Text := text "***REDACTED***"

/-- The code points that a letter of the pattern stands for, whatever their case. -/
def anyCase (c : Char) : List ℕ :=
  [c.toLower.toNat, c.toUpper.toNat] ++
    (if c.toLower = 'k' then [0x212A] else if c.toLower = 'i' then [0x130, 0x131] else [])

def oneOf (codes : List ℕ) (c : CodePoint) : Bool := codes.contains c.val

/-- Characters of given classes, one after the other. -/
def classes : List (List ℕ) → Regex CodePoint
  | [] => .empty
  | codes :: rest => .seq (.one (oneOf codes)) (classes rest)

def word (s : String) : List (List ℕ) := s.toList.map anyCase

/-- `[=:]` -/
def assignment : List ℕ := ['='.toNat, ':'.toNat]

/-- `[_-]` -/
def joint : List ℕ := ['_'.toNat, '-'.toNat]

def notSpace (c : CodePoint) : Bool := !isSpace c

/-- `Bearer\s+|token[=:]\s*|api[_-]?key[=:]\s*` -/
def tokenPrefix : Regex CodePoint :=
  .alt (.seq (classes (word "Bearer")) (.plus isSpace))
    (.alt (.seq (classes (word "token")) (.seq (.one (oneOf assignment)) (.many isSpace)))
      (.seq (classes (word "api")) (.seq (.opt (.one (oneOf joint)))
        (.seq (classes (word "key")) (.seq (.one (oneOf assignment)) (.many isSpace))))))

/-- `_TOKEN_PATTERN.search(value)`: the group above, and `\S+` behind it. -/
def hasToken (value : Text) : Bool := (Regex.seq tokenPrefix (.plus notSpace)).search none value

def redact (value : Text) : Text := sub tokenPrefix (.plus notSpace) (· ++ redacted) value

def maskValue (value : Text) : Text :=
  if value.length ≤ 6 then redacted
  else value.take 2 ++ text "***" ++ value.drop (value.length - 2)

variable {F : Type} (lower : Text → Text)

/-- The value that a field of the event has afterwards. -/
def maskField (key : Text) (value : Value F) : Value F :=
  let lowerKey := lower key
  if lowerKey ∈ sensitiveFields then .str redacted
  else
    match value with
    | .str s =>
      if lowerKey ∈ piiFields then .str (maskValue s)
      else if hasToken s then .str (redact s)
      else .str s
    | other => other

def sensitiveFieldMasker (eventDict : List (Text × Value F)) : List (Text × Value F) :=
  eventDict.map fun field => (field.1, maskField lower field.1 field.2)

/-- The texts that the group begins with, up to its blanks. -/
def cores : List (List (List ℕ)) :=
  [word "Bearer", word "token" ++ [assignment], word "api" ++ (word "key" ++ [assignment]),
    word "api" ++ (joint :: (word "key" ++ [assignment]))]

/-- Two cores that differ in some class. -/
def apart (ks ks' : List (List ℕ)) : Bool := (ks.zip ks').any fun pair => pair.1.all (fun n => !pair.2.contains n)

def Spells (ks : List (List ℕ)) (w : Text) : Prop := List.Forall₂ (fun k c => oneOf k c = true) ks w

theorem matches_classes {ks : List (List ℕ)} {w : Text} : (classes ks).Matches w ↔ Spells ks w := by
  induction ks generalizing w with
  | nil =>
    constructor
    · rintro rfl
      exact .nil
    · intro h
      cases h
      rfl
  | cons k ks ih =>
    constructor
    · rintro ⟨_, v, rfl, ⟨c, rfl, hc⟩, hv⟩
      exact .cons hc (ih.1 hv)
    · intro h
      cases h with
      | cons hc hv => exact ⟨[_], _, rfl, ⟨_, rfl, hc⟩, ih.2 hv⟩

theorem Spells.append {ks ks' : List (List ℕ)} {u v : Text} (hu : Spells ks u) (hv : Spells ks' v) :
    Spells (ks ++ ks') (u ++ v) :=
  List.rel_append hu hv

/-- A group is one of the cores with blanks behind it. -/
theorem core_of_group {g : Text} (h : tokenPrefix.Matches g) : ∃ core blanks, g = core ++ blanks ∧
    (∀ c ∈ blanks, isSpace c = true) ∧ ∃ ks ∈ cores, Spells ks core := by
  obtain ⟨u, v, rfl, hu, hv⟩ | ⟨u, _, rfl, hu, _, v, rfl, ⟨c, rfl, hc⟩, hv⟩ |
    ⟨u, _, rfl, hu, j, _, rfl, hj, w, _, rfl, hw, _, v, rfl, ⟨c, rfl, hc⟩, hv⟩ := h
  · exact ⟨u, v, rfl, (matches_plus.1 hv).2, word "Bearer", by simp [cores], matches_classes.1 hu⟩
  · refine ⟨u ++ [c], v, by simp, hv, word "token" ++ [assignment], by simp [cores], ?_⟩
    exact (matches_classes.1 hu).append (.cons hc .nil)
  · obtain ⟨d, rfl, hd⟩ | hempty := hj
    · refine ⟨u ++ (d :: (w ++ [c])), v, by simp, hv, word "api" ++ (joint :: (word "key" ++ [assignment])),
        by simp [cores], ?_⟩
      exact (matches_classes.1 hu).append (.cons hd ((matches_classes.1 hw).append (.cons hc .nil)))
    · obtain rfl : j = [] := hempty
      refine ⟨u ++ (w ++ [c]), v, by simp, hv, word "api" ++ (word "key" ++ [assignment]), by simp [cores], ?_⟩
      exact (matches_classes.1 hu).append ((matches_classes.1 hw).append (.cons hc .nil))

theorem oneOf_iff {codes : List ℕ} {c : CodePoint} : oneOf codes c = true ↔ c.val ∈ codes := by
  unfold oneOf
  rw [List.contains_iff_mem]

theorem forall_of_spells {q : CodePoint → Bool} {ks : List (List ℕ)} {w : Text} (h : Spells ks w)
    (hq : ∀ k ∈ ks, ∀ n ∈ k, ∃ hn : n < 0x110000, q ⟨n, hn⟩ = true) : ∀ c ∈ w, q c = true := by
  induction h with
  | nil => exact fun c hc => nomatch hc
  | @cons k c ks w hc _ ih =>
    obtain ⟨hk, hks⟩ := List.forall_mem_cons.1 hq
    obtain ⟨_, hqc⟩ := hk c.val (oneOf_iff.1 hc)
    exact List.forall_mem_cons.2 ⟨hqc, ih hks⟩

theorem plain_of_core {ks : List (List ℕ)} (hks : ks ∈ cores) {w : Text} (h : Spells ks w) :
    ∀ c ∈ w, notSpace c = true ∧ c ≠ star := by
  have hcodes : ∀ ks ∈ cores, ∀ k ∈ ks, ∀ n ∈ k, ∃ hn : n < 0x110000,
      (notSpace ⟨n, hn⟩ && decide ((⟨n, hn⟩ : CodePoint) ≠ star)) = true := by
    decide
  intro c hc
  have hplain := forall_of_spells (q := fun c => notSpace c && decide (c ≠ star)) h (hcodes ks hks) c hc
  obtain ⟨hspace, hstar⟩ := Bool.and_eq_true_iff.1 hplain
  exact ⟨hspace, of_decide_eq_true hstar⟩

/-- Two cores at the same place are spelled by the same classes. -/
theorem spells_apart {ks ks' : List (List ℕ)} {u v x y : Text} (hu : Spells ks u) (hv : Spells ks' v)
    (htext : u ++ x = v ++ y) : apart ks ks' = false := by
  induction hu generalizing ks' v with
  | nil => rfl
  | @cons k c ks u hc _ ih =>
    cases hv with
    | nil => rfl
    | @cons k' c' ks' v hc' hv =>
      obtain ⟨rfl, htail⟩ := List.cons.inj htext
      have hshared : (k.all fun n => !k'.contains n) = false := by
        rw [List.all_eq_false]
        exact ⟨c.val, oneOf_iff.1 hc, by simpa using oneOf_iff.1 hc'⟩
      have hrest := ih hv htail
      unfold apart at hrest ⊢
      rw [List.zip_cons_cons, List.any_cons, hrest, hshared]
      rfl

theorem cores_eq_or_apart : ∀ ks ∈ cores, ∀ ks' ∈ cores, ks = ks' ∨ apart ks ks' = true := by decide

theorem unique_core {ks ks' : List (List ℕ)} (hks : ks ∈ cores) (hks' : ks' ∈ cores) {u v x y : Text}
    (hu : Spells ks u) (hv : Spells ks' v) (htext : u ++ x = v ++ y) : u = v := by
  obtain rfl | hapart := cores_eq_or_apart ks hks ks' hks'
  · exact List.append_inj_left htext (hu.length_eq.symm.trans hv.length_eq)
  · exact absurd hapart (by rw [spells_apart hu hv htext]; exact Bool.false_ne_true)

theorem takeWhile_blanks {u x : Text} (hu : ∀ c ∈ u, isSpace c = true)
    (hx : ∃ c ∈ x.head?, notSpace c = true) : (u ++ x).takeWhile isSpace = u := by
  obtain ⟨c, hhead, hc⟩ := hx
  obtain ⟨x, rfl⟩ : ∃ x', x = c :: x' := List.head?_eq_some_iff.1 hhead
  have hblank : ¬ isSpace c = true := by simpa [notSpace] using hc
  rw [List.takeWhile_append_of_pos hu, List.takeWhile_cons_of_neg hblank, List.append_nil]

theorem local_classes (ks : List (List ℕ)) : (classes ks).Local := by
  induction ks with
  | nil => trivial
  | cons k ks ih => exact ⟨trivial, ih⟩

theorem core_ne_nil {ks : List (List ℕ)} (hks : ks ∈ cores) {core : Text} (h : Spells ks core) : core ≠ [] := by
  have hne : ∀ ks ∈ cores, ks ≠ [] := by decide
  rintro rfl
  cases h
  exact hne _ hks rfl

theorem determined_tokenPrefix : Determined tokenPrefix notSpace where
  isLocal := ⟨⟨local_classes _, trivial, trivial⟩, ⟨local_classes _, trivial, trivial⟩,
    local_classes _, ⟨trivial, trivial⟩, local_classes _, trivial, trivial⟩
  nonempty := by
    intro h
    obtain ⟨core, blanks, hg, -, ks, hks, hcore⟩ := core_of_group h
    exact core_ne_nil hks hcore (List.append_eq_nil_iff.1 hg.symm).1
  front := by
    intro c g h
    obtain ⟨core, blanks, hg, -, ks, hks, hcore⟩ := core_of_group h
    obtain ⟨d, core, rfl⟩ := List.exists_cons_of_ne_nil (core_ne_nil hks hcore)
    obtain ⟨rfl, -⟩ := List.cons.inj hg
    exact (plain_of_core hks hcore c List.mem_cons_self).1
  unique := by
    intro g g' cs cs' hg hg' htext hcs hcs'
    obtain ⟨core, blanks, rfl, hblanks, ks, hks, hcore⟩ := core_of_group hg
    obtain ⟨core', blanks', rfl, hblanks', ks', hks', hcore'⟩ := core_of_group hg'
    rw [List.append_assoc, List.append_assoc] at htext
    obtain rfl := unique_core hks hks' hcore hcore' htext
    have hbehind := List.append_cancel_left htext
    obtain rfl : blanks = blanks' := by
      rw [← takeWhile_blanks hblanks hcs, hbehind, takeWhile_blanks hblanks' hcs']
    rfl

theorem stamp_redacted : Stamp tokenPrefix notSpace star (text "**REDACTED***") where
  chars := List.all_eq_true.1 (by decide)
  fresh := by
    intro g h hmem
    obtain ⟨core, blanks, rfl, hblanks, ks, hks, hcore⟩ := core_of_group h
    obtain hmem | hmem := List.mem_append.1 hmem
    · exact (plain_of_core hks hcore star hmem).2 rfl
    · exact absurd (hblanks star hmem) (by decide)

/-- Redacting twice is redacting once. -/
theorem redact_redact (value : Text) : redact (redact value) = redact value :=
  sub_sub determined_tokenPrefix stamp_redacted value

theorem redact_of_not_hasToken {value : Text} (h : hasToken value = false) : redact value = value :=
  sub_of_not_search determined_tokenPrefix h

def bearer : Text := text "Bearer"

theorem spells_bearer : Spells (word "Bearer") bearer := by
  refine .cons ?_ (.cons ?_ (.cons ?_ (.cons ?_ (.cons ?_ (.cons ?_ .nil)))))
  all_goals decide

theorem bearer_group : tokenPrefix.Matches (bearer ++ [space]) :=
  .inl ⟨bearer, [space], rfl, matches_classes.2 spells_bearer, matches_plus.2
    ⟨List.cons_ne_nil _ _, List.all_eq_true.1 (by decide)⟩⟩

/-- A core that ends with the word is the word. -/
theorem core_bearer {ks : List (List ℕ)} (hks : ks ∈ cores) {u : Text} (h : Spells ks (u ++ bearer)) : u = [] := by
  have hfound : ∀ ks ∈ cores, ∀ n < 9, (ks.drop n).length = 6 → apart (ks.drop n) (word "Bearer") = false → n = 0 := by
    decide +kernel
  have hshort : ∀ ks ∈ cores, ks.length ≤ 8 := by decide
  have hspells : Spells (ks.drop u.length) bearer := List.forall₂_drop_append ks u bearer h
  have hlength : ks.length = u.length + 6 := h.length_eq.trans List.length_append
  have hle := hshort ks hks
  have hapart := spells_apart hspells spells_bearer (x := []) (y := []) rfl
  have hzero := hfound ks hks u.length (by omega) hspells.length_eq hapart
  exact List.length_eq_zero_iff.1 hzero

theorem marker_bearer : Marker tokenPrefix notSpace bearer space where
  nonempty := by decide
  chars := List.all_eq_true.1 (by decide)
  ends := by decide
  inside := by
    intro u v h
    obtain ⟨core, blanks, hg, hblanks, ks, hks, hcore⟩ := core_of_group h
    have hlast : ∀ c ∈ bearer.getLast?, isSpace c = false := by
      intro c hc
      obtain rfl : codePoint 'r' = c := Option.some.inj hc
      decide
    rw [← List.append_assoc] at hg
    obtain ⟨t, rfl, ht⟩ | ⟨t, ht, rfl⟩ := List.append_eq_append_iff.1 hg
    · cases t with
      | nil =>
        rw [List.append_nil] at hcore
        exact core_bearer hks hcore
      | cons d t =>
        obtain ⟨rfl, -⟩ := List.cons.inj ht
        exact absurd (plain_of_core hks hcore space (by simp)).1 (by decide)
    · cases t using List.reverseRecOn with
      | nil =>
        rw [List.append_nil] at ht
        subst ht
        exact core_bearer hks hcore
      | append_singleton t d =>
        -- the last letter of the word is no blank
        have hd : d ∈ bearer.getLast? := by
          have hsame := congrArg List.getLast? ht
          rw [List.getLast?_append_of_ne_nil u (by decide)] at hsame
          rw [hsame]
          simp
        exact absurd (hblanks d (by simp)) (by rw [hlast d hd]; exact Bool.false_ne_true)

end EvalEngine.LogMasking
