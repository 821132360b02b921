import EvalEngine.UrlText

namespace EvalEngine.DeckLocations

open EvalEngine.UrlText

/-- The characters of a bucket's name. -/
def isBucketChar (c : Char) : Bool := c.isLower || c.isDigit || c == '.' || c == '-'

structure Bucket where
  name : List Char
  nonempty : name ≠ []
  allowed : ∀ c ∈ name, isBucketChar c = true

structure ObjectKey where
  chars : List Char
  nonempty : chars ≠ []
  relative : chars.head? ≠ some '/'

/-- Where the storage service answers. -/
structure Endpoint where
  scheme : List Char
  host : List Char
  web : scheme = "http".toList ∨ scheme = "https".toList
  plain : ∀ c ∈ host, isHostChar c = true

/-- What the client leaves as it is in the key of a presigned URL. -/
def isKeySafe (c : Char) : Bool := isUnreserved c || c == '/'

variable (checkNetloc : List Char → Bool)

/-- Step 1 of `_analyze_pitch_deck`, up to the download. It has no key where
`urlparse` raises. -/
def extractKey (bucketName pitchDeckUrl : List Char) : Option (List Char) :=
  if "http".toList <+: pitchDeckUrl then
    (urlparsePath checkNetloc pitchDeckUrl).map fun path =>
      let s3Key := path.dropWhile (· == '/')
      if bucketName <+: s3Key then s3Key.drop (bucketName.length + 1) else s3Key
  else some pitchDeckUrl

/-- A presigned URL: `scheme://host/path?query`. -/
def presigned (scheme host path query : List Char) : List Char :=
  scheme ++ ':' :: '/' :: '/' :: (host ++ '/' :: (path ++ '?' :: query))

def pathStyle (e : Endpoint) (b : Bucket) (k : ObjectKey) (query : List Char) : List Char :=
  presigned e.scheme e.host (b.name ++ '/' :: quote isKeySafe k.chars) query

def virtualHost (e : Endpoint) (b : Bucket) (k : ObjectKey) (query : List Char) : List Char :=
  presigned e.scheme (b.name ++ '.' :: e.host) (quote isKeySafe k.chars) query

/-- The key comes out of each of the locations that it can be given as. -/
structure RoundTrips (b : Bucket) (k : ObjectKey) : Prop where
  bare : extractKey checkNetloc b.name k.chars = some k.chars
  path : ∀ e query, extractKey checkNetloc b.name (pathStyle e b k query) = some k.chars
  host : ∀ e query, extractKey checkNetloc b.name (virtualHost e b k query) = some k.chars

variable {checkNetloc} {b : Bucket} {k : ObjectKey} {e : Endpoint}

theorem isKeySafe_hexDigit (n : ℕ) : isKeySafe (hexDigit n) = true :=
  Bool.or_eq_true_iff.2 (.inl (isUnreserved_hexDigit n))

theorem isPathChar_of_safe {c : Char} (h : isKeySafe c = true) : isPathChar c = true :=
  Bool.or_eq_true_iff.2 (.inl h)

theorem isPathChar_of_quote {cs : List Char} : ∀ c ∈ quote isKeySafe cs, isPathChar c = true := by
  intro c hc
  obtain ⟨d, -, hd⟩ := List.mem_flatMap.1 hc
  by_cases hsafe : isKeySafe d = true
  · rw [quoteChar, if_pos hsafe, List.mem_singleton] at hd
    exact hd ▸ isPathChar_of_safe hsafe
  · rw [quoteChar, if_neg hsafe] at hd
    obtain ⟨byte, -, hbyte⟩ := List.mem_flatMap.1 hd
    simp only [escapeByte, List.mem_cons, List.not_mem_nil, or_false] at hbyte
    obtain rfl | rfl | rfl := hbyte
    · decide
    · exact isPathChar_of_safe (isKeySafe_hexDigit _)
    · exact isPathChar_of_safe (isKeySafe_hexDigit _)

theorem unreserved_of_bucket {c : Char} (h : isBucketChar c = true) : isUnreserved c = true ∧ isHostChar c = true := by
  unfold isBucketChar at h
  simp only [Bool.or_eq_true, beq_iff_eq] at h
  obtain ((h | h) | rfl) | rfl := h
  · have hletter : c.isAlphanum = true := by
      show (c.isUpper || c.isLower || c.isDigit) = true
      rw [h, Bool.or_true, Bool.true_or]
    simp [isUnreserved, isHostChar, hletter]
  · have hdigit : c.isAlphanum = true := by
      show (c.isUpper || c.isLower || c.isDigit) = true
      rw [h, Bool.or_true]
    simp [isUnreserved, isHostChar, hdigit]
  · decide
  · decide

/-- An encoded key begins with a slash only when the key does. -/
theorem head_quote (k : ObjectKey) : (quote isKeySafe k.chars).head? ≠ some '/' := by
  obtain ⟨c, cs, hk⟩ := List.exists_cons_of_ne_nil k.nonempty
  have hrelative := k.relative
  rw [hk] at hrelative ⊢
  rw [quote_cons]
  by_cases hsafe : isKeySafe c = true
  · rw [quoteChar, if_pos hsafe]
    exact hrelative
  · rw [quoteChar, if_neg hsafe]
    obtain ⟨byte, bytes, hbytes⟩ := List.exists_cons_of_ne_nil (String.utf8EncodeChar_ne_nil (c := c))
    rw [hbytes]
    simp [escapeByte]

theorem dropWhile_slash {cs : List Char} (h : cs.head? ≠ some '/') : cs.dropWhile (· == '/') = cs := by
  cases cs with
  | nil => rfl
  | cons c cs =>
    apply List.dropWhile_cons_of_neg
    rw [beq_iff_eq]
    rintro rfl
    exact h rfl

theorem extractKey_presigned (hcheck : ∀ host, (∀ c ∈ host, isHostChar c = true) → checkNetloc host = true)
    {scheme host path : List Char} (hscheme : scheme = "http".toList ∨ scheme = "https".toList)
    (hhost : ∀ c ∈ host, isHostChar c = true) (hpath : ∀ c ∈ path, isPathChar c = true)
    (hrelative : path.head? ≠ some '/') (bucketName query : List Char) :
    extractKey checkNetloc bucketName (presigned scheme host path query) =
      some (if bucketName <+: path then path.drop (bucketName.length + 1) else path) := by
  have hhttp : "http".toList <+: presigned scheme host path query := by
    unfold presigned
    obtain rfl | rfl := hscheme
    · exact List.prefix_append _ _
    · exact ⟨'s' :: (':' :: '/' :: '/' :: (host ++ '/' :: (path ++ '?' :: query))), rfl⟩
  unfold extractKey
  rw [if_pos hhttp, presigned, urlparsePath_absolute hscheme hhost (hcheck host hhost) hpath, Option.map_some,
    List.dropWhile_cons_of_pos (by decide), dropWhile_slash hrelative]

theorem Bucket.relative (b : Bucket) (rest : List Char) : (b.name ++ rest).head? ≠ some '/' := by
  obtain ⟨c, cs, hb⟩ := List.exists_cons_of_ne_nil b.nonempty
  have hallowed := b.allowed c (hb ▸ List.mem_cons_self)
  rw [hb, List.cons_append, List.head?_cons, ne_eq, Option.some.injEq]
  rintro rfl
  revert hallowed
  decide

/-- The path style gives back the encoded key. -/
theorem extractKey_pathStyle (hcheck : ∀ host, (∀ c ∈ host, isHostChar c = true) → checkNetloc host = true)
    (e : Endpoint) (b : Bucket) (k : ObjectKey) (query : List Char) :
    extractKey checkNetloc b.name (pathStyle e b k query) = some (quote isKeySafe k.chars) := by
  have hpath : ∀ c ∈ b.name ++ '/' :: quote isKeySafe k.chars, isPathChar c = true := by
    intro c hc
    obtain hc | hc := List.mem_append.1 hc
    · exact isPathChar_of_safe (Bool.or_eq_true_iff.2 (.inl (unreserved_of_bucket (b.allowed c hc)).1))
    · obtain rfl | hc := List.mem_cons.1 hc
      · decide
      · exact isPathChar_of_quote c hc
  unfold pathStyle
  rw [extractKey_presigned hcheck e.web e.plain hpath (b.relative _), if_pos (List.prefix_append _ _),
    List.append_cons, List.drop_left' (by simp)]

theorem extractKey_virtualHost (hcheck : ∀ host, (∀ c ∈ host, isHostChar c = true) → checkNetloc host = true)
    (e : Endpoint) (b : Bucket) (k : ObjectKey) (query : List Char) :
    extractKey checkNetloc b.name (virtualHost e b k query) = some (if b.name <+: quote isKeySafe k.chars then
      (quote isKeySafe k.chars).drop (b.name.length + 1) else quote isKeySafe k.chars) := by
  have hhost : ∀ c ∈ b.name ++ '.' :: e.host, isHostChar c = true := by
    intro c hc
    obtain hc | hc := List.mem_append.1 hc
    · exact (unreserved_of_bucket (b.allowed c hc)).2
    · obtain rfl | hc := List.mem_cons.1 hc
      · decide
      · exact e.plain c hc
  exact extractKey_presigned hcheck e.web hhost isPathChar_of_quote (head_quote k) b.name query

theorem quote_eq_iff {cs : List Char} : quote isKeySafe cs = cs ↔ ∀ c ∈ cs, isKeySafe c = true := by
  constructor
  · intro h
    exact (quote_suffix isKeySafe_hexDigit (z := []) h).2
  · exact quote_of_safe

/-- What is left of the encoded key is the key only when nothing is encoded and
nothing is cut off. -/
theorem key_of_quote_iff (b : Bucket) (k : ObjectKey) :
    (if b.name <+: quote isKeySafe k.chars then (quote isKeySafe k.chars).drop (b.name.length + 1)
      else quote isKeySafe k.chars) = k.chars ↔ (∀ c ∈ k.chars, isKeySafe c = true) ∧ ¬ b.name <+: k.chars := by
  by_cases hbegins : b.name <+: quote isKeySafe k.chars
  · rw [if_pos hbegins]
    constructor
    · intro h
      have hsplit := List.take_append_drop (b.name.length + 1) (quote isKeySafe k.chars)
      rw [h] at hsplit
      obtain ⟨hnil, -⟩ := quote_suffix isKeySafe_hexDigit hsplit.symm
      have hne : quote isKeySafe k.chars ≠ [] := by
        intro hempty
        exact k.nonempty (List.length_eq_zero_iff.1
          (Nat.le_zero.1 ((length_le_quote k.chars).trans_eq (List.length_eq_zero_iff.2 hempty))))
      rw [List.take_eq_nil_iff] at hnil
      obtain hzero | hnil := hnil
      · omega
      · exact absurd hnil hne
    · rintro ⟨hsafe, hnot⟩
      rw [quote_of_safe hsafe] at hbegins
      exact absurd hbegins hnot
  · rw [if_neg hbegins, quote_eq_iff]
    constructor
    · intro hsafe
      rw [quote_of_safe hsafe] at hbegins
      exact ⟨hsafe, hbegins⟩
    · exact And.left

theorem extractKey_bare (hcheck : checkNetloc [] = true) (hsafe : ∀ c ∈ k.chars, isKeySafe c = true)
    (hbegins : ¬ b.name <+: k.chars) : extractKey checkNetloc b.name k.chars = some k.chars := by
  have hpath : ∀ c ∈ k.chars, isPathChar c = true := fun c hc => isPathChar_of_safe (hsafe c hc)
  unfold extractKey
  split
  · rw [urlparsePath_relative k.nonempty hcheck hpath k.relative, Option.map_some, dropWhile_slash k.relative]
    dsimp only
    rw [if_neg hbegins]
  · rfl

/-- A key is found again from wherever it may be given exactly when it needs no
encoding and does not begin with the name of its bucket. -/
theorem roundTrips_iff (checkNetloc : List Char → Bool)
    (hcheck : ∀ host, (∀ c ∈ host, isHostChar c = true) → checkNetloc host = true) (b : Bucket) (k : ObjectKey) :
    RoundTrips checkNetloc b k ↔ (∀ c ∈ k.chars, isKeySafe c = true) ∧ ¬ b.name <+: k.chars := by
  constructor
  · intro h
    have hhost := h.host ⟨"https".toList, "s3".toList, .inr rfl, List.all_eq_true.1 (by decide)⟩ []
    rw [extractKey_virtualHost hcheck] at hhost
    exact (key_of_quote_iff b k).1 (Option.some.inj hhost)
  · rintro ⟨hsafe, hbegins⟩
    refine ⟨extractKey_bare (hcheck [] (fun c hc => nomatch hc)) hsafe hbegins, ?_, ?_⟩
    · intro e query
      rw [extractKey_pathStyle hcheck, quote_of_safe hsafe]
    · intro e query
      rw [extractKey_virtualHost hcheck]
      exact congrArg some ((key_of_quote_iff b k).2 ⟨hsafe, hbegins⟩)

section Sample

def sampleBucket : Bucket := ⟨"decks".toList, by decide, List.all_eq_true.1 (by decide)⟩

def sampleEndpoint : Endpoint := ⟨"https".toList, "s3.local:9000".toList, .inr rfl, List.all_eq_true.1 (by decide)⟩

def sampleKey : ObjectKey := ⟨"runs/7/pitch-deck.pdf".toList, by decide, by decide⟩

def keyWithBlank : ObjectKey := ⟨"my deck.pdf".toList, by decide, by decide⟩

def keyWithName : ObjectKey := ⟨"decks-2026/a.pdf".toList, by decide, by decide⟩

def sampleQuery : List Char := "X-Amz-Expires=3600".toList

def isPlainHost (host : List Char) : Bool := host.all isHostChar

theorem plain_key_found : (∀ host, (∀ c ∈ host, isHostChar c = true) → isPlainHost host = true) ∧
    RoundTrips isPlainHost sampleBucket sampleKey :=
  ⟨fun _ => List.all_eq_true.2,
    (roundTrips_iff isPlainHost (fun _ => List.all_eq_true.2) sampleBucket sampleKey).2
      ⟨List.all_eq_true.1 (by decide), by decide +kernel⟩⟩

/-- A blank in the key stays encoded, and a key that begins with the name of its
bucket loses that part of it. -/
theorem blank_and_name_lost :
    extractKey isPlainHost sampleBucket.name (pathStyle sampleEndpoint sampleBucket keyWithBlank sampleQuery) =
      some "my%20deck.pdf".toList ∧
    extractKey isPlainHost sampleBucket.name (virtualHost sampleEndpoint sampleBucket keyWithName sampleQuery) =
      some "2026/a.pdf".toList ∧
    ¬ RoundTrips isPlainHost sampleBucket keyWithBlank := by
  have hblank : extractKey isPlainHost sampleBucket.name
      (pathStyle sampleEndpoint sampleBucket keyWithBlank sampleQuery) = some "my%20deck.pdf".toList := by
    decide +kernel
  refine ⟨hblank, by decide +kernel, ?_⟩
  intro h
  have hfound := Option.some.inj (hblank.symm.trans (h.path sampleEndpoint sampleQuery))
  revert hfound
  decide

end Sample

end EvalEngine.DeckLocations
