import EvalEngine.HostLiterals

namespace EvalEngine.WebhookValidation

open EvalEngine.HostLiterals

/-- What `validate_webhook_url` reads of a parsed URL. -/
structure ParseResult where
  scheme : String
  netloc : String
  hostname : Option String

def blockedPrefixes : List String :=
  ["10.", "172.16.", "172.17.", "172.18.", "172.19.", "172.20.", "172.21.", "172.22.", "172.23.",
    "172.24.", "172.25.", "172.26.", "172.27.", "172.28.", "172.29.", "172.30.", "172.31.",
    "192.168.", "169.254."]

def startsWith (text start : String) : Bool := start.toList.isPrefixOf text.toList

def blocked (hostname : String) : Bool := blockedPrefixes.any (startsWith hostname)

/-- `urlparse` gives nothing where it raises. -/
def validateWebhookUrl (urlparse : String → Option ParseResult) (url : String) : Bool :=
  match urlparse url with
  | none => false
  | some parsed =>
    if parsed.scheme = "" ∨ parsed.netloc = "" then false
    else if parsed.scheme ≠ "https" ∧ parsed.hostname ≠ some "localhost" ∧
        parsed.hostname ≠ some "127.0.0.1" then false
    else !blocked (parsed.hostname.getD "")

def isLoopbackName (hostname : Option String) : Prop :=
  hostname = some "localhost" ∨ hostname = some "127.0.0.1"

/-- The URL goes out over HTTPS or to the own machine by one of two names, and
its host is no other literal address. -/
def NotInternal (parsed : ParseResult) : Prop :=
  (parsed.scheme = "https" ∨ isLoopbackName parsed.hostname) ∧
    ∀ hostname ∈ parsed.hostname, isLiteral hostname.toList = true → hostname = "127.0.0.1"

def Sound (urlparse : String → Option ParseResult) (url : String) : Prop :=
  validateWebhookUrl urlparse url = true →
    ∃ parsed, urlparse url = some parsed ∧ NotInternal parsed

/-- An HTTPS URL with the host is refused or harmless. -/
def Covered (parsed : ParseResult) : Prop :=
  parsed.scheme = "https" → parsed.netloc ≠ "" → ∀ hostname ∈ parsed.hostname,
    isLiteral hostname.toList = true → hostname = "127.0.0.1" ∨ blocked hostname = true

theorem validate_eq_true {urlparse : String → Option ParseResult} {url : String} :
    validateWebhookUrl urlparse url = true ↔ ∃ parsed, urlparse url = some parsed ∧
      parsed.scheme ≠ "" ∧ parsed.netloc ≠ "" ∧
      (parsed.scheme = "https" ∨ isLoopbackName parsed.hostname) ∧
      blocked (parsed.hostname.getD "") = false := by
  rw [validateWebhookUrl]
  cases urlparse url with
  | none => simp
  | some parsed =>
    simp only [Option.some.injEq, exists_eq_left', isLoopbackName]
    split
    · rename_i hempty
      constructor
      · intro h
        cases h
      · rintro ⟨hscheme, hnetloc, -⟩
        exact absurd hempty (not_or.2 ⟨hscheme, hnetloc⟩)
    · rename_i hempty
      obtain ⟨hscheme, hnetloc⟩ := not_or.1 hempty
      split
      · rename_i hplain
        constructor
        · intro h
          cases h
        · rintro ⟨-, -, hor, -⟩
          obtain ⟨hnot, hlocal, hloop⟩ := hplain
          cases hor with
          | inl h => exact absurd h hnot
          | inr h =>
            cases h with
            | inl h => exact absurd h hlocal
            | inr h => exact absurd h hloop
      · rename_i hplain
        have hor : parsed.scheme = "https" ∨ parsed.hostname = some "localhost" ∨
            parsed.hostname = some "127.0.0.1" := by tauto
        simp [hscheme, hnetloc, hor]

theorem not_isLiteral_localhost : isLiteral "localhost".toList = false := by decide +kernel

/-- The validator is sound on a URL exactly if its host is covered. -/
theorem sound_iff (urlparse : String → Option ParseResult) (url : String) :
    Sound urlparse url ↔ ∀ parsed ∈ urlparse url, Covered parsed := by
  constructor
  · intro h parsed hparsed hscheme hnetloc hostname hhost hliteral
    cases hblocked : blocked hostname with
    | true => exact Or.inr rfl
    | false =>
      have hvalid : validateWebhookUrl urlparse url = true := by
        apply validate_eq_true.2
        refine ⟨parsed, hparsed, ?_, hnetloc, Or.inl hscheme, ?_⟩
        · rw [hscheme]
          decide
        · rw [hhost]
          exact hblocked
      obtain ⟨parsed', hparsed', -, hsafe⟩ := h hvalid
      have heq : parsed' = parsed := Option.some.inj (hparsed'.symm.trans hparsed)
      subst heq
      exact Or.inl (hsafe hostname hhost hliteral)
  · intro h hvalid
    obtain ⟨parsed, hparsed, -, hnetloc, hor, hblocked⟩ := validate_eq_true.1 hvalid
    refine ⟨parsed, hparsed, hor, ?_⟩
    intro hostname hhost hliteral
    have hname : parsed.hostname.getD "" = hostname := by rw [hhost]; rfl
    cases hor with
    | inl hscheme =>
      cases h parsed hparsed hscheme hnetloc hostname hhost hliteral with
      | inl hloop => exact hloop
      | inr hblock =>
        rw [hname, hblock] at hblocked
        cases hblocked
    | inr hloop =>
      cases hloop with
      | inl hlocal =>
        have heq : hostname = "localhost" := Option.some.inj (hhost.symm.trans hlocal)
        rw [heq, not_isLiteral_localhost] at hliteral
        cases hliteral
      | inr haddress => exact Option.some.inj (hhost.symm.trans haddress)

/-- The first two octets that a blocked prefix of two octets fixes. -/
def blockedOctets : List (ℕ × ℕ) :=
  ((List.range' 16 16).map fun b => (172, b)) ++ [(192, 168), (169, 254)]

theorem mem_blockedOctets {a b : ℕ} : (a, b) ∈ blockedOctets ↔
    (a = 172 ∧ 16 ≤ b ∧ b < 32) ∨ (a = 192 ∧ b = 168) ∨ (a = 169 ∧ b = 254) := by
  simp only [blockedOctets, List.mem_append, List.mem_map, List.mem_range'_1, Prod.mk.injEq,
    List.mem_cons, List.not_mem_nil, or_false]
  constructor
  · rintro (⟨q, hq, rfl, rfl⟩ | h)
    · exact Or.inl ⟨rfl, hq⟩
    · exact Or.inr h
  · rintro (⟨rfl, hb⟩ | h)
    · exact Or.inl ⟨b, hb, rfl, rfl⟩
    · exact Or.inr h

def octetPrefix (octets : ℕ × ℕ) : List Char :=
  Nat.toDigits 10 octets.1 ++ '.' :: (Nat.toDigits 10 octets.2 ++ ['.'])

theorem blockedPrefixes_toList : blockedPrefixes.map String.toList =
    (Nat.toDigits 10 10 ++ ['.']) :: blockedOctets.map octetPrefix := by decide +kernel

/-- Private or link-local, by the first two octets. -/
def isPrivate (a b : ℕ) : Prop :=
  a = 10 ∨ (a = 172 ∧ 16 ≤ b ∧ b < 32) ∨ (a = 192 ∧ b = 168) ∨ (a = 169 ∧ b = 254)

/-- Among the dotted decimal addresses the prefixes are complete for the
private and the link-local ones, and for no others. -/
theorem blocked_dotted {a b c d : ℕ} (ha : a < 256) (hb : b < 256) :
    blocked (String.ofList (dotted a b c d)) = true ↔ isPrivate a b := by
  have hone : ∀ p < 256, Nat.toDigits 10 p ++ ['.'] <+: dotted a b c d ↔ p = a := by
    intro p hp
    rw [dotted, prefix_separator (dot_notMem_toDigits p hp) (dot_notMem_toDigits a ha),
      toDigits_inj hp ha]
    simp
  have htwo : ∀ octets ∈ blockedOctets, octetPrefix octets <+: dotted a b c d ↔ octets = (a, b) := by
    rintro ⟨p, q⟩ hmem
    have hp : p < 256 ∧ q < 256 := by
      have hcases := mem_blockedOctets.1 hmem
      omega
    rw [octetPrefix, dotted,
      prefix_separator (dot_notMem_toDigits p hp.1) (dot_notMem_toDigits a ha),
      prefix_separator (dot_notMem_toDigits q hp.2) (dot_notMem_toDigits b hb),
      toDigits_inj hp.1 ha, toDigits_inj hp.2 hb]
    simp
  have hany : blocked (String.ofList (dotted a b c d)) = true ↔
      ∃ p ∈ blockedPrefixes.map String.toList, p <+: dotted a b c d := by
    simp [blocked, startsWith, List.any_eq_true]
  rw [hany, blockedPrefixes_toList, isPrivate, ← mem_blockedOctets]
  simp only [List.mem_cons, exists_eq_or_imp, hone 10 (by decide), List.mem_map]
  constructor
  · rintro (h | ⟨p, ⟨octets, hmem, rfl⟩, hprefix⟩)
    · exact Or.inl h.symm
    · have heq := (htwo octets hmem).1 hprefix
      exact Or.inr (heq ▸ hmem)
  · rintro (h | hmem)
    · exact Or.inl h.symm
    · exact Or.inr ⟨_, ⟨(a, b), hmem, rfl⟩, (htwo (a, b) hmem).2 rfl⟩

/-- So among the dotted decimal hosts the validator is sound on the private
and the link-local ones and on one loopback address, and on no others. -/
theorem covered_dotted {parsed : ParseResult} (hscheme : parsed.scheme = "https")
    (hnetloc : parsed.netloc ≠ "") {a b c d : ℕ} (ha : a < 256) (hb : b < 256) (hc : c < 256)
    (hd : d < 256) (hhost : parsed.hostname = some (String.ofList (dotted a b c d))) :
    Covered parsed ↔ String.ofList (dotted a b c d) = "127.0.0.1" ∨ isPrivate a b := by
  have hliteral : isLiteral (String.ofList (dotted a b c d)).toList = true := by
    rw [String.toList_ofList]
    exact isLiteral_dotted ha hb hc hd
  rw [← blocked_dotted (c := c) (d := d) ha hb]
  constructor
  · intro h
    exact h hscheme hnetloc _ hhost hliteral
  · intro h _ _ hostname hname _
    have heq : hostname = String.ofList (dotted a b c d) := Option.some.inj (hname.symm.trans hhost)
    rw [heq]
    exact h

end EvalEngine.WebhookValidation
