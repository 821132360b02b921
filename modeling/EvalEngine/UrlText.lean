import Mathlib.Data.List.Induction
import Mathlib.Data.List.TakeWhile
import Mathlib.Data.Nat.Notation

namespace EvalEngine.UrlText

/-- The characters that percent-encoding never touches. -/
def isUnreserved (c : Char) : Bool := c.isAlphanum || c == '_' || c == '.' || c == '-' || c == '~'

def hexDigit (n : ℕ) : Char := "0123456789ABCDEF".toList.getD n '0'

def escapeByte (b : UInt8) : List Char := ['%', hexDigit (b.toNat / 16), hexDigit (b.toNat % 16)]

def quoteChar (safe : Char → Bool) (c : Char) : List Char :=
  if safe c then [c] else (String.utf8EncodeChar c).flatMap escapeByte

/-- `quote(text, safe)`: every other character becomes its bytes in UTF-8, escaped. -/
def quote (safe : Char → Bool) (cs : List Char) : List Char := cs.flatMap (quoteChar safe)

/-- A control character or a blank. -/
def isBlank (c : Char) : Bool := decide (c.toNat ≤ 0x20)

def isRemoved (c : Char) : Bool := c == '\t' || c == '\r' || c == '\n'

/-- A URL without leading blanks and without line breaks. -/
def tidy (url : List Char) : List Char :=
  (url.dropWhile isBlank).filter (fun c => !isRemoved c)

/-- The characters of `scheme_chars`. -/
def isSchemeChar (c : Char) : Bool := c.isAlphanum || c == '+' || c == '-' || c == '.'

def splitScheme (url : List Char) : List Char × List Char :=
  let front := url.takeWhile (· != ':')
  match url.dropWhile (· != ':') with
  | [] => ([], url)
  | _ :: rest =>
    if front.head?.any Char.isAlpha && front.all isSchemeChar then (front.map Char.toLower, rest)
    else ([], url)

def endsNetloc (c : Char) : Bool := c == '/' || c == '?' || c == '#'

def splitNetloc : List Char → List Char × List Char
  | '/' :: '/' :: rest => (rest.takeWhile (!endsNetloc ·), rest.dropWhile (!endsNetloc ·))
  | url => ([], url)

/-- The schemes whose paths may have parameters. -/
def usesParams : List String :=
  ["", "ftp", "hdl", "prospero", "http", "https", "shttp", "rtsp", "rtspu", "sip", "sips", "mms", "sftp", "tel"]

/-- The parameters begin at the first semicolon of the last segment. -/
def splitParams (url : List Char) : List Char :=
  let segment := (url.reverse.takeWhile (· != '/')).reverse
  url.take (url.length - segment.length) ++ segment.takeWhile (· != ';')

/-- `urlparse(url).path`, or nothing where it raises. Which hosts it refuses is
left to `checkNetloc`. -/
def urlparsePath (checkNetloc : List Char → Bool) (url : List Char) : Option (List Char) :=
  let scheme := splitScheme (tidy url)
  let netloc := splitNetloc scheme.2
  let path := (netloc.2.takeWhile (· != '#')).takeWhile (· != '?')
  if checkNetloc netloc.1 then
    some (if usesParams.contains (String.ofList scheme.1) && path.contains ';' then splitParams path else path)
  else none

variable {safe : Char → Bool} {c : Char} {cs z : List Char}

theorem isUnreserved_hexDigit (n : ℕ) : isUnreserved (hexDigit n) = true := by
  unfold hexDigit
  rw [List.getD_eq_getElem?_getD]
  cases h : "0123456789ABCDEF".toList[n]? with
  | none => decide
  | some d =>
    have hall : ∀ d ∈ "0123456789ABCDEF".toList, isUnreserved d = true :=
      List.all_eq_true.1 (by decide)
    exact hall d (List.mem_of_getElem? h)

/-- The escapes of a character end in a digit. -/
theorem quoteChar_last (hc : safe c = false) : ∃ front n, quoteChar safe c = front ++ [hexDigit n] := by
  have hne : String.utf8EncodeChar c ≠ [] := String.utf8EncodeChar_ne_nil
  unfold quoteChar
  rw [if_neg (Bool.eq_false_iff.1 hc)]
  generalize String.utf8EncodeChar c = bytes at hne
  cases bytes using List.reverseRecOn with
  | nil => exact absurd rfl hne
  | append_singleton bytes b =>
    refine ⟨bytes.flatMap escapeByte ++ ['%', hexDigit (b.toNat / 16)], b.toNat % 16, ?_⟩
    simp [escapeByte]

theorem quoteChar_ne_nil : quoteChar safe c ≠ [] := by
  by_cases hc : safe c = true
  · unfold quoteChar
    rw [if_pos hc]
    exact List.cons_ne_nil c []
  · obtain ⟨front, n, hlast⟩ := quoteChar_last (Bool.eq_false_iff.2 hc)
    rw [hlast]
    simp

theorem quote_cons : quote safe (c :: cs) = quoteChar safe c ++ quote safe cs := List.flatMap_cons

theorem length_le_quote (cs : List Char) : cs.length ≤ (quote safe cs).length := by
  induction cs with
  | nil => exact Nat.le_refl 0
  | cons c cs ih =>
    have hpos : 0 < (quoteChar safe c).length := List.length_pos_iff.2 quoteChar_ne_nil
    rw [quote_cons, List.length_append, List.length_cons]
    omega

theorem quote_of_safe (h : ∀ c ∈ cs, safe c = true) : quote safe cs = cs := by
  induction cs with
  | nil => rfl
  | cons c cs ih =>
    obtain ⟨hc, hcs⟩ := List.forall_mem_cons.1 h
    rw [quote_cons, ih hcs, quoteChar, if_pos hc, List.singleton_append]

/-- An encoded text ends with the text itself only when there was nothing to encode. -/
theorem quote_suffix (hhex : ∀ n, safe (hexDigit n) = true) (h : quote safe cs = z ++ cs) :
    z = [] ∧ ∀ c ∈ cs, safe c = true := by
  induction cs generalizing z with
  | nil => exact ⟨by simpa [quote] using h.symm, fun c hc => nomatch hc⟩
  | cons c cs ih =>
    have htail : cs <:+ quote safe cs := by
      have hself : cs <:+ quoteChar safe c ++ quote safe cs := by
        rw [← quote_cons, h]
        exact ⟨z ++ [c], by simp⟩
      exact List.suffix_of_suffix_length_le hself (List.suffix_append _ _) (length_le_quote cs)
    obtain ⟨t, ht⟩ := htail
    obtain ⟨-, hcs⟩ := ih ht.symm
    have hchar : quoteChar safe c = z ++ [c] := by
      rw [quote_cons, quote_of_safe hcs, List.append_cons] at h
      exact List.append_cancel_right h
    have hc : safe c = true := by
      by_contra hc
      obtain ⟨front, n, hlast⟩ := quoteChar_last (Bool.eq_false_iff.2 hc)
      have hdigit : hexDigit n = c := by
        have hsame := congrArg List.getLast? (hlast.symm.trans hchar)
        simpa using hsame
      exact hc (hdigit ▸ hhex n)
    refine ⟨?_, List.forall_mem_cons.2 ⟨hc, hcs⟩⟩
    have hlength := congrArg List.length hchar
    rw [quoteChar, if_pos hc, List.length_append] at hlength
    exact List.length_eq_zero_iff.1 (by simpa using hlength)

/-- The characters of an encoded path. -/
def isPathChar (c : Char) : Bool := isUnreserved c || c == '/' || c == '%'

/-- The characters of a plain host, with its port. -/
def isHostChar (c : Char) : Bool := c.isAlphanum || c == '.' || c == '-' || c == ':'

theorem toNat_of_alphanum (h : c.isAlphanum = true) : 48 ≤ c.toNat := by
  have h : (c.isUpper || c.isLower || c.isDigit) = true := h
  unfold Char.isUpper Char.isLower Char.isDigit at h
  simp only [Bool.or_eq_true, Bool.and_eq_true, decide_eq_true_eq] at h
  obtain (⟨hge, -⟩ | ⟨hge, -⟩) | ⟨hge, -⟩ := h
  · have hA : 65 ≤ c.toNat := UInt32.le_iff_toNat_le.1 hge
    omega
  · have ha : 97 ≤ c.toNat := UInt32.le_iff_toNat_le.1 hge
    omega
  · exact UInt32.le_iff_toNat_le.1 hge

/-- What no part of a plain URL has: controls and blanks are removed or stripped,
and the others end the part. -/
structure Plain (c : Char) : Prop where
  printable : 0x20 < c.toNat
  not_query : c ≠ '?'
  not_fragment : c ≠ '#'
  not_params : c ≠ ';'

theorem plain_of_path (h : isPathChar c = true) : Plain c ∧ c ≠ ':' := by
  refine ⟨⟨?_, ?_, ?_, ?_⟩, ?_⟩
  · unfold isPathChar isUnreserved at h
    simp only [Bool.or_eq_true, beq_iff_eq] at h
    obtain (((((h | rfl) | rfl) | rfl) | rfl) | rfl) | rfl := h
    · have hge := toNat_of_alphanum h
      omega
    all_goals decide
  all_goals
    rintro rfl
    revert h
    decide

theorem plain_of_host (h : isHostChar c = true) : Plain c ∧ c ≠ '/' := by
  refine ⟨⟨?_, ?_, ?_, ?_⟩, ?_⟩
  · unfold isHostChar at h
    simp only [Bool.or_eq_true, beq_iff_eq] at h
    obtain ((h | rfl) | rfl) | rfl := h
    · have hge := toNat_of_alphanum h
      omega
    all_goals decide
  all_goals
    rintro rfl
    revert h
    decide

theorem not_removed (h : Plain c) : isRemoved c = false := by
  have hprintable := h.printable
  unfold isRemoved
  simp only [Bool.or_eq_false_iff, beq_eq_false_iff_ne]
  refine ⟨⟨?_, ?_⟩, ?_⟩
  all_goals
    rintro rfl
    revert hprintable
    decide

theorem filter_of_plain (h : ∀ c ∈ cs, Plain c) : cs.filter (fun c => !isRemoved c) = cs := by
  rw [List.filter_eq_self]
  intro c hc
  rw [not_removed (h c hc)]
  rfl

theorem tidy_append {front : List Char} (hfront : ∀ c ∈ front, Plain c) (hne : front ≠ []) (rest : List Char) :
    tidy (front ++ rest) = front ++ rest.filter (fun c => !isRemoved c) := by
  obtain ⟨c, front, rfl⟩ := List.exists_cons_of_ne_nil hne
  have hc : ¬ isBlank c = true := by
    have hprintable := (hfront c List.mem_cons_self).printable
    rw [isBlank, decide_eq_true_eq]
    omega
  unfold tidy
  rw [List.cons_append, List.dropWhile_cons_of_neg hc, ← List.cons_append, List.filter_append, filter_of_plain hfront]

theorem splitScheme_of_scheme {scheme : List Char} (hcolon : ∀ c ∈ scheme, (c != ':') = true)
    (halpha : scheme.head?.any Char.isAlpha = true) (hchars : scheme.all isSchemeChar = true) (rest : List Char) :
    splitScheme (scheme ++ ':' :: rest) = (scheme.map Char.toLower, rest) := by
  have htake : (scheme ++ ':' :: rest).takeWhile (· != ':') = scheme := by
    rw [List.takeWhile_append_of_pos hcolon, List.takeWhile_cons_of_neg (by decide), List.append_nil]
  have hdrop : (scheme ++ ':' :: rest).dropWhile (· != ':') = ':' :: rest := by
    rw [List.dropWhile_append_of_pos hcolon, List.dropWhile_cons_of_neg (by decide)]
  unfold splitScheme
  rw [htake, hdrop]
  simp only [halpha, hchars, Bool.and_self, if_true]

theorem splitScheme_of_plain {url : List Char} (hcolon : ∀ c ∈ url, c ≠ ':') : splitScheme url = ([], url) := by
  have hdrop : url.dropWhile (· != ':') = [] := by
    rw [List.dropWhile_eq_nil_iff]
    intro c hc
    exact bne_iff_ne.2 (hcolon c hc)
  unfold splitScheme
  rw [hdrop]

theorem splitNetloc_of_host {host : List Char} (hhost : ∀ c ∈ host, isHostChar c = true) (rest : List Char) :
    splitNetloc ('/' :: '/' :: (host ++ '/' :: rest)) = (host, '/' :: rest) := by
  have hends : ∀ c ∈ host, (!endsNetloc c) = true := by
    intro c hc
    obtain ⟨hplain, hslash⟩ := plain_of_host (hhost c hc)
    simp [endsNetloc, hslash, hplain.not_query, hplain.not_fragment]
  show ((host ++ '/' :: rest).takeWhile (!endsNetloc ·), (host ++ '/' :: rest).dropWhile (!endsNetloc ·)) = _
  rw [List.takeWhile_append_of_pos hends, List.takeWhile_cons_of_neg (by decide), List.append_nil,
    List.dropWhile_append_of_pos hends, List.dropWhile_cons_of_neg (by decide)]

theorem splitNetloc_of_relative {url : List Char} (h : url.head? ≠ some '/') : splitNetloc url = ([], url) := by
  unfold splitNetloc
  split
  · exact absurd rfl h
  · rfl

/-- The path ends at the query. -/
theorem cut_of_path {path : List Char} (hpath : ∀ c ∈ path, isPathChar c = true) (query : List Char) :
    ((path ++ '?' :: query).takeWhile (· != '#')).takeWhile (· != '?') = path := by
  have hfragment : ∀ c ∈ path, (c != '#') = true :=
    fun c hc => bne_iff_ne.2 (plain_of_path (hpath c hc)).1.not_fragment
  have hquery : ∀ c ∈ path, (c != '?') = true :=
    fun c hc => bne_iff_ne.2 (plain_of_path (hpath c hc)).1.not_query
  rw [List.takeWhile_append_of_pos hfragment, List.takeWhile_cons_of_pos (by decide),
    List.takeWhile_append_of_pos hquery, List.takeWhile_cons_of_neg (by decide), List.append_nil]

theorem not_params {path : List Char} (hpath : ∀ c ∈ path, isPathChar c = true) : path.contains ';' = false := by
  rw [← Bool.not_eq_true, List.contains_iff_mem]
  intro hmem
  exact (plain_of_path (hpath _ hmem)).1.not_params rfl

theorem urlparsePath_of_plain {checkNetloc : List Char → Bool} {url scheme host rest query path : List Char}
    (htidy : tidy url = rest) {afterScheme : List Char} (hscheme : splitScheme rest = (scheme, afterScheme))
    (hnetloc : splitNetloc afterScheme = (host, query)) (hcheck : checkNetloc host = true)
    (hcut : (query.takeWhile (· != '#')).takeWhile (· != '?') = path) (hpath : ∀ c ∈ path, isPathChar c = true) :
    urlparsePath checkNetloc url = some path := by
  dsimp only [urlparsePath]
  rw [htidy, hscheme]
  dsimp only
  rw [hnetloc]
  dsimp only
  rw [hcut, if_pos hcheck, not_params hpath, Bool.and_false, if_neg Bool.false_ne_true]

/-- The path of a URL with a host, a path and a query. -/
theorem urlparsePath_absolute {checkNetloc : List Char → Bool} {scheme host path : List Char}
    (hscheme : scheme = "http".toList ∨ scheme = "https".toList) (hhost : ∀ c ∈ host, isHostChar c = true)
    (hcheck : checkNetloc host = true) (hpath : ∀ c ∈ path, isPathChar c = true) (query : List Char) :
    urlparsePath checkNetloc (scheme ++ ':' :: '/' :: '/' :: (host ++ '/' :: (path ++ '?' :: query))) =
      some ('/' :: path) := by
  have hslash : ∀ c ∈ '/' :: path, isPathChar c = true := List.forall_mem_cons.2 ⟨by decide, hpath⟩
  have hletters : ∀ c ∈ scheme, Plain c := by
    intro c hc
    have hall : scheme.all isHostChar = true := by
      obtain rfl | rfl := hscheme
      · decide
      · decide
    exact (plain_of_host (List.all_eq_true.1 hall c hc)).1
  have hne : scheme ≠ [] := by
    obtain rfl | rfl := hscheme
    · decide
    · decide
  have htidy : tidy (scheme ++ ':' :: '/' :: '/' :: (host ++ '/' :: (path ++ '?' :: query))) =
      scheme ++ ':' :: '/' :: '/' :: (host ++ '/' :: (path ++ '?' :: query.filter (fun c => !isRemoved c))) := by
    have hhostKept := filter_of_plain fun c hc => (plain_of_host (hhost c hc)).1
    have hpathKept := filter_of_plain fun c hc => (plain_of_path (hpath c hc)).1
    have hmarks : isRemoved ':' = false ∧ isRemoved '/' = false ∧ isRemoved '?' = false := by decide
    rw [tidy_append hletters hne]
    simp [List.filter_append, hhostKept, hpathKept, hmarks]
  refine urlparsePath_of_plain htidy (splitScheme_of_scheme (List.all_eq_true.1 ?_) ?_ ?_ _)
    (splitNetloc_of_host hhost _) hcheck (cut_of_path hslash _) hslash
  all_goals obtain rfl | rfl := hscheme <;> decide

/-- A text without a scheme, a host and a query is its own path. -/
theorem urlparsePath_relative {checkNetloc : List Char → Bool} {path : List Char} (hne : path ≠ [])
    (hcheck : checkNetloc [] = true) (hpath : ∀ c ∈ path, isPathChar c = true) (hrelative : path.head? ≠ some '/') :
    urlparsePath checkNetloc path = some path := by
  have htidy : tidy path = path := by
    have hsame := tidy_append (fun c hc => (plain_of_path (hpath c hc)).1) hne []
    simpa using hsame
  have hcut : (path.takeWhile (· != '#')).takeWhile (· != '?') = path := by
    have hfragment : path.takeWhile (· != '#') = path :=
      List.takeWhile_eq_self_iff.2 fun c hc => bne_iff_ne.2 (plain_of_path (hpath c hc)).1.not_fragment
    rw [hfragment]
    exact List.takeWhile_eq_self_iff.2 fun c hc => bne_iff_ne.2 (plain_of_path (hpath c hc)).1.not_query
  exact urlparsePath_of_plain htidy (splitScheme_of_plain fun c hc => (plain_of_path (hpath c hc)).2)
    (splitNetloc_of_relative hrelative) hcheck hcut hpath

end EvalEngine.UrlText
