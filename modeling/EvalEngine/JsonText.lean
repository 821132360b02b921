import EvalEngine.PythonValues
import Mathlib.Data.List.TakeDrop

namespace EvalEngine.JsonText

open EvalEngine.PythonValues

variable {F : Type} (fl : Floats F)

section Write

def hexDigits4 (n : Nat) : List Char :=
  [n / 4096 % 16, n / 256 % 16, n / 16 % 16, n % 16].map Nat.digitChar

/-- `\uXXXX`, for a number below 65536. -/
def unicodeEscape (n : Nat) : List Char := '\\' :: 'u' :: hexDigits4 n

/-- The two surrogates of a character that does not fit in 16 bits. -/
def highOf (c : CodePoint) : Nat := 0xD800 + (c.val - 0x10000) / 0x400

def lowOf (c : CodePoint) : Nat := 0xDC00 + (c.val - 0x10000) % 0x400

/-- One character inside the quotes, with `ensure_ascii`. -/
def quoteChar (c : CodePoint) : List Char :=
  if c.val = 0x22 then ['\\', '"']
  else if c.val = 0x5C then ['\\', '\\']
  else if c.val = 0x0A then ['\\', 'n']
  else if c.val = 0x0D then ['\\', 'r']
  else if c.val = 0x09 then ['\\', 't']
  else if c.val = 0x0C then ['\\', 'f']
  else if c.val = 0x08 then ['\\', 'b']
  else if 0x20 ≤ c.val ∧ c.val < 0x7F then [Char.ofNat c.val]
  else if c.val < 0x10000 then unicodeEscape c.val
  else unicodeEscape (highOf c) ++ unicodeEscape (lowOf c)

def quote (s : Text) : List Char := '"' :: (s.flatMap quoteChar ++ ['"'])

/-- `int.__repr__`, with the limit on the number of digits. -/
def intText (n : ℤ) : Except BuiltinError (List Char) :=
  if (Nat.toDigits 10 n.natAbs).length ≤ 4300 then
    .ok ((if n < 0 then ['-'] else []) ++ Nat.toDigits 10 n.natAbs)
  else .error .valueError

def floatText (x : F) : List Char :=
  if !fl.eq x x then "NaN".toList
  else if fl.eq x fl.inf then "Infinity".toList
  else if fl.eq x fl.negInf then "-Infinity".toList
  else fl.repr x

/-- The text of a key, before it is quoted. -/
def keyText : Value F → Except BuiltinError Text
  | .str s => .ok s
  | .bool b => .ok (text (if b then "true" else "false"))
  | .none => .ok (text "null")
  | .int n => (intText n).map (List.map codePoint)
  | .float x => .ok ((floatText fl x).map codePoint)
  | .list _ | .tuple _ | .dict _ | .object _ => .error .typeError

def separated (parts : List (List Char)) : List Char := List.intercalate [',', ' '] parts

mutual

/-- `json.dumps`. -/
def dumps : Value F → Except BuiltinError (List Char)
  | .none => .ok "null".toList
  | .bool b => .ok (if b then "true" else "false").toList
  | .int n => intText n
  | .float x => .ok (floatText fl x)
  | .str s => .ok (quote s)
  | .list xs => (dumpItems xs).map (fun parts => '[' :: (separated parts ++ [']']))
  | .tuple xs => (dumpItems xs).map (fun parts => '[' :: (separated parts ++ [']']))
  | .dict es => (dumpEntries es).map (fun parts => '\x7b' :: (separated parts ++ ['\x7d']))
  | .object _ => .error .typeError

def dumpItems : List (Value F) → Except BuiltinError (List (List Char))
  | [] => .ok []
  | x :: xs => do
    let part ← dumps x
    let parts ← dumpItems xs
    pure (part :: parts)

def dumpEntries : List (Value F × Value F) → Except BuiltinError (List (List Char))
  | [] => .ok []
  | (k, v) :: es => do
    let key ← keyText fl k
    let part ← dumps v
    let parts ← dumpEntries es
    pure ((quote key ++ ':' :: ' ' :: part) :: parts)

end

end Write

section Read

def isSpace (c : Char) : Bool := c == ' ' || c == '\t' || c == '\n' || c == '\r'

def skip (cs : List Char) : List Char := cs.dropWhile isSpace

def hexValue (c : Char) : Option Nat :=
  if '0' ≤ c ∧ c ≤ '9' then some (c.toNat - 48)
  else if 'a' ≤ c ∧ c ≤ 'f' then some (c.toNat - 87)
  else if 'A' ≤ c ∧ c ≤ 'F' then some (c.toNat - 55)
  else none

def hexValue4 (a b c d : Char) : Option CodePoint := do
  let n := 4096 * (← hexValue a) + 256 * (← hexValue b) + 16 * (← hexValue c) + (← hexValue d)
  if h : n < 0x110000 then some ⟨n, h⟩ else none

/-- The characters that stand for another one after a backslash. -/
def unescape (c : Char) : Option CodePoint :=
  if c = '"' then some 0x22
  else if c = '\\' then some 0x5C
  else if c = '/' then some 0x2F
  else if c = 'b' then some 0x08
  else if c = 'f' then some 0x0C
  else if c = 'n' then some 0x0A
  else if c = 'r' then some 0x0D
  else if c = 't' then some 0x09
  else none

/-- The rest of a string after its quote, with its surrogates apart. -/
def scanUnits : List Char → Option (Text × List Char)
  | [] => none
  | '"' :: cs => some ([], cs)
  | '\\' :: 'u' :: x :: y :: z :: w :: cs => do
    let c ← hexValue4 x y z w
    let (s, rest) ← scanUnits cs
    pure (c :: s, rest)
  | '\\' :: e :: cs => do
    let c ← unescape e
    let (s, rest) ← scanUnits cs
    pure (c :: s, rest)
  | c :: cs =>
    if c.toNat < 0x20 then none
    else do
      let (s, rest) ← scanUnits cs
      pure (codePoint c :: s, rest)

def joined (high low : CodePoint) : CodePoint :=
  ⟨(0x10000 + (high.val - 0xD800) % 0x400 * 0x400 + (low.val - 0xDC00) % 0x400) % 0x110000,
    Nat.mod_lt _ (by decide)⟩

/-- A high surrogate and the low one after it become one character. -/
def joinPairs : Text → Text
  | high :: low :: s =>
    if isHigh high && isLow low then joined high low :: joinPairs s
    else high :: joinPairs (low :: s)
  | s => s

def scanString (cs : List Char) : Option (Text × List Char) :=
  (scanUnits cs).map (fun r => (joinPairs r.1, r.2))

def scanSign : List Char → List Char × List Char
  | '-' :: cs => (['-'], cs)
  | cs => ([], cs)

def scanWhole : List Char → Option (List Char × List Char)
  | [] => none
  | c :: cs =>
    if c = '0' then some (['0'], cs)
    else if c.isDigit then some ((c :: cs).span Char.isDigit)
    else none

def scanFraction : List Char → List Char × List Char
  | '.' :: cs =>
    let (digits, rest) := cs.span Char.isDigit
    if digits = [] then ([], '.' :: cs) else ('.' :: digits, rest)
  | cs => ([], cs)

def scanExponentSign : List Char → List Char × List Char
  | '+' :: cs => (['+'], cs)
  | '-' :: cs => (['-'], cs)
  | cs => ([], cs)

def scanExponent : List Char → List Char × List Char
  | [] => ([], [])
  | e :: cs =>
    if e = 'e' ∨ e = 'E' then
      let (sign, cs') := scanExponentSign cs
      let (digits, rest) := cs'.span Char.isDigit
      if digits = [] then ([], e :: cs) else (e :: (sign ++ digits), rest)
    else ([], e :: cs)

def scanNumber (cs : List Char) : Option (Value F × List Char) := do
  let (sign, cs) := scanSign cs
  let (whole, cs) ← scanWhole cs
  let (fraction, cs) := scanFraction cs
  let (exponent, cs) := scanExponent cs
  if fraction ++ exponent ≠ [] then
    some (.float (fl.ofText (sign ++ whole ++ fraction ++ exponent)), cs)
  else if whole.length ≤ 4300 then
    let n : ℤ := Nat.ofDigitChars 10 whole 0
    some (.int (if sign = [] then n else -n), cs)
  else none

def constants : List (List Char × Value F) :=
  [("null".toList, .none), ("true".toList, .bool true), ("false".toList, .bool false),
    ("NaN".toList, .float fl.nan), ("Infinity".toList, .float fl.inf),
    ("-Infinity".toList, .float fl.negInf)]

def scanConstant (cs : List Char) : Option (Value F × List Char) :=
  (constants fl).findSome? (fun p => if p.1.isPrefixOf cs then some (p.2, cs.drop p.1.length) else none)

/-- `dict(pairs)`: a key that comes again keeps its place and takes the new value. -/
def entry (k : Text) (v : Value F) : List (Text × Value F) → List (Text × Value F)
  | [] => [(k, v)]
  | e :: es => if e.1 = k then (k, v) :: es else e :: entry k v es

def dictOf (pairs : List (Text × Value F)) : Value F :=
  .dict ((pairs.foldl (fun es p => entry p.1 p.2 es) []).map (fun e => (.str e.1, e.2)))

mutual

/-- `scan_once`. The fuel bounds the nesting and the length of what is read. -/
def scanValue : Nat → List Char → Option (Value F × List Char)
  | 0, _ => none
  | fuel + 1, cs =>
    match cs with
    | '"' :: cs => do
      let (s, rest) ← scanString cs
      pure (.str s, rest)
    | '[' :: cs =>
      match skip cs with
      | ']' :: rest => some (.list [], rest)
      | cs => do
        let (xs, rest) ← scanItems fuel cs
        pure (.list xs, rest)
    | '\x7b' :: cs =>
      match skip cs with
      | '\x7d' :: rest => some (.dict [], rest)
      | cs => do
        let (pairs, rest) ← scanPairs fuel cs
        pure (dictOf pairs, rest)
    | cs => (scanConstant fl cs).or (scanNumber fl cs)

def scanItems : Nat → List Char → Option (List (Value F) × List Char)
  | 0, _ => none
  | fuel + 1, cs => do
    let (x, cs) ← scanValue fuel cs
    match skip cs with
    | ',' :: cs =>
      let (xs, rest) ← scanItems fuel (skip cs)
      pure (x :: xs, rest)
    | ']' :: rest => pure ([x], rest)
    | _ => none

def scanPairs : Nat → List Char → Option (List (Text × Value F) × List Char)
  | 0, _ => none
  | fuel + 1, cs =>
    match cs with
    | '"' :: cs => do
      let (k, cs) ← scanString cs
      match skip cs with
      | ':' :: cs =>
        let (v, cs) ← scanValue fuel (skip cs)
        match skip cs with
        | ',' :: cs =>
          let (pairs, rest) ← scanPairs fuel (skip cs)
          pure ((k, v) :: pairs, rest)
        | '\x7d' :: rest => pure ([(k, v)], rest)
        | _ => none
      | _ => none
    | _ => none

end

/-- `json.loads`. -/
def loads (s : List Char) : Except BuiltinError (Value F) :=
  match scanValue fl (2 * s.length + 1) (skip s) with
  | some (v, rest) => if skip rest = [] then .ok v else .error .valueError
  | none => .error .valueError

end Read

section Fuel

variable {fl}

theorem skip_suffix (cs : List Char) : skip cs <:+ cs := List.dropWhile_suffix _

theorem suffix_of_cons {c : Char} {cs rest : List Char} (h : rest <:+ cs) : rest <:+ c :: cs :=
  h.trans (List.suffix_cons c cs)

theorem scanUnits_suffix {cs rest : List Char} {s : Text} (h : scanUnits cs = some (s, rest)) :
    rest <:+ cs := by
  induction cs using scanUnits.induct generalizing s with
  | case1 => cases h
  | case2 cs =>
    rw [scanUnits] at h
    cases h
    exact List.suffix_cons _ _
  | case3 x y z w cs ih =>
    simp only [scanUnits, Option.bind_eq_bind, Option.bind_eq_some_iff] at h
    obtain ⟨_, -, ⟨s', rest'⟩, hrest, h⟩ := h
    cases h
    exact suffix_of_cons (suffix_of_cons (suffix_of_cons (suffix_of_cons
      (suffix_of_cons (suffix_of_cons (ih hrest))))))
  | case4 e cs hne ih =>
    rw [scanUnits] at h
    · simp only [Option.bind_eq_bind, Option.bind_eq_some_iff] at h
      obtain ⟨_, -, ⟨s', rest'⟩, hrest, h⟩ := h
      cases h
      exact suffix_of_cons (suffix_of_cons (ih hrest))
    · exact hne
  | case5 c cs hquote hescape hslash hcontrol =>
    rw [scanUnits, if_pos hcontrol] at h
    · cases h
    · exact hquote
    · exact hescape
    · exact hslash
  | case6 c cs hquote hescape hslash hcontrol ih =>
    rw [scanUnits, if_neg hcontrol] at h
    · simp only [Option.bind_eq_bind, Option.bind_eq_some_iff] at h
      obtain ⟨⟨s', rest'⟩, hrest, h⟩ := h
      cases h
      exact suffix_of_cons (ih hrest)
    · exact hquote
    · exact hescape
    · exact hslash

theorem scanString_suffix {cs rest : List Char} {s : Text} (h : scanString cs = some (s, rest)) :
    rest <:+ cs := by
  obtain ⟨⟨s', rest'⟩, hunits, h⟩ := Option.map_eq_some_iff.1 h
  cases h
  exact scanUnits_suffix hunits

theorem span_suffix (cs : List Char) : (cs.span Char.isDigit).2 <:+ cs := by
  rw [List.span_eq_takeWhile_dropWhile]
  exact List.dropWhile_suffix _

theorem scanSign_suffix (cs : List Char) : (scanSign cs).2 <:+ cs := by
  unfold scanSign
  split
  · exact List.suffix_cons _ _
  · exact List.suffix_refl _

theorem scanWhole_suffix {cs digits rest : List Char} (h : scanWhole cs = some (digits, rest)) :
    rest <:+ cs := by
  unfold scanWhole at h
  split at h
  · cases h
  next c cs =>
    split at h
    · cases h
      exact List.suffix_cons _ _
    · split at h
      · have hspan := span_suffix (c :: cs)
        rw [Option.some.inj h] at hspan
        exact hspan
      · cases h

theorem scanFraction_suffix (cs : List Char) : (scanFraction cs).2 <:+ cs := by
  unfold scanFraction
  split
  next cs =>
    have hspan := span_suffix cs
    simp only
    split
    · exact List.suffix_refl _
    · exact suffix_of_cons hspan
  · exact List.suffix_refl _

theorem scanExponentSign_suffix (cs : List Char) : (scanExponentSign cs).2 <:+ cs := by
  unfold scanExponentSign
  split
  · exact List.suffix_cons _ _
  · exact List.suffix_cons _ _
  · exact List.suffix_refl _

theorem scanExponent_suffix (cs : List Char) : (scanExponent cs).2 <:+ cs := by
  unfold scanExponent
  split
  · exact List.suffix_refl _
  next e cs =>
    split
    · have hspan := (span_suffix (scanExponentSign cs).2).trans (scanExponentSign_suffix cs)
      simp only
      split
      · exact List.suffix_refl _
      · exact suffix_of_cons hspan
    · exact List.suffix_refl _

theorem scanNumber_suffix {cs rest : List Char} {v : Value F} (h : scanNumber fl cs = some (v, rest)) :
    rest <:+ cs := by
  simp only [scanNumber, Option.bind_eq_bind, Option.bind_eq_some_iff] at h
  obtain ⟨⟨whole, cs'⟩, hwhole, h⟩ := h
  have hend : (scanExponent (scanFraction cs').2).2 <:+ cs :=
    (scanExponent_suffix _).trans <| (scanFraction_suffix _).trans <|
      (scanWhole_suffix hwhole).trans (scanSign_suffix cs)
  simp only at h
  split at h
  · cases h
    exact hend
  · split at h
    · cases h
      exact hend
    · cases h

theorem scanConstant_suffix {cs rest : List Char} {v : Value F}
    (h : scanConstant fl cs = some (v, rest)) : rest <:+ cs := by
  obtain ⟨p, -, hp⟩ := List.exists_of_findSome?_eq_some h
  split at hp
  · cases hp
    exact List.drop_suffix _ _
  · cases hp

variable (fl) in
/-- Whatever is read with this fuel is the front of the text. -/
structure ReadsFront (fuel : Nat) : Prop where
  value : ∀ {cs rest v}, scanValue fl fuel cs = some (v, rest) → rest <:+ cs
  items : ∀ {cs rest xs}, scanItems fl fuel cs = some (xs, rest) → rest <:+ cs
  pairs : ∀ {cs rest pairs}, scanPairs fl fuel cs = some (pairs, rest) → rest <:+ cs

section Front

variable {fuel : Nat} {rest : List Char} (hfront : ReadsFront fl fuel)
include hfront

theorem scanValue_front {cs : List Char} {v : Value F} (h : scanValue fl (fuel + 1) cs = some (v, rest)) :
    rest <:+ cs := by
  rw [scanValue.eq_def] at h
  simp only at h
  split at h
  next cs =>
    simp only [Option.bind_eq_bind, Option.bind_eq_some_iff] at h
    obtain ⟨⟨s, rest'⟩, hs, h⟩ := h
    cases h
    exact suffix_of_cons (scanString_suffix hs)
  next cs =>
    split at h
    next heq =>
      cases h
      exact suffix_of_cons ((List.suffix_cons _ _).trans (heq ▸ skip_suffix cs))
    next =>
      simp only [Option.bind_eq_bind, Option.bind_eq_some_iff] at h
      obtain ⟨⟨xs, rest'⟩, hxs, h⟩ := h
      cases h
      exact suffix_of_cons ((hfront.items hxs).trans (skip_suffix cs))
  next cs =>
    split at h
    next heq =>
      cases h
      exact suffix_of_cons ((List.suffix_cons _ _).trans (heq ▸ skip_suffix cs))
    next =>
      simp only [Option.bind_eq_bind, Option.bind_eq_some_iff] at h
      obtain ⟨⟨pairs, rest'⟩, hpairs, h⟩ := h
      cases h
      exact suffix_of_cons ((hfront.pairs hpairs).trans (skip_suffix cs))
  next =>
    obtain hconstant | ⟨-, hnumber⟩ := Option.or_eq_some_iff.1 h
    · exact scanConstant_suffix hconstant
    · exact scanNumber_suffix hnumber

theorem scanItems_front {cs : List Char} {xs : List (Value F)}
    (h : scanItems fl (fuel + 1) cs = some (xs, rest)) : rest <:+ cs := by
  simp only [scanItems, Option.bind_eq_bind, Option.bind_eq_some_iff] at h
  obtain ⟨⟨x, cs'⟩, hx, h⟩ := h
  have hskip := (skip_suffix cs').trans (hfront.value hx)
  simp only at h
  split at h
  next cs'' heq =>
    rw [heq] at hskip
    simp only [Option.bind_eq_some_iff] at h
    obtain ⟨⟨xs', rest'⟩, hxs, h⟩ := h
    cases h
    exact ((hfront.items hxs).trans (skip_suffix cs'')).trans
      ((List.suffix_cons _ _).trans hskip)
  next heq =>
    cases h
    rw [heq] at hskip
    exact (List.suffix_cons _ _).trans hskip
  · cases h

theorem scanPairs_front {cs : List Char} {pairs : List (Text × Value F)}
    (h : scanPairs fl (fuel + 1) cs = some (pairs, rest)) : rest <:+ cs := by
  rw [scanPairs.eq_def] at h
  simp only at h
  split at h
  next cs =>
    simp only [Option.bind_eq_bind, Option.bind_eq_some_iff] at h
    obtain ⟨⟨k, cs₁⟩, hk, h⟩ := h
    have hkey := (skip_suffix cs₁).trans (suffix_of_cons (c := '"') (scanString_suffix hk))
    simp only at h
    split at h
    next cs₂ heq =>
      rw [heq] at hkey
      simp only [Option.bind_eq_some_iff] at h
      obtain ⟨⟨v, cs₃⟩, hv, h⟩ := h
      have hvalue := ((skip_suffix cs₃).trans (hfront.value hv)).trans
        ((skip_suffix cs₂).trans ((List.suffix_cons _ _).trans hkey))
      simp only at h
      split at h
      next cs₄ heq' =>
        rw [heq'] at hvalue
        simp only [Option.bind_eq_some_iff] at h
        obtain ⟨⟨pairs', rest'⟩, hpairs, h⟩ := h
        cases h
        exact ((hfront.pairs hpairs).trans (skip_suffix cs₄)).trans
          ((List.suffix_cons _ _).trans hvalue)
      next heq' =>
        cases h
        rw [heq'] at hvalue
        exact (List.suffix_cons _ _).trans hvalue
      · cases h
    · cases h
  · cases h

end Front

variable (fl) in
theorem reads_front (fuel : Nat) : ReadsFront fl fuel := by
  induction fuel with
  | zero => exact ⟨by rintro cs rest v ⟨⟩, by rintro cs rest xs ⟨⟩, by rintro cs rest pairs ⟨⟩⟩
  | succ fuel ih => exact ⟨scanValue_front ih, scanItems_front ih, scanPairs_front ih⟩

variable (fl) in
/-- Fuel for twice the length of the text is as good as any more. -/
structure Enough (fuel : Nat) : Prop where
  value : ∀ cs, 2 * cs.length < fuel → scanValue fl (fuel + 1) cs = scanValue fl fuel cs
  items : ∀ cs, 2 * cs.length + 1 < fuel → scanItems fl (fuel + 1) cs = scanItems fl fuel cs
  pairs : ∀ cs, 2 * cs.length + 1 < fuel → scanPairs fl (fuel + 1) cs = scanPairs fl fuel cs

section Enough

variable {fuel : Nat} (henough : Enough fl fuel)
include henough

theorem scanValue_fuel (cs : List Char) (h : 2 * cs.length < fuel + 1) :
    scanValue fl (fuel + 1 + 1) cs = scanValue fl (fuel + 1) cs := by
  rw [scanValue.eq_def fl (fuel + 1 + 1), scanValue.eq_def fl (fuel + 1)]
  simp only
  split
  · rfl
  next cs =>
    have hle := (skip_suffix cs).length_le
    rw [List.length_cons] at h
    have hitems := henough.items (skip cs) (by omega)
    split
    · rfl
    · rw [hitems]
  next cs =>
    have hle := (skip_suffix cs).length_le
    rw [List.length_cons] at h
    have hpairs := henough.pairs (skip cs) (by omega)
    split
    · rfl
    · rw [hpairs]
  · rfl

theorem scanItems_fuel (cs : List Char) (h : 2 * cs.length + 1 < fuel + 1) :
    scanItems fl (fuel + 1 + 1) cs = scanItems fl (fuel + 1) cs := by
  rw [scanItems, scanItems, henough.value cs (by omega)]
  cases hx : scanValue fl fuel cs with
  | none => rfl
  | some r =>
    have hle := (((skip_suffix r.2).trans ((reads_front fl fuel).value (v := r.1) hx))).length_le
    simp only [Option.bind_eq_bind, Option.bind_some]
    split
    next cs' heq =>
      have hle' := (skip_suffix cs').length_le
      rw [heq, List.length_cons] at hle
      rw [henough.items (skip cs') (by omega)]
    · rfl
    · rfl

theorem scanPairs_fuel (cs : List Char) (h : 2 * cs.length + 1 < fuel + 1) :
    scanPairs fl (fuel + 1 + 1) cs = scanPairs fl (fuel + 1) cs := by
  rw [scanPairs.eq_def fl (fuel + 1 + 1), scanPairs.eq_def fl (fuel + 1)]
  simp only
  split
  next cs =>
    rw [List.length_cons] at h
    cases hk : scanString cs with
    | none => rfl
    | some r =>
      have hle := ((skip_suffix r.2).trans (scanString_suffix (s := r.1) hk)).length_le
      simp only [Option.bind_eq_bind, Option.bind_some]
      split
      next cs' heq =>
        have hle' := (skip_suffix cs').length_le
        rw [heq, List.length_cons] at hle
        rw [henough.value (skip cs') (by omega)]
        cases hv : scanValue fl fuel (skip cs') with
        | none => rfl
        | some p =>
          have hvalue := ((skip_suffix p.2).trans ((reads_front fl fuel).value (v := p.1) hv)).length_le
          simp only [Option.bind_some]
          split
          next cs'' heq' =>
            have hle'' := (skip_suffix cs'').length_le
            rw [heq', List.length_cons] at hvalue
            rw [henough.pairs (skip cs'') (by omega)]
          · rfl
          · rfl
      · rfl
  · rfl

end Enough

variable (fl) in
theorem enough (fuel : Nat) : Enough fl fuel := by
  induction fuel with
  | zero => exact ⟨by intro cs h; omega, by intro cs h; omega, by intro cs h; omega⟩
  | succ fuel ih => exact ⟨scanValue_fuel ih, scanItems_fuel ih, scanPairs_fuel ih⟩

/-- The scanner never stops for want of fuel. -/
theorem scanValue_enough {cs : List Char} {fuel : Nat} (h : 2 * cs.length < fuel) :
    scanValue fl fuel cs = scanValue fl (2 * cs.length + 1) cs := by
  obtain ⟨k, rfl⟩ : ∃ k, fuel = 2 * cs.length + 1 + k := ⟨fuel - (2 * cs.length + 1), by omega⟩
  induction k with
  | zero => rfl
  | succ k ih => rw [← Nat.add_assoc, (enough fl _).value cs (by omega), ih (by omega)]

end Fuel

end EvalEngine.JsonText
