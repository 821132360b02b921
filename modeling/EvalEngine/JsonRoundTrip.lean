import EvalEngine.JsonText

namespace EvalEngine.JsonRoundTrip

open EvalEngine.PythonValues EvalEngine.JsonText

variable {F : Type} (fl : Floats F)

section Strings

/-- What is read for one character before surrogates are joined. -/
def units (c : CodePoint) : Text :=
  if h : c.val < 0x10000 then [c]
  else [⟨highOf c, by have := c.isLt; unfold highOf; omega⟩, ⟨lowOf c, by unfold lowOf; omega⟩]

theorem hexValue_digitChar : ∀ d < 16, hexValue (Nat.digitChar d) = some d := by decide

theorem scanUnits_unicodeEscape {n : Nat} (h : n < 0x10000) (cs : List Char) :
    scanUnits (unicodeEscape n ++ cs) =
      (scanUnits cs).map (fun p => (⟨n, by omega⟩ :: p.1, p.2)) := by
  have hdigits : hexValue4 (Nat.digitChar (n / 4096 % 16)) (Nat.digitChar (n / 256 % 16))
      (Nat.digitChar (n / 16 % 16)) (Nat.digitChar (n % 16)) = some ⟨n, by omega⟩ := by
    have hsum : 4096 * (n / 4096 % 16) + 256 * (n / 256 % 16) + 16 * (n / 16 % 16) + n % 16 = n := by
      omega
    have hlt : n < 0x110000 := by omega
    simp [hexValue4, hexValue_digitChar _ (Nat.mod_lt _ (by decide : 0 < 16)), hsum, hlt]
  simp only [unicodeEscape, hexDigits4, List.map_cons, List.map_nil, List.cons_append, List.nil_append]
  rw [scanUnits, hdigits]
  cases scanUnits cs <;> rfl

theorem scanUnits_escape {e : Char} {c : CodePoint} (he : unescape e = some c) (cs : List Char) :
    scanUnits ('\\' :: e :: cs) = (scanUnits cs).map (fun p => (c :: p.1, p.2)) := by
  have hne : e ≠ 'u' := by
    rintro rfl
    have hu : unescape 'u' = none := by decide
    rw [hu] at he
    cases he
  have hrun : scanUnits ('\\' :: e :: cs) =
      (unescape e).bind fun c => (scanUnits cs).bind fun p => some (c :: p.1, p.2) := by
    rw [scanUnits]
    · rfl
    · intro x y z w cs' h
      exact absurd h hne
  rw [hrun, he]
  cases scanUnits cs <;> rfl

theorem scanUnits_char {c : Char} (hquote : c ≠ '"') (hslash : c ≠ '\\') (hc : 0x20 ≤ c.toNat)
    (cs : List Char) :
    scanUnits (c :: cs) = (scanUnits cs).map (fun p => (codePoint c :: p.1, p.2)) := by
  have hrun : scanUnits (c :: cs) = if c.toNat < 0x20 then none
      else (scanUnits cs).bind fun p => some (codePoint c :: p.1, p.2) := by
    rw [scanUnits]
    · rfl
    · exact hquote
    · intro x y z w cs' h
      exact absurd h hslash
    · intro e cs' h
      exact absurd h hslash
  rw [hrun, if_neg (by omega)]
  cases scanUnits cs <;> rfl

theorem toNat_ofNat_ascii : ∀ n < 0x7F, (Char.ofNat n).toNat = n := by decide

/-- One quoted character is read back as its units. -/
theorem scanUnits_quoteChar (c : CodePoint) (cs : List Char) :
    scanUnits (quoteChar c ++ cs) = (scanUnits cs).map (fun p => (units c ++ p.1, p.2)) := by
  have hescape : ∀ {e : Char} {n : Nat} (hn : n < 0x10000), unescape e = some ⟨n, by omega⟩ →
      c.val = n → scanUnits (['\\', e] ++ cs) = (scanUnits cs).map (fun p => (units c ++ p.1, p.2)) := by
    intro e n hn he hc
    have hunits : units c = [⟨n, by omega⟩] := by
      have hlt : c.val < 0x10000 := by omega
      rw [units, dif_pos hlt]
      exact congrArg (fun d => [d]) (Fin.ext hc)
    rw [hunits]
    exact scanUnits_escape he cs
  unfold quoteChar
  split
  next h => exact hescape (by decide) rfl h
  split
  next h => exact hescape (by decide) rfl h
  split
  next h => exact hescape (by decide) rfl h
  split
  next h => exact hescape (by decide) rfl h
  split
  next h => exact hescape (by decide) rfl h
  split
  next h => exact hescape (by decide) rfl h
  split
  next h => exact hescape (by decide) rfl h
  split
  next hquote hslash _ _ _ _ _ hascii =>
    have hnat : (Char.ofNat c.val).toNat = c.val := toNat_ofNat_ascii _ hascii.2
    have hchar : codePoint (Char.ofNat c.val) = c := Fin.ext hnat
    have hunits : units c = [codePoint (Char.ofNat c.val)] := by
      rw [hchar, units, dif_pos (by omega)]
    rw [hunits]
    refine scanUnits_char ?_ ?_ (by omega) cs
    · intro h
      rw [h] at hnat
      exact hquote hnat.symm
    · intro h
      rw [h] at hnat
      exact hslash hnat.symm
  split
  next hlt =>
    have hunits : units c = [c] := by rw [units, dif_pos hlt]
    rw [scanUnits_unicodeEscape hlt, hunits]
    rfl
  next hge =>
    have hhigh : highOf c < 0x10000 := by
      have := c.isLt
      unfold highOf
      omega
    have hlow : lowOf c < 0x10000 := by
      unfold lowOf
      omega
    rw [List.append_assoc, scanUnits_unicodeEscape hhigh, scanUnits_unicodeEscape hlow, units,
      dif_neg hge]
    cases scanUnits cs <;> rfl

theorem scanUnits_quoted (s : Text) (cs : List Char) :
    scanUnits (s.flatMap quoteChar ++ '"' :: cs) = some (s.flatMap units, cs) := by
  induction s with
  | nil => rfl
  | cons c s ih =>
    rw [List.flatMap_cons, List.append_assoc, scanUnits_quoteChar, ih]
    rfl

theorem joined_units {c : CodePoint} (h : ¬ c.val < 0x10000) (hhigh : highOf c < 0x110000)
    (hlow : lowOf c < 0x110000) : joined ⟨highOf c, hhigh⟩ ⟨lowOf c, hlow⟩ = c := by
  have hlt := c.isLt
  apply Fin.ext
  simp only [joined, highOf, lowOf]
  omega

theorem isHigh_highOf (c : CodePoint) (h : highOf c < 0x110000) : isHigh ⟨highOf c, h⟩ = true := by
  have hlt := c.isLt
  have hhigh : highOf c < 0xDC00 := by
    unfold highOf
    omega
  have hle : 0xD800 ≤ highOf c := Nat.le_add_right _ _
  simp [isHigh, hhigh, hle]

theorem isLow_lowOf (c : CodePoint) (h : lowOf c < 0x110000) : isLow ⟨lowOf c, h⟩ = true := by
  have hlow : lowOf c < 0xE000 := by
    unfold lowOf
    omega
  have hle : 0xDC00 ≤ lowOf c := Nat.le_add_right _ _
  simp [isLow, hlow, hle]

theorem joinPairs_cons {c : CodePoint} {s : Text}
    (h : ∀ d ∈ s.head?, (isHigh c && isLow d) = false) : joinPairs (c :: s) = c :: joinPairs s := by
  cases s with
  | nil => rfl
  | cons d s =>
    rw [joinPairs, h d rfl]
    rfl

theorem joinPairs_units {s : Text} (h : hasPair s = false) : joinPairs (s.flatMap units) = s := by
  induction s with
  | nil => rfl
  | cons c s ih =>
    have hrest : hasPair s = false := by
      cases s with
      | nil => rfl
      | cons d s =>
        rw [hasPair] at h
        exact (Bool.or_eq_false_iff.1 h).2
    rw [List.flatMap_cons]
    by_cases hc : c.val < 0x10000
    · rw [units, dif_pos hc, List.singleton_append, joinPairs_cons, ih hrest]
      -- the unit after it is the next character, or the high half of one
      intro d hd
      cases s with
      | nil => cases hd
      | cons e s =>
        rw [hasPair] at h
        have hpair := (Bool.or_eq_false_iff.1 h).1
        by_cases he : e.val < 0x10000
        · rw [List.flatMap_cons, units, dif_pos he] at hd
          cases hd
          exact hpair
        · rw [List.flatMap_cons, units, dif_neg he] at hd
          cases hd
          have hnot : ¬ 0xDC00 ≤ highOf e := by
            have := e.isLt
            unfold highOf
            omega
          simp [isLow, hnot]
    · rw [units, dif_neg hc, List.cons_append, List.cons_append, List.nil_append, joinPairs,
        isHigh_highOf, isLow_lowOf, Bool.and_true, if_pos rfl, joined_units hc, ih hrest]

/-- A string without a pair of surrogates is read back. -/
theorem scanString_quoted {s : Text} (h : hasPair s = false) (cs : List Char) :
    scanString (s.flatMap quoteChar ++ '"' :: cs) = some (s, cs) := by
  rw [scanString, scanUnits_quoted, Option.map_some, joinPairs_units h]

end Strings

section Numbers

/-- The parts of a number, as the grammar of JSON has them. -/
structure Literal where
  negative : Bool
  whole : List Char
  fraction : List Char
  exponentSign : List Char
  exponent : List Char
  whole_spec : whole = ['0'] ∨ ∃ c cs, whole = c :: cs ∧ c ≠ '0' ∧ c.isDigit = true
  whole_digits : ∀ c ∈ whole, c.isDigit = true
  fraction_digits : ∀ c ∈ fraction, c.isDigit = true
  sign_spec : exponentSign = [] ∨ exponentSign = ['+'] ∨ exponentSign = ['-']
  exponent_digits : ∀ c ∈ exponent, c.isDigit = true

namespace Literal

variable (l : Literal)

def sign : List Char := if l.negative then ['-'] else []

def fractionText : List Char := if l.fraction = [] then [] else '.' :: l.fraction

def exponentText : List Char := if l.exponent = [] then [] else 'e' :: (l.exponentSign ++ l.exponent)

def text : List Char := l.sign ++ l.whole ++ l.fractionText ++ l.exponentText

/-- A literal that is read as a `float`. -/
def IsFloat : Prop := l.fractionText ++ l.exponentText ≠ []

end Literal

/-- A text that no number runs on into. -/
def Stops (rest : List Char) : Prop :=
  ∀ c ∈ rest.head?, c.isDigit = false ∧ c ≠ '.' ∧ c ≠ 'e' ∧ c ≠ 'E'

theorem span_digits {digits rest : List Char} (hdigits : ∀ c ∈ digits, c.isDigit = true)
    (hrest : ∀ c ∈ rest.head?, c.isDigit = false) :
    (digits ++ rest).span Char.isDigit = (digits, rest) := by
  have htake : rest.takeWhile Char.isDigit = [] := by
    cases rest with
    | nil => rfl
    | cons c rest => exact List.takeWhile_cons_of_neg (by rw [hrest c rfl]; exact Bool.false_ne_true)
  have hdrop : rest.dropWhile Char.isDigit = rest := by
    cases rest with
    | nil => rfl
    | cons c rest => exact List.dropWhile_cons_of_neg (by rw [hrest c rfl]; exact Bool.false_ne_true)
  rw [List.span_eq_takeWhile_dropWhile, List.takeWhile_append_of_pos hdigits,
    List.dropWhile_append_of_pos hdigits, htake, hdrop, List.append_nil]

variable {l : Literal} {rest : List Char}

theorem not_digit_of_stops (h : Stops rest) : ∀ c ∈ rest.head?, c.isDigit = false :=
  fun c hc => (h c hc).1

theorem scanSign_literal (cs : List Char) : scanSign (l.sign ++ l.whole ++ cs) = (l.sign, l.whole ++ cs) := by
  obtain ⟨c, digits, hwhole⟩ : ∃ c digits, l.whole = c :: digits := by
    obtain h | ⟨c, cs, h, -⟩ := l.whole_spec
    · exact ⟨_, _, h⟩
    · exact ⟨_, _, h⟩
  have hdigit : c.isDigit = true := l.whole_digits c (by simp [hwhole])
  have hne : c ≠ '-' := by
    rintro rfl
    exact absurd hdigit (by decide)
  unfold Literal.sign
  cases l.negative with
  | true => rfl
  | false =>
    rw [hwhole]
    change scanSign (c :: (digits ++ cs)) = ([], c :: (digits ++ cs))
    rw [scanSign]
    intro cs' h
    exact hne (List.cons.inj h).1

theorem scanWhole_literal {cs : List Char} (hcs : ∀ c ∈ cs.head?, c.isDigit = false) :
    scanWhole (l.whole ++ cs) = some (l.whole, cs) := by
  have hspan := span_digits l.whole_digits hcs
  obtain h | ⟨c, digits, h, hzero, hdigit⟩ := l.whole_spec
  · rw [h]
    rfl
  · rw [h] at hspan ⊢
    rw [List.cons_append, scanWhole, if_neg hzero, if_pos hdigit]
    exact congrArg some hspan

theorem scanFraction_literal {cs : List Char} (hcs : ∀ c ∈ cs.head?, c.isDigit = false ∧ c ≠ '.') :
    scanFraction (l.fractionText ++ cs) = (l.fractionText, cs) := by
  unfold Literal.fractionText
  split
  next h =>
    cases cs with
    | nil => rfl
    | cons c cs =>
      rw [List.nil_append, scanFraction]
      intro cs' hc
      exact (hcs c rfl).2 (List.cons.inj hc).1
  next h =>
    rw [List.cons_append, scanFraction, span_digits l.fraction_digits fun c hc => (hcs c hc).1]
    exact if_neg h

theorem scanExponent_literal (hrest : Stops rest) :
    scanExponent (l.exponentText ++ rest) = (l.exponentText, rest) := by
  have hspan := span_digits l.exponent_digits (not_digit_of_stops hrest)
  unfold Literal.exponentText
  split
  next h =>
    cases rest with
    | nil => rfl
    | cons c rest =>
      obtain ⟨-, -, he, hE⟩ := hrest c rfl
      rw [List.nil_append, scanExponent, if_neg (by simp [he, hE])]
  next h =>
    have hsign : scanExponentSign (l.exponentSign ++ l.exponent ++ rest) =
        (l.exponentSign, l.exponent ++ rest) := by
      obtain hs | hs | hs := l.sign_spec
      · obtain ⟨c, digits, hexponent⟩ := List.exists_cons_of_ne_nil h
        have hdigit := l.exponent_digits c (by simp [hexponent])
        rw [hs, hexponent, List.nil_append, List.cons_append, scanExponentSign]
        · rintro cs' heq
          obtain ⟨rfl, -⟩ := List.cons.inj heq
          exact absurd hdigit (by decide)
        · rintro cs' heq
          obtain ⟨rfl, -⟩ := List.cons.inj heq
          exact absurd hdigit (by decide)
      · rw [hs]
        rfl
      · rw [hs]
        rfl
    rw [List.cons_append, scanExponent, if_pos (.inl rfl), hsign]
    simp only [hspan]
    exact if_neg h

/-- A number is read up to the end of its literal. -/
theorem scanNumber_literal (hrest : Stops rest) :
    scanNumber fl (l.text ++ rest) =
      if l.fractionText ++ l.exponentText ≠ [] then some (.float (fl.ofText l.text), rest)
      else if l.whole.length ≤ 4300 then
        some (.int (if l.sign = [] then (Nat.ofDigitChars 10 l.whole 0 : ℤ)
          else -(Nat.ofDigitChars 10 l.whole 0 : ℤ)), rest)
      else none := by
  have hexponent := scanExponent_literal (l := l) hrest
  have hafterFraction : ∀ c ∈ (l.exponentText ++ rest).head?, c.isDigit = false ∧ c ≠ '.' := by
    unfold Literal.exponentText
    split
    · intro c hc
      obtain ⟨hdigit, hdot, -⟩ := hrest c hc
      exact ⟨hdigit, hdot⟩
    · rintro c ⟨⟩
      decide
  have hafterWhole : ∀ c ∈ (l.fractionText ++ (l.exponentText ++ rest)).head?, c.isDigit = false := by
    unfold Literal.fractionText
    split
    · intro c hc
      exact (hafterFraction c hc).1
    · rintro c ⟨⟩
      decide
  have htext : l.text ++ rest = l.sign ++ l.whole ++ (l.fractionText ++ (l.exponentText ++ rest)) := by
    simp [Literal.text]
  rw [scanNumber, htext, scanSign_literal]
  simp only [scanWhole_literal hafterWhole, Option.bind_eq_bind, Option.bind_some,
    scanFraction_literal hafterFraction, hexponent]
  rfl

theorem toDigits_spec (n : Nat) : Nat.toDigits 10 n = ['0'] ∨
    ∃ c cs, Nat.toDigits 10 n = c :: cs ∧ c ≠ '0' ∧ c.isDigit = true := by
  have hsmall : ∀ d < 10, d ≠ 0 → Nat.digitChar d ≠ '0' ∧ (Nat.digitChar d).isDigit = true := by decide
  induction n using Nat.strongRecOn with
  | ind n ih =>
    obtain hlt | hge := Nat.lt_or_ge n 10
    · rw [Nat.toDigits_of_lt_base hlt]
      by_cases hzero : n = 0
      · subst hzero
        exact .inl rfl
      · exact .inr ⟨_, _, rfl, hsmall n hlt hzero⟩
    · rw [Nat.toDigits_of_base_le (by decide) hge]
      obtain hzero | ⟨c, cs, hdigits, hc⟩ := ih (n / 10) (by omega)
      · -- the digits before the last one are those of a positive number
        have hvalue := Nat.ofDigitChars_ten_toDigits (n := n / 10)
        rw [hzero] at hvalue
        have : n / 10 = 0 := hvalue.symm
        omega
      · exact .inr ⟨c, cs ++ [Nat.digitChar (n % 10)], by rw [hdigits]; rfl, hc⟩

def intLiteral (n : ℤ) : Literal where
  negative := decide (n < 0)
  whole := Nat.toDigits 10 n.natAbs
  fraction := []
  exponentSign := []
  exponent := []
  whole_spec := toDigits_spec n.natAbs
  whole_digits _ h := Nat.isDigit_of_mem_toDigits (by decide) (by decide) h
  fraction_digits _ h := by cases h
  sign_spec := .inl rfl
  exponent_digits _ h := by cases h

theorem intText_ok {n : ℤ} (h : (Nat.toDigits 10 n.natAbs).length ≤ 4300) :
    intText n = .ok (intLiteral n).text := by
  rw [intText, if_pos h]
  by_cases hneg : n < 0 <;>
    simp [intLiteral, Literal.text, Literal.sign, Literal.fractionText, Literal.exponentText, hneg]

theorem scanNumber_int {n : ℤ} (h : (Nat.toDigits 10 n.natAbs).length ≤ 4300) (hrest : Stops rest) :
    scanNumber fl ((intLiteral n).text ++ rest) = some (.int n, rest) := by
  have hvalue : Nat.ofDigitChars 10 (intLiteral n).whole 0 = n.natAbs := Nat.ofDigitChars_ten_toDigits
  rw [scanNumber_literal fl hrest, hvalue, if_neg (by simp [intLiteral, Literal.fractionText,
    Literal.exponentText]), if_pos (show (intLiteral n).whole.length ≤ 4300 from h)]
  by_cases hneg : n < 0
  · have hsign : (intLiteral n).sign = ['-'] := by simp [intLiteral, Literal.sign, hneg]
    rw [hsign, if_neg (List.cons_ne_nil _ _), show -(n.natAbs : ℤ) = n by omega]
  · have hsign : (intLiteral n).sign = [] := by simp [intLiteral, Literal.sign, hneg]
    rw [hsign, if_pos rfl, show (n.natAbs : ℤ) = n by omega]

/-- The documented behaviour of `float.__repr__` and `float`: what is written is a number
with a fraction or an exponent, and it is read as the same float. -/
structure Readable : Prop where
  eq_inf : ∀ x, fl.eq x fl.inf = true → x = fl.inf
  eq_negInf : ∀ x, fl.eq x fl.negInf = true → x = fl.negInf
  repr : ∀ x, fl.eq x x = true → fl.eq x fl.inf = false → fl.eq x fl.negInf = false →
    ∃ l : Literal, l.IsFloat ∧ fl.repr x = l.text ∧ fl.ofText l.text = x

end Numbers

section Values

theorem head_of_literal (l : Literal) (rest : List Char) :
    ∃ c cs, l.text ++ rest = c :: cs ∧ (c.isDigit = true ∨ c = '-' ∧ ∃ d cs', cs = d :: cs' ∧ d.isDigit = true) := by
  obtain ⟨c, digits, hwhole⟩ : ∃ c digits, l.whole = c :: digits := by
    obtain h | ⟨c, cs, h, -⟩ := l.whole_spec
    · exact ⟨_, _, h⟩
    · exact ⟨_, _, h⟩
  have hdigit : c.isDigit = true := l.whole_digits c (by simp [hwhole])
  simp only [Literal.text, Literal.sign, hwhole]
  cases l.negative with
  | true => exact ⟨_, _, rfl, .inr ⟨rfl, c, _, rfl, hdigit⟩⟩
  | false => exact ⟨_, _, rfl, .inl hdigit⟩

theorem scanConstant_literal (l : Literal) (rest : List Char) :
    scanConstant fl (l.text ++ rest) = none := by
  obtain ⟨c, cs, htext, hdigit | ⟨rfl, d, cs', rfl, hdigit⟩⟩ := head_of_literal l rest
  · have hne : ∀ d : Char, d.isDigit = false → d ≠ c := by
      rintro d hd rfl
      rw [hd] at hdigit
      cases hdigit
    rw [htext]
    simp [scanConstant, constants, hne 'n' (by decide), hne 't' (by decide), hne 'f' (by decide),
      hne 'N' (by decide), hne 'I' (by decide), hne '-' (by decide)]
  · have hne : 'I' ≠ d := by
      rintro rfl
      exact absurd hdigit (by decide)
    rw [htext]
    simp [scanConstant, constants, hne]

theorem scanValue_atom {c : Char} (hquote : c ≠ '"') (hbracket : c ≠ '[') (hbrace : c ≠ '\x7b')
    (fuel : Nat) (cs : List Char) :
    scanValue fl (fuel + 1) (c :: cs) = (scanConstant fl (c :: cs)).or (scanNumber fl (c :: cs)) := by
  rw [scanValue]
  · intro cs' h
    exact hquote (List.cons.inj h).1
  · intro cs' h
    exact hbracket (List.cons.inj h).1
  · intro cs' h
    exact hbrace (List.cons.inj h).1

theorem scanValue_literal (l : Literal) (fuel : Nat) (rest : List Char) :
    scanValue fl (fuel + 1) (l.text ++ rest) = scanNumber fl (l.text ++ rest) := by
  obtain ⟨c, cs, htext, hc⟩ := head_of_literal l rest
  have hconstant := scanConstant_literal fl l rest
  have hne : ∀ d : Char, d.isDigit = false → d ≠ '-' → c ≠ d := by
    rintro d hd hminus rfl
    obtain hdigit | ⟨h, -⟩ := hc
    · rw [hd] at hdigit
      cases hdigit
    · exact hminus h
  rw [htext] at hconstant ⊢
  rw [scanValue_atom fl (hne '"' (by decide) (by decide)) (hne '[' (by decide) (by decide))
    (hne '\x7b' (by decide) (by decide)), hconstant]
  rfl

theorem stops_nil : Stops [] := by
  rintro c ⟨⟩

theorem stops_cons {c : Char} (h : c = ',' ∨ c = ']' ∨ c = '\x7d') (rest : List Char) :
    Stops (c :: rest) := by
  rintro c ⟨⟩
  obtain rfl | rfl | rfl := h <;> decide

/-- A text of which the scanner sees the first character at once. -/
def Begins (cs : List Char) : Prop := ∃ c cs', cs = c :: cs' ∧ isSpace c = false ∧ c ≠ ']'

theorem Begins.append {cs : List Char} (h : Begins cs) (rest : List Char) : Begins (cs ++ rest) := by
  obtain ⟨c, cs', rfl, hc⟩ := h
  exact ⟨c, cs' ++ rest, rfl, hc⟩

theorem Begins.ne_nil {cs : List Char} (h : Begins cs) : cs ≠ [] := by
  obtain ⟨c, cs', rfl, -⟩ := h
  exact List.cons_ne_nil c cs'

theorem skip_cons {c : Char} (h : isSpace c = false) (cs : List Char) : skip (c :: cs) = c :: cs := by
  simp [skip, h]

theorem skip_begins {cs : List Char} (h : Begins cs) : skip cs = cs := by
  obtain ⟨c, cs', rfl, hc, -⟩ := h
  exact skip_cons hc cs'

theorem skip_separator {cs : List Char} (h : Begins cs) : skip (' ' :: cs) = cs := by
  obtain ⟨c, cs', rfl, hc, -⟩ := h
  exact (List.dropWhile_cons_of_pos (by decide)).trans (skip_cons hc cs')

theorem separated_singleton (part : List Char) : separated [part] = part := by
  simp [separated, List.intercalate]

theorem separated_cons (part next : List Char) (parts : List (List Char)) :
    separated (part :: next :: parts) = part ++ ',' :: ' ' :: separated (next :: parts) := by
  simp [separated, List.intercalate]

theorem exists_parts {parts : List (List Char)} (h : separated parts ≠ []) :
    ∃ next rest, parts = next :: rest := by
  cases parts with
  | nil => exact absurd rfl h
  | cons next rest => exact ⟨next, rest, rfl⟩

/-- The value is written, and read back from the text in front of anything that may follow. -/
def Reads (v : Value F) : Prop :=
  ∃ cs, dumps fl v = .ok cs ∧ Begins cs ∧ ∀ fuel rest, 2 * cs.length < fuel → Stops rest →
    scanValue fl fuel (cs ++ rest) = some (v, rest)

def ReadsItems (xs : List (Value F)) : Prop :=
  ∃ parts, dumpItems fl xs = .ok parts ∧ (xs = [] → parts = []) ∧ (xs ≠ [] →
    Begins (separated parts) ∧ ∀ fuel rest, 2 * (separated parts).length + 1 < fuel →
      scanItems fl fuel (separated parts ++ ']' :: rest) = some (xs, rest))

variable {fl}

theorem readsItems_nil : ReadsItems fl ([] : List (Value F)) := by
  refine ⟨[], rfl, fun _ => rfl, fun h => absurd rfl h⟩

theorem readsItems_cons {x : Value F} {xs : List (Value F)} (hx : Reads fl x) (hxs : ReadsItems fl xs) :
    ReadsItems fl (x :: xs) := by
  obtain ⟨part, hpart, hbegins, hread⟩ := hx
  obtain ⟨parts, hparts, hnil, hcons⟩ := hxs
  have hdump : dumpItems fl (x :: xs) = .ok (part :: parts) := by
    simp only [dumpItems, hpart, hparts]
    rfl
  refine ⟨part :: parts, hdump, by simp, fun _ => ?_⟩
  cases xs with
  | nil =>
    rw [hnil rfl, separated_singleton]
    refine ⟨hbegins, fun fuel rest hfuel => ?_⟩
    obtain ⟨fuel, rfl⟩ : ∃ n, fuel = n + 1 := ⟨fuel - 1, by omega⟩
    have hhead := hread fuel (']' :: rest) (by omega) (stops_cons (.inr (.inl rfl)) rest)
    rw [scanItems, hhead]
    simp [skip_cons (by decide : isSpace ']' = false)]
  | cons y ys =>
    obtain ⟨hbegins', hread'⟩ := hcons (List.cons_ne_nil y ys)
    obtain ⟨next, parts, rfl⟩ := exists_parts hbegins'.ne_nil
    rw [separated_cons]
    refine ⟨hbegins.append _, fun fuel rest hfuel => ?_⟩
    obtain ⟨fuel, rfl⟩ : ∃ n, fuel = n + 1 := ⟨fuel - 1, by omega⟩
    simp only [List.length_append, List.length_cons] at hfuel
    have hhead := hread fuel (',' :: ' ' :: (separated (next :: parts) ++ ']' :: rest)) (by omega)
      (stops_cons (.inl rfl) _)
    have htail := hread' fuel rest (by omega)
    rw [List.append_assoc, List.cons_append, List.cons_append, scanItems, hhead]
    simp [skip_cons (by decide : isSpace ',' = false), skip_separator (hbegins'.append _), htail]

/-- An entry whose key is a string. -/
def toEntry (p : Text × Value F) : Value F × Value F := (.str p.1, p.2)

variable (fl) in
def ReadsPairs (pairs : List (Text × Value F)) : Prop :=
  ∃ parts, dumpEntries fl (pairs.map toEntry) = .ok parts ∧ (pairs = [] → parts = []) ∧ (pairs ≠ [] →
    (∃ cs, separated parts = '"' :: cs) ∧ ∀ fuel rest, 2 * (separated parts).length + 1 < fuel →
      scanPairs fl fuel (separated parts ++ '\x7d' :: rest) = some (pairs, rest))

theorem readsPairs_nil : ReadsPairs fl ([] : List (Text × Value F)) := by
  refine ⟨[], rfl, fun _ => rfl, fun h => absurd rfl h⟩

theorem quote_append (k : Text) (cs : List Char) :
    quote k ++ cs = '"' :: (k.flatMap quoteChar ++ '"' :: cs) := by
  simp [quote]

theorem scanPairs_last {k : Text} (hk : hasPair k = false) {part rest : List Char} (hbegins : Begins part)
    {fuel : Nat} {v : Value F}
    (hread : scanValue fl fuel (part ++ '\x7d' :: rest) = some (v, '\x7d' :: rest)) :
    scanPairs fl (fuel + 1) (quote k ++ ':' :: ' ' :: (part ++ '\x7d' :: rest)) =
      some ([(k, v)], rest) := by
  rw [quote_append, scanPairs, scanString_quoted hk]
  simp only [Option.bind_eq_bind, Option.bind_some, skip_cons (by decide : isSpace ':' = false),
    skip_separator (hbegins.append _), hread, skip_cons (by decide : isSpace '\x7d' = false)]
  rfl

theorem scanPairs_more {k : Text} (hk : hasPair k = false) {part cs : List Char} (hbegins : Begins part)
    {fuel : Nat} {v : Value F} (hread : scanValue fl fuel (part ++ ',' :: cs) = some (v, ',' :: cs)) :
    scanPairs fl (fuel + 1) (quote k ++ ':' :: ' ' :: (part ++ ',' :: cs)) =
      (scanPairs fl fuel (skip cs)).map (fun r => ((k, v) :: r.1, r.2)) := by
  rw [quote_append, scanPairs, scanString_quoted hk]
  simp only [Option.bind_eq_bind, Option.bind_some, skip_cons (by decide : isSpace ':' = false),
    skip_separator (hbegins.append _), hread, skip_cons (by decide : isSpace ',' = false)]
  cases scanPairs fl fuel (skip cs) <;> rfl

theorem readsPairs_cons {k : Text} {v : Value F} {pairs : List (Text × Value F)}
    (hk : hasPair k = false) (hv : Reads fl v) (hpairs : ReadsPairs fl pairs) :
    ReadsPairs fl ((k, v) :: pairs) := by
  obtain ⟨part, hpart, hbegins, hread⟩ := hv
  obtain ⟨parts, hparts, hnil, hcons⟩ := hpairs
  have hdump : dumpEntries fl (((k, v) :: pairs).map toEntry) =
      .ok ((quote k ++ ':' :: ' ' :: part) :: parts) := by
    simp only [List.map_cons, toEntry, dumpEntries, keyText, hpart]
    rw [hparts]
    rfl
  refine ⟨_, hdump, by simp, fun _ => ?_⟩
  cases pairs with
  | nil =>
    rw [hnil rfl, separated_singleton]
    refine ⟨⟨_, quote_append k _⟩, fun fuel rest hfuel => ?_⟩
    obtain ⟨fuel, rfl⟩ : ∃ n, fuel = n + 1 := ⟨fuel - 1, by omega⟩
    simp only [List.length_append, List.length_cons] at hfuel
    have hhead := hread fuel ('\x7d' :: rest) (by omega) (stops_cons (.inr (.inr rfl)) rest)
    rw [List.append_assoc, List.cons_append, List.cons_append, scanPairs_last hk hbegins hhead]
  | cons q pairs =>
    obtain ⟨⟨cs, hquote⟩, hread'⟩ := hcons (List.cons_ne_nil q pairs)
    obtain ⟨next, parts, rfl⟩ := exists_parts (by rw [hquote]; exact List.cons_ne_nil _ _)
    have hbegins' : Begins (separated (next :: parts)) := ⟨_, cs, hquote, by decide, by decide⟩
    rw [separated_cons]
    refine ⟨⟨_, by rw [List.append_assoc]; exact quote_append k _⟩, fun fuel rest hfuel => ?_⟩
    obtain ⟨fuel, rfl⟩ : ∃ n, fuel = n + 1 := ⟨fuel - 1, by omega⟩
    simp only [List.length_append, List.length_cons] at hfuel
    have hhead := hread fuel (',' :: ' ' :: (separated (next :: parts) ++ '\x7d' :: rest)) (by omega)
      (stops_cons (.inl rfl) _)
    have htail := hread' fuel rest (by omega)
    have hassoc : (quote k ++ ':' :: ' ' :: part) ++ ',' :: ' ' :: separated (next :: parts) ++
        '\x7d' :: rest = quote k ++ ':' :: ' ' :: (part ++
          ',' :: ' ' :: (separated (next :: parts) ++ '\x7d' :: rest)) := by simp
    rw [hassoc, scanPairs_more hk hbegins hhead, skip_separator (hbegins'.append _), htail]
    rfl

theorem entry_new {k : Text} {v : Value F} {es : List (Text × Value F)} (h : k ∉ es.map Prod.fst) :
    entry k v es = es ++ [(k, v)] := by
  induction es with
  | nil => rfl
  | cons e es ih =>
    rw [List.map_cons, List.mem_cons, not_or] at h
    rw [entry, if_neg (Ne.symm h.1), ih h.2]
    rfl

theorem dictOf_nodup {pairs : List (Text × Value F)} (h : (pairs.map Prod.fst).Nodup) :
    dictOf pairs = .dict (pairs.map toEntry) := by
  have hfold : ∀ (pairs done : List (Text × Value F)), ((done ++ pairs).map Prod.fst).Nodup →
      pairs.foldl (fun es p => entry p.1 p.2 es) done = done ++ pairs := by
    intro pairs
    induction pairs with
    | nil =>
      intro done _
      exact (List.append_nil done).symm
    | cons p pairs ih =>
      intro done hnodup
      have hnew : p.1 ∉ done.map Prod.fst := by
        intro hmem
        rw [List.map_append, List.nodup_append] at hnodup
        exact hnodup.2.2 _ hmem _ List.mem_cons_self rfl
      rw [List.foldl_cons, entry_new hnew, ih _ (by rwa [List.append_assoc]), List.append_assoc]
      rfl
  rw [dictOf, hfold pairs [] h]
  rfl

theorem begins_of_literal (l : Literal) : Begins l.text := by
  obtain ⟨c, cs, htext, hc⟩ := head_of_literal l []
  rw [List.append_nil] at htext
  refine ⟨c, cs, htext, ?_⟩
  obtain hdigit | ⟨rfl, -⟩ := hc
  · have hne : ∀ d : Char, d.isDigit = false → (c == d) = false := by
      intro d hd
      refine beq_eq_false_iff_ne.2 ?_
      rintro rfl
      rw [hd] at hdigit
      cases hdigit
    refine ⟨?_, beq_eq_false_iff_ne.1 (hne ']' (by decide))⟩
    simp [isSpace, hne ' ' (by decide), hne '\t' (by decide), hne '\n' (by decide), hne '\r' (by decide)]
  · exact ⟨by decide, by decide⟩

theorem scanConstant_name : ∀ p ∈ constants fl, ∀ rest,
    scanConstant fl (p.1 ++ rest) = some (p.2, rest) := by
  intro p hp rest
  simp only [constants, List.mem_cons, List.not_mem_nil, or_false] at hp
  obtain rfl | rfl | rfl | rfl | rfl | rfl := hp
  · rfl
  · rfl
  · rfl
  · rfl
  · rfl
  · rfl

theorem head_of_constant : ∀ p ∈ constants fl, ∃ c cs, p.1 = c :: cs ∧
    (isSpace c = false ∧ c ≠ ']') ∧ c ≠ '"' ∧ c ≠ '[' ∧ c ≠ '\x7b' := by
  intro p hp
  simp only [constants, List.mem_cons, List.not_mem_nil, or_false] at hp
  obtain rfl | rfl | rfl | rfl | rfl | rfl := hp
  · exact ⟨'n', _, rfl, by decide⟩
  · exact ⟨'t', _, rfl, by decide⟩
  · exact ⟨'f', _, rfl, by decide⟩
  · exact ⟨'N', _, rfl, by decide⟩
  · exact ⟨'I', _, rfl, by decide⟩
  · exact ⟨'-', _, rfl, by decide⟩

/-- The rule for a value: its text takes one unit of fuel at least. -/
theorem Reads.of_succ {v : Value F} {cs : List Char} (hdump : dumps fl v = .ok cs) (hbegins : Begins cs)
    (hread : ∀ fuel rest, 2 * cs.length < fuel + 1 → Stops rest →
      scanValue fl (fuel + 1) (cs ++ rest) = some (v, rest)) : Reads fl v := by
  refine ⟨cs, hdump, hbegins, fun fuel rest hfuel hrest => ?_⟩
  obtain ⟨fuel, rfl⟩ : ∃ n, fuel = n + 1 := ⟨fuel - 1, by omega⟩
  exact hread fuel rest hfuel hrest

/-- A value that is written as one of the names is read as what the name stands for. -/
theorem reads_constant {p : List Char × Value F} (hp : p ∈ constants fl)
    (hdump : dumps fl p.2 = .ok p.1) : Reads fl p.2 := by
  obtain ⟨c, cs, htext, hbegins, hquote, hbracket, hbrace⟩ := head_of_constant p hp
  refine .of_succ hdump ⟨c, cs, htext, hbegins⟩ fun fuel rest _ _ => ?_
  have hconstant := scanConstant_name p hp rest
  rw [htext, List.cons_append] at hconstant ⊢
  rw [scanValue_atom fl hquote hbracket hbrace, hconstant]
  rfl

theorem reads_int {n : ℤ} (h : (Nat.toDigits 10 n.natAbs).length ≤ 4300) :
    Reads fl (.int n : Value F) := by
  refine .of_succ (intText_ok h) (begins_of_literal _) fun fuel rest _ hrest => ?_
  rw [scanValue_literal, scanNumber_int fl h hrest]

theorem reads_float (hfl : Readable fl) {x : F} (h : fl.eq x x = true) :
    Reads fl (.float x : Value F) := by
  cases hinf : fl.eq x fl.inf with
  | true =>
    have htext : floatText fl x = "Infinity".toList := by simp [floatText, h, hinf]
    rw [hfl.eq_inf x hinf] at htext ⊢
    exact reads_constant (p := ("Infinity".toList, .float fl.inf)) (by simp [constants])
      (congrArg Except.ok htext)
  | false =>
    cases hnegInf : fl.eq x fl.negInf with
    | true =>
      have htext : floatText fl x = "-Infinity".toList := by simp [floatText, h, hinf, hnegInf]
      rw [hfl.eq_negInf x hnegInf] at htext ⊢
      exact reads_constant (p := ("-Infinity".toList, .float fl.negInf)) (by simp [constants])
        (congrArg Except.ok htext)
    | false =>
      obtain ⟨l, hfloat, htext, hvalue⟩ := hfl.repr x h hinf hnegInf
      have hwritten : floatText fl x = l.text := by simp [floatText, h, hinf, hnegInf, htext]
      refine .of_succ (congrArg Except.ok hwritten) (begins_of_literal l) fun fuel rest _ hrest => ?_
      rw [scanValue_literal, scanNumber_literal fl hrest,
        if_pos (show l.fractionText ++ l.exponentText ≠ [] from hfloat), hvalue]

theorem reads_str {s : Text} (h : hasPair s = false) : Reads fl (.str s : Value F) := by
  have hdump : dumps fl (.str s) = .ok (quote s) := rfl
  refine .of_succ hdump ⟨_, _, rfl, by decide, by decide⟩ fun fuel rest _ _ => ?_
  rw [quote_append, scanValue, scanString_quoted h]
  rfl

theorem reads_list {xs : List (Value F)} (h : ReadsItems fl xs) : Reads fl (.list xs) := by
  obtain ⟨parts, hparts, hnil, hcons⟩ := h
  have hdump : dumps fl (.list xs) = .ok ('[' :: (separated parts ++ [']'])) := by
    rw [dumps, hparts]
    rfl
  refine .of_succ hdump ⟨_, _, rfl, by decide, by decide⟩ fun fuel rest hfuel _ => ?_
  rw [List.cons_append, List.append_assoc, scanValue]
  cases xs with
  | nil =>
    rw [hnil rfl]
    rfl
  | cons x xs =>
    obtain ⟨hbegins, hread⟩ := hcons (List.cons_ne_nil x xs)
    simp only [List.length_cons, List.length_append] at hfuel
    have hitems := hread fuel rest (by omega)
    obtain ⟨c, cs', htext, hspace, hclose⟩ := hbegins
    rw [htext] at hitems ⊢
    rw [List.cons_append] at hitems ⊢
    simp only [List.singleton_append, skip_cons hspace]
    split
    next heq => exact absurd (List.cons.inj heq).1 hclose
    next =>
      rw [hitems]
      rfl

theorem reads_dict {pairs : List (Text × Value F)} (hkeys : (pairs.map Prod.fst).Nodup)
    (h : ReadsPairs fl pairs) : Reads fl (.dict (pairs.map toEntry)) := by
  obtain ⟨parts, hparts, hnil, hcons⟩ := h
  have hdump : dumps fl (.dict (pairs.map toEntry)) =
      .ok ('\x7b' :: (separated parts ++ ['\x7d'])) := by
    rw [dumps, hparts]
    rfl
  refine .of_succ hdump ⟨_, _, rfl, by decide, by decide⟩ fun fuel rest hfuel _ => ?_
  rw [List.cons_append, List.append_assoc, scanValue]
  cases pairs with
  | nil =>
    rw [hnil rfl]
    rfl
  | cons p pairs =>
    obtain ⟨⟨cs, htext⟩, hread⟩ := hcons (List.cons_ne_nil p pairs)
    simp only [List.length_cons, List.length_append] at hfuel
    have hpairs := hread fuel rest (by omega)
    rw [htext] at hpairs ⊢
    rw [List.cons_append] at hpairs ⊢
    simp only [List.singleton_append, skip_cons (by decide : isSpace '"' = false)]
    split
    next heq => exact absurd (List.cons.inj heq).1 (by decide)
    next =>
      rw [hpairs, ← dictOf_nodup hkeys]
      rfl

/-- The keys of a plain dict are strings, and no two are the same. -/
theorem lookUp_toEntry {k : Text} {pairs : List (Text × Value F)}
    (h : lookUp k (pairs.map toEntry) = none) : k ∉ pairs.map Prod.fst := by
  induction pairs with
  | nil => exact List.not_mem_nil
  | cons p pairs ih =>
    rw [List.map_cons, toEntry, lookUp] at h
    split at h
    · cases h
    next hne =>
      rw [List.map_cons, List.mem_cons, not_or]
      exact ⟨Ne.symm hne, ih h⟩

theorem keys_nodup {pairs : List (Text × Value F)} (h : plainEntries fl (pairs.map toEntry)) :
    (pairs.map Prod.fst).Nodup := by
  induction pairs with
  | nil => exact List.nodup_nil
  | cons p pairs ih =>
    obtain ⟨⟨-, hnone⟩, -, hrest⟩ := h
    exact List.nodup_cons.2 ⟨lookUp_toEntry hnone, ih hrest⟩

mutual

theorem reads_of_plain (hfl : Readable fl) : ∀ v : Value F, v.Plain fl → Reads fl v
  | .none, _ => reads_constant (p := ("null".toList, .none)) (by simp [constants]) rfl
  | .bool true, _ => reads_constant (p := ("true".toList, .bool true)) (by simp [constants]) rfl
  | .bool false, _ => reads_constant (p := ("false".toList, .bool false)) (by simp [constants]) rfl
  | .int _, h => reads_int h
  | .float _, h => reads_float hfl h
  | .str _, h => reads_str h
  | .list xs, h => reads_list (readsItems_of_plain hfl xs h)
  | .dict es, h => by
    obtain ⟨pairs, rfl, hpairs⟩ := readsPairs_of_plain hfl es h
    exact reads_dict (keys_nodup h) hpairs
  | .tuple _, h => h.elim
  | .object _, h => h.elim

theorem readsItems_of_plain (hfl : Readable fl) :
    ∀ xs : List (Value F), plainItems fl xs → ReadsItems fl xs
  | [], _ => readsItems_nil
  | x :: xs, h => readsItems_cons (reads_of_plain hfl x h.1) (readsItems_of_plain hfl xs h.2)

theorem readsPairs_of_plain (hfl : Readable fl) :
    ∀ es : List (Value F × Value F), plainEntries fl es →
      ∃ pairs, es = pairs.map toEntry ∧ ReadsPairs fl pairs
  | [], _ => ⟨[], rfl, readsPairs_nil⟩
  | (.str k, v) :: es, h => by
    obtain ⟨pairs, rfl, hpairs⟩ := readsPairs_of_plain hfl es h.2.2
    exact ⟨(k, v) :: pairs, rfl, readsPairs_cons h.1.1 (reads_of_plain hfl v h.2.1) hpairs⟩
  | (.none, _) :: _, h | (.bool _, _) :: _, h | (.int _, _) :: _, h | (.float _, _) :: _, h
  | (.list _, _) :: _, h | (.tuple _, _) :: _, h | (.dict _, _) :: _, h | (.object _, _) :: _, h =>
    h.elim

end

/-- The round trip: a plain value is written, and what is written is read as the value. -/
theorem loads_dumps (hfl : Readable fl) {v : Value F} (h : v.Plain fl) :
    ∃ cs, dumps fl v = .ok cs ∧ cs ≠ [] ∧ loads fl cs = .ok v := by
  obtain ⟨cs, hdump, hbegins, hread⟩ := reads_of_plain hfl v h
  have hscan := hread (2 * cs.length + 1) [] (by omega) stops_nil
  rw [List.append_nil] at hscan
  refine ⟨cs, hdump, ?_, ?_⟩
  · exact hbegins.ne_nil
  · rw [loads, skip_begins hbegins, hscan]
    rfl

end Values

end EvalEngine.JsonRoundTrip
