import Mathlib.Data.List.Infix

namespace EvalEngine.PythonText

/-- `str.isspace` of one character. -/
def isSpace (c : Char) : Bool :=
  let n := c.toNat
  (9 ≤ n && n ≤ 13) || (28 ≤ n && n ≤ 32) || n = 0x85 || n = 0xA0 || n = 0x1680 ||
    (0x2000 ≤ n && n ≤ 0x200A) || n = 0x2028 || n = 0x2029 || n = 0x202F || n = 0x205F ||
    n = 0x3000

/-- `str.strip`. -/
def strip (cs : List Char) : List Char :=
  ((cs.dropWhile isSpace).reverse.dropWhile isSpace).reverse

/-- `kw in text`. -/
def isIn (kw text : String) : Bool := decide (kw.toList <:+: text.toList)

theorem isIn_trans {kw s t : String} (h : isIn kw s = true) (hst : s.toList <:+: t.toList) :
    isIn kw t = true :=
  decide_eq_true ((of_decide_eq_true h).trans hst)

/-- What the running interpreter's Unicode tables say. `lower` is `str.lower`
and `isAlnum` is `str.isalnum` of one character. -/
structure UnicodeTables where
  lower : String → String
  isAlnum : Char → Bool
  nul_not_alnum : isAlnum (Char.ofNat 0) = false

/-- The class `\w` of a regular expression on text. -/
def UnicodeTables.isWord (u : UnicodeTables) (c : Char) : Bool := u.isAlnum c || c == '_'

end EvalEngine.PythonText
