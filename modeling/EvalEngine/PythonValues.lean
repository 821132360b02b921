import Mathlib.Data.Int.Notation
import Mathlib.Data.List.Nodup

namespace EvalEngine.PythonValues

/-- The elements of a Python string, which may be surrogates. -/
abbrev CodePoint := Fin 0x110000

abbrev Text := List CodePoint

def codePoint (c : Char) : CodePoint :=
  ⟨c.toNat, by obtain h | h := c.valid <;> simp only [Char.toNat] <;> omega⟩

def text (s : String) : Text := s.toList.map codePoint

/-- The type `float`. A text is what `float.__repr__` writes and `float` reads, and an operation
without a value raises. -/
structure Floats (F : Type) where
  nan : F
  inf : F
  negInf : F
  eq : F → F → Bool
  eqInt : F → ℤ → Bool
  ge : F → F → Bool
  neg : F → F
  add : F → F → F
  sub : F → F → F
  mul : F → F → F
  ofInt : ℤ → Option F
  log : F → Option F
  repr : F → List Char
  ofText : List Char → F

/-- The values that a function returns. An `object` is one that JSON cannot write. -/
inductive Value (F : Type)
  | none
  | bool (b : Bool)
  | int (n : ℤ)
  | float (x : F)
  | str (s : Text)
  | list (items : List (Value F))
  | tuple (items : List (Value F))
  | dict (entries : List (Value F × Value F))
  | object (id : Nat)

inductive BuiltinError
  | attributeError
  | keyError
  | overflowError
  | typeError
  | valueError
  deriving DecidableEq, Repr

variable {F : Type} (fl : Floats F)

/-- An operand of arithmetic: a `bool` is an `int`. -/
inductive Number (F : Type)
  | int (n : ℤ)
  | float (x : F)

def Value.number? : Value F → Option (Number F)
  | .bool b => some (.int (if b then 1 else 0))
  | .int n => some (.int n)
  | .float x => some (.float x)
  | _ => Option.none

def Number.equal : Number F → Number F → Bool
  | .int m, .int n => decide (m = n)
  | .int m, .float y => fl.eqInt y m
  | .float x, .int n => fl.eqInt x n
  | .float x, .float y => fl.eq x y

def numbersEqual (v w : Value F) : Bool :=
  v.number?.any (fun m => w.number?.any (m.equal fl))

mutual

/-- The `==` of two values. -/
def Value.equal : Value F → Value F → Bool
  | .none, .none => true
  | .str s, .str t => decide (s = t)
  | .list xs, .list ys => itemsEqual xs ys
  | .tuple xs, .tuple ys => itemsEqual xs ys
  | .dict es, .dict gs => decide (es.length = gs.length) && entriesEqual es gs
  | .object i, .object j => decide (i = j)
  | .bool b, w => numbersEqual fl (.bool b) w
  | .int n, w => numbersEqual fl (.int n) w
  | .float x, w => numbersEqual fl (.float x) w
  | _, _ => false

def itemsEqual : List (Value F) → List (Value F) → Bool
  | [], [] => true
  | x :: xs, y :: ys => x.equal y && itemsEqual xs ys
  | _, _ => false

def entriesEqual : List (Value F × Value F) → List (Value F × Value F) → Bool
  | [], _ => true
  | (k, v) :: es, gs => gs.any (fun e => k.equal e.1 && v.equal e.2) && entriesEqual es gs

end

/-- `d.get(key)` of a dict whose keys are strings. -/
def lookUp (key : Text) : List (Value F × Value F) → Option (Value F)
  | [] => Option.none
  | (.str k, v) :: entries => if k = key then some v else lookUp key entries
  | _ :: entries => lookUp key entries

/-- A surrogate pair, which a JSON text cannot tell from the character that it encodes. -/
def isHigh (c : CodePoint) : Bool := decide (0xD800 ≤ c.val) && decide (c.val < 0xDC00)

def isLow (c : CodePoint) : Bool := decide (0xDC00 ≤ c.val) && decide (c.val < 0xE000)

def hasPair : Text → Bool
  | high :: low :: s => (isHigh high && isLow low) || hasPair (low :: s)
  | _ => false

mutual

/-- Values that are built as decoded JSON is, without a NaN. -/
def Value.Plain : Value F → Prop
  | .none | .bool _ => True
  | .int n => (Nat.toDigits 10 n.natAbs).length ≤ 4300
  | .float x => fl.eq x x = true
  | .str s => hasPair s = false
  | .list xs => plainItems xs
  | .dict es => plainEntries es
  | .tuple _ | .object _ => False

def plainItems : List (Value F) → Prop
  | [] => True
  | x :: xs => x.Plain ∧ plainItems xs

/-- The keys are strings, and no two are the same. -/
def plainEntries : List (Value F × Value F) → Prop
  | [] => True
  | (.str k, v) :: es =>
    (hasPair k = false ∧ lookUp k es = Option.none) ∧ v.Plain ∧ plainEntries es
  | _ :: _ => False

end

variable {fl}

mutual

theorem Value.equal_self : ∀ {v : Value F}, v.Plain fl → v.equal fl v = true
  | .none, _ => rfl
  | .bool b, _ => by cases b <;> rfl
  | .int n, _ => by simp [Value.equal, numbersEqual, Value.number?, Number.equal]
  | .float x, h => by
    simpa [Value.equal, numbersEqual, Value.number?, Number.equal, Value.Plain] using h
  | .str s, _ => by simp [Value.equal]
  | .list xs, h => by
    rw [Value.equal]
    exact itemsEqual_self h
  | .dict es, h => by
    rw [Value.equal, decide_eq_true rfl, Bool.true_and]
    exact entriesEqual_self h fun e he => he
  | .tuple xs, h => h.elim
  | .object i, h => h.elim

theorem itemsEqual_self : ∀ {xs : List (Value F)}, plainItems fl xs → itemsEqual fl xs xs = true
  | [], _ => rfl
  | x :: xs, h => by
    rw [itemsEqual, Value.equal_self h.1, Bool.true_and]
    exact itemsEqual_self h.2

theorem entriesEqual_self : ∀ {es gs : List (Value F × Value F)}, plainEntries fl es →
    (∀ e ∈ es, e ∈ gs) → entriesEqual fl es gs = true
  | [], _, _, _ => rfl
  | (.str k, v) :: es, gs, h, hmem => by
    have hhead : gs.any (fun e => (Value.str k).equal fl e.1 && v.equal fl e.2) = true := by
      refine List.any_eq_true.2 ⟨(.str k, v), hmem _ List.mem_cons_self, ?_⟩
      have hkey : (Value.str k).equal fl (Value.str k) = true := by simp [Value.equal]
      rw [hkey, Value.equal_self h.2.1, Bool.true_and]
    rw [entriesEqual, hhead, Bool.true_and]
    exact entriesEqual_self h.2.2 fun e he => hmem e (List.mem_cons_of_mem _ he)
  | (.none, _) :: _, _, h, _ | (.bool _, _) :: _, _, h, _ | (.int _, _) :: _, _, h, _
  | (.float _, _) :: _, _, h, _ | (.list _, _) :: _, _, h, _ | (.tuple _, _) :: _, _, h, _
  | (.dict _, _) :: _, _, h, _ | (.object _, _) :: _, _, h, _ => h.elim

end

end EvalEngine.PythonValues
