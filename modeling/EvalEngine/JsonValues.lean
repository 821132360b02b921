import Mathlib.Data.Rat.Defs

namespace EvalEngine.JsonValues

/-- Decoded JSON, as the JSONB columns and the task messages carry it. -/
inductive Json
  | null
  | bool (b : Bool)
  | num (q : ℚ)
  | str (s : String)
  | arr (items : List Json)
  | obj (fields : List (String × Json))

/-- A Python dict with string keys, in insertion order. -/
abbrev Dict := List (String × Json)

def find (key : String) : Dict → Option Json
  | [] => none
  | (k, v) :: d => if k = key then some v else find key d

/-- The dict display `{**d, key: value}`: an existing key keeps its place. -/
def set (key : String) (value : Json) : Dict → Dict
  | [] => [(key, value)]
  | (k, v) :: d => if k = key then (key, value) :: d else (k, v) :: set key value d

/-- Python truth of a decoded value. -/
def Json.truthy : Json → Bool
  | .null => false
  | .bool b => b
  | .num q => decide (q ≠ 0)
  | .str s => s != ""
  | .arr items => !items.isEmpty
  | .obj fields => !fields.isEmpty

/-- The number that a boolean or a number is in a comparison. -/
def Json.number? : Json → Option ℚ
  | .bool b => some (if b then 1 else 0)
  | .num q => some q
  | _ => none

mutual

/-- The `==` of two decoded values: `True` is `1`, and a dict has no order. -/
def Json.equal : Json → Json → Bool
  | .null, .null => true
  | .bool b, w => decide (w.number? = (Json.bool b).number?)
  | .num q, w => decide (w.number? = some q)
  | .str s, .str t => decide (s = t)
  | .arr xs, .arr ys => itemsEqual xs ys
  | .obj fs, .obj gs => decide (fs.length = gs.length) && fieldsEqual fs gs
  | _, _ => false

def itemsEqual : List Json → List Json → Bool
  | [], [] => true
  | x :: xs, y :: ys => x.equal y && itemsEqual xs ys
  | _, _ => false

def fieldsEqual : List (String × Json) → Dict → Bool
  | [], _ => true
  | (k, v) :: fs, gs => (find k gs).any v.equal && fieldsEqual fs gs

end

def dictEqual (d e : Dict) : Bool := (Json.obj d).equal (.obj e)

theorem find_cons_self (key : String) (value : Json) (d : Dict) :
    find key ((key, value) :: d) = some value := if_pos rfl

theorem set_set (key : String) (value : Json) (d : Dict) :
    set key value (set key value d) = set key value d := by
  induction d with
  | nil => simp [set]
  | cons p d ih =>
    by_cases h : p.1 = key
    · simp [set, h]
    · simpa [set, h] using ih

/-- PostgreSQL has no NUL character in its text types. -/
def textStorable (s : String) : Bool := s.toList.all (fun c => decide (c ≠ Char.ofNat 0))

/-- A value of a VARCHAR(n) column. -/
def varchar (n : Nat) (s : String) : Bool := decide (s.length ≤ n) && textStorable s

theorem textStorable_ofList (cs : List Char) :
    textStorable (String.ofList cs) = cs.all (fun c => decide (c ≠ Char.ofNat 0)) := by
  rw [textStorable, String.toList_ofList]

theorem varchar_ofList (n : Nat) (cs : List Char) : varchar n (String.ofList cs) =
    (decide (cs.length ≤ n) && cs.all (fun c => decide (c ≠ Char.ofNat 0))) := by
  rw [varchar, textStorable_ofList, String.length_ofList]

theorem textStorable_append (s t : String) :
    textStorable (s ++ t) = (textStorable s && textStorable t) := by
  simp only [textStorable, String.toList_append, List.all_append]

theorem textStorable_toString (n : Nat) : textStorable (toString n) = true := by
  have hrepr : toString n = String.ofList (Nat.toDigits 10 n) := rfl
  rw [hrepr, textStorable_ofList, List.all_eq_true]
  intro c hc
  have hdigit := Nat.isDigit_of_mem_toDigits (by decide) (by decide) hc
  apply decide_eq_true
  rintro rfl
  exact absurd hdigit (by decide)

theorem textStorable_toString_int (n : ℤ) : textStorable (toString n) = true := by
  cases n with
  | ofNat n => exact textStorable_toString n
  | negSucc n =>
    have hneg : toString (Int.negSucc n) = "-" ++ toString (n + 1) := rfl
    have hsign : textStorable "-" = true := by decide
    rw [hneg, textStorable_append, hsign, textStorable_toString]
    rfl

mutual

def Json.storable : Json → Bool
  | .null | .bool _ | .num _ => true
  | .str s => textStorable s
  | .arr xs => itemsStorable xs
  | .obj fs => dictStorable fs

def itemsStorable : List Json → Bool
  | [] => true
  | x :: xs => x.storable && itemsStorable xs

def dictStorable : List (String × Json) → Bool
  | [] => true
  | (k, v) :: fs => textStorable k && v.storable && dictStorable fs

end

theorem itemsStorable_texts (texts : List String) :
    itemsStorable (texts.map Json.str) = texts.all textStorable := by
  induction texts with
  | nil => rfl
  | cons s texts ih => rw [List.map_cons, itemsStorable, ih, List.all_cons, Json.storable]

theorem dictStorable_set {key : String} {value : Json} {d : Dict} (hkey : textStorable key = true)
    (hvalue : value.storable = true) (hd : dictStorable d = true) :
    dictStorable (set key value d) = true := by
  induction d with
  | nil => simp [set, dictStorable, hkey, hvalue]
  | cons p d ih =>
    simp only [dictStorable, Bool.and_eq_true] at hd
    rw [set]
    split
    · simp only [dictStorable, hkey, hvalue, hd.2, Bool.and_self]
    · simp only [dictStorable, hd.1.1, hd.1.2, ih hd.2, Bool.and_self]

end EvalEngine.JsonValues
