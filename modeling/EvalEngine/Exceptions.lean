import EvalEngine.JsonValues
import Mathlib.Data.Nat.Bitwise

namespace EvalEngine.Exceptions

open EvalEngine.JsonValues

abbrev UUID := Nat

def hexDigits (id : UUID) : List Char :=
  ((List.range 32).map (fun i => Nat.digitChar ((id >>> (4 * i)) % 16))).reverse

/-- The five groups of 32 hexadecimal digits. -/
def uuidGroups (digits : List Char) : List Char :=
  digits.take 8 ++ '-' :: (digits.drop 8).take 4 ++ '-' :: (digits.drop 12).take 4 ++
    '-' :: (digits.drop 16).take 4 ++ '-' :: digits.drop 20

/-- `str(uuid)`. -/
def uuidText (id : UUID) : String := String.ofList (uuidGroups (hexDigits id))

theorem length_uuidGroups (digits : List Char) (h : digits.length = 32) :
    (uuidGroups digits).length = 36 := by
  simp [uuidGroups, h]

theorem length_uuidText (id : UUID) : (uuidText id).length = 36 := by
  have h : (hexDigits id).length = 32 := by
    unfold hexDigits
    rw [List.length_reverse, List.length_map, List.length_range]
  rw [uuidText, String.length_ofList]
  exact length_uuidGroups _ h

theorem mem_uuidGroups {digits : List Char} {c : Char} (h : c ∈ uuidGroups digits) :
    c = '-' ∨ c ∈ digits := by
  simp only [uuidGroups, List.mem_append, List.mem_cons] at h
  grind [List.mem_of_mem_take, List.mem_of_mem_drop]

theorem digitChar_ne_nul (d : Nat) (h : d < 16) : Nat.digitChar d ≠ Char.ofNat 0 := by
  have hall : ∀ d : Fin 16, Nat.digitChar d ≠ Char.ofNat 0 := by decide
  exact hall ⟨d, h⟩

theorem textStorable_uuidText (id : UUID) : textStorable (uuidText id) = true := by
  apply List.all_eq_true.2
  intro c hc
  rw [uuidText, String.toList_ofList] at hc
  apply decide_eq_true
  obtain rfl | hc := mem_uuidGroups hc
  · decide
  · obtain ⟨i, _, rfl⟩ := List.mem_map.1 (List.mem_reverse.1 hc)
    exact digitChar_ne_nul _ (Nat.mod_lt _ (by decide))

theorem varchar_uuidText {n : Nat} (h : 36 ≤ n) (id : UUID) : varchar n (uuidText id) = true := by
  simp [varchar, length_uuidText, textStorable_uuidText, h]

theorem digitChar_inj {d e : Nat} (hd : d < 16) (he : e < 16)
    (h : Nat.digitChar d = Nat.digitChar e) : d = e := by
  have hall : ∀ d e : Fin 16, Nat.digitChar d = Nat.digitChar e → d = e := by decide
  exact Fin.mk.inj_iff.1 (hall ⟨d, hd⟩ ⟨e, he⟩ h)

theorem digitChar_ne_hyphen {d : Nat} (h : d < 16) : Nat.digitChar d ≠ '-' := by
  have hall : ∀ d : Fin 16, Nat.digitChar d ≠ '-' := by decide
  exact hall ⟨d, h⟩

theorem not_hyphen_of_mem_hexDigits {id : UUID} {c : Char} (h : c ∈ hexDigits id) : c ≠ '-' := by
  obtain ⟨i, _, rfl⟩ := List.mem_map.1 (List.mem_reverse.1 h)
  exact digitChar_ne_hyphen (Nat.mod_lt _ (by decide))

/-- The digits are what is left of the groups without the hyphens. -/
theorem filter_uuidGroups {digits : List Char} (h : ∀ c ∈ digits, c ≠ '-') :
    (uuidGroups digits).filter (fun c => c != '-') = digits := by
  have hkeep : ∀ part : List Char, (∀ c ∈ part, c ∈ digits) →
      part.filter (fun c => c != '-') = part := by
    intro part hpart
    apply List.filter_eq_self.2
    intro c hc
    simpa using h c (hpart c hc)
  have htake : ∀ m n, ∀ c ∈ (digits.drop m).take n, c ∈ digits :=
    fun m n c hc => List.mem_of_mem_drop (List.mem_of_mem_take hc)
  have hjoin : ∀ m n, (digits.drop m).take n ++ digits.drop (m + n) = digits.drop m := by
    intro m n
    rw [← List.drop_drop, List.take_append_drop]
  simp only [uuidGroups, List.filter_append, List.filter_cons, bne_self_eq_false, Bool.false_eq_true,
    if_false, hkeep _ (htake 8 4), hkeep _ (htake 12 4), hkeep _ (htake 16 4),
    hkeep _ fun c hc => List.mem_of_mem_take hc, hkeep _ fun c hc => List.mem_of_mem_drop hc]
  rw [List.append_assoc, List.append_assoc, List.append_assoc, hjoin 16 4, hjoin 12 4, hjoin 8 4,
    List.take_append_drop]

theorem testBit_eq_of_hexDigits {a b : UUID} (h : hexDigits a = hexDigits b) {j : Nat} (hj : j < 128) :
    a.testBit j = b.testBit j := by
  have hmap := List.map_inj_left.1 (List.reverse_inj.1 h) (j / 4)
    (List.mem_range.2 (by omega))
  have hnibble := digitChar_inj (Nat.mod_lt _ (by decide)) (Nat.mod_lt _ (by decide)) hmap
  have hbit : ∀ c : Nat, c.testBit j = ((c >>> (4 * (j / 4))) % 2 ^ 4).testBit (j % 4) := by
    intro c
    have hr : j % 4 < 4 := Nat.mod_lt _ (by decide)
    rw [Nat.testBit_mod_two_pow, decide_eq_true hr, Bool.true_and, Nat.testBit_shiftRight,
      Nat.div_add_mod]
  rw [hbit a, hbit b]
  exact congrArg (fun n => Nat.testBit n (j % 4)) hnibble

theorem uuidText_inj {a b : UUID} (ha : a < 2 ^ 128) (hb : b < 2 ^ 128)
    (h : uuidText a = uuidText b) : a = b := by
  have hgroups := congrArg (List.filter fun c => c != '-') (String.ofList_injective h)
  rw [filter_uuidGroups fun c => not_hyphen_of_mem_hexDigits,
    filter_uuidGroups fun c => not_hyphen_of_mem_hexDigits] at hgroups
  apply Nat.eq_of_testBit_eq
  intro j
  obtain hj | hj := Nat.lt_or_ge j 128
  · exact testBit_eq_of_hexDigits hgroups hj
  · have hle : 2 ^ 128 ≤ 2 ^ j := Nat.pow_le_pow_right (by decide) hj
    rw [Nat.testBit_lt_two_pow (ha.trans_le hle), Nat.testBit_lt_two_pow (hb.trans_le hle)]

/-- The exceptions the services and the tasks can let escape. The first three
are the application errors that a stated guard raises. -/
inductive PyException
  | notFound (resource : String) (resourceId : UUID)
  | conflict (message : String)
  | unauthorized (message : String)
  | valueError (message : String)
  | typeError (message : String)
  | attributeError (owner name : String)
  | notImplemented
  | noResultFound
  | multipleResultsFound
  | databaseError (message : String)
  | failure (message : String)
  deriving DecidableEq, Repr

/-- `str(exc)`. -/
def PyException.str : PyException → String
  | .notFound resource resourceId =>
    resource ++ " with id '" ++ uuidText resourceId ++ "' not found"
  | .conflict message | .unauthorized message => message
  | .valueError message | .typeError message => message
  | .attributeError owner name => owner ++ " has no attribute '" ++ name ++ "'"
  | .notImplemented => ""
  | .noResultFound => "No row was found when one was required"
  | .multipleResultsFound => "Multiple rows were found when one or none was required"
  | .databaseError message | .failure message => message

def PyException.isGuard : PyException → Bool
  | .notFound _ _ | .conflict _ | .unauthorized _ => true
  | _ => false

end EvalEngine.Exceptions
