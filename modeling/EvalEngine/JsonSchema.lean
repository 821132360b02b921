import Mathlib.Algebra.Order.Ring.Rat
import EvalEngine.PythonValues

namespace EvalEngine.JsonSchema

open EvalEngine.PythonValues

/-- A float: an exact number, or one of the three that JSON decoding also makes. -/
inductive PyFloat
  | finite (q : ℚ)
  | inf
  | negInf
  | nan
  deriving DecidableEq

abbrev PyValue := Value PyFloat

/-- `x < bound`, which is false of a NaN. -/
def PyFloat.below (bound : ℚ) : PyFloat → Bool
  | .finite q => decide (q < bound)
  | .negInf => true
  | .inf | .nan => false

def PyFloat.above (bound : ℚ) : PyFloat → Bool
  | .finite q => decide (bound < q)
  | .inf => true
  | .negInf | .nan => false

def below (bound : ℚ) : Number PyFloat → Bool
  | .int n => decide ((n : ℚ) < bound)
  | .float x => x.below bound

def above (bound : ℚ) : Number PyFloat → Bool
  | .int n => decide (bound < (n : ℚ))
  | .float x => x.above bound

def isText : PyValue → Bool
  | .str _ => true
  | _ => false

/-- A JSON number. A boolean is not one. -/
def jsonNumber? : PyValue → Option (Number PyFloat)
  | .int n => some (.int n)
  | .float x => some (.float x)
  | _ => Option.none

/-- The part of JSON Schema that describes nested records of numbers and texts. -/
inductive Schema
  | string
  | number (minimum maximum : ℚ)
  | array (items : Schema)
  | object (required : List String) (properties : List (String × Schema))

def field? (key : String) (entries : List (PyValue × PyValue)) : Option PyValue :=
  lookUp (text key) entries

theorem codePoint_injective : Function.Injective codePoint := by
  intro c d h
  have hval : c.toNat = d.toNat := congrArg (fun x : CodePoint => x.val) h
  exact Char.toNat_inj.1 hval

theorem text_inj {s t : String} : text s = text t ↔ s = t := by
  rw [text, text, (List.map_injective_iff.2 codePoint_injective).eq_iff]
  exact String.toList_inj

@[simp] theorem field?_nil (key : String) : field? key [] = none := rfl

@[simp] theorem field?_cons (key k : String) (v : PyValue) (entries : List (PyValue × PyValue)) :
    field? key ((.str (text k), v) :: entries) = if k = key then some v else field? key entries := by
  simp only [field?, lookUp, text_inj]

mutual

def Schema.accepts : Schema → PyValue → Bool
  | .string, v => isText v
  | .number minimum maximum, v =>
    (jsonNumber? v).any (fun n => !below minimum n && !above maximum n)
  | .array items, .list vs => vs.all items.accepts
  | .object required properties, .dict entries =>
    required.all (fun key => (field? key entries).isSome) && acceptsProperties properties entries
  | _, _ => false

/-- A property that is not there is not checked. -/
def acceptsProperties : List (String × Schema) → List (PyValue × PyValue) → Bool
  | [], _ => true
  | (key, schema) :: properties, entries =>
    (field? key entries).all schema.accepts && acceptsProperties properties entries

end

theorem acceptsProperties_iff {properties : List (String × Schema)} {entries : List (PyValue × PyValue)} :
    acceptsProperties properties entries = true ↔
      ∀ p ∈ properties, ∀ v, field? p.1 entries = some v → p.2.accepts v = true := by
  induction properties with
  | nil => simp [acceptsProperties]
  | cons p properties ih =>
    rw [acceptsProperties, Bool.and_eq_true, ih, List.forall_mem_cons]
    apply and_congr_left'
    cases field? p.1 entries with
    | none => simp
    | some v => simp

theorem accepts_object_iff {required : List String} {properties : List (String × Schema)}
    {entries : List (PyValue × PyValue)} :
    (Schema.object required properties).accepts (.dict entries) = true ↔
      (∀ key ∈ required, ∃ v, field? key entries = some v) ∧
        ∀ p ∈ properties, ∀ v, field? p.1 entries = some v → p.2.accepts v = true := by
  rw [Schema.accepts, Bool.and_eq_true, acceptsProperties_iff, List.all_eq_true]
  simp only [Option.isSome_iff_exists]

theorem accepts_string_iff {v : PyValue} : Schema.string.accepts v = true ↔ ∃ s, v = .str s := by
  cases v with
  | str s => exact ⟨fun _ => ⟨s, rfl⟩, fun _ => rfl⟩
  | none | bool | int | float | list | tuple | dict | object =>
    constructor
    · intro h
      cases h
    · rintro ⟨s, hs⟩
      cases hs

/-- A list of texts. -/
theorem accepts_texts_iff {v : PyValue} : (Schema.array .string).accepts v = true ↔
    ∃ items, v = .list items ∧ ∀ item ∈ items, ∃ s, item = .str s := by
  cases v with
  | list items =>
    rw [Schema.accepts, List.all_eq_true]
    simp only [accepts_string_iff, Value.list.injEq, exists_eq_left']
  | none | bool | int | float | str | tuple | dict | object =>
    constructor
    · intro h
      cases h
    · rintro ⟨items, hitems, _⟩
      cases hitems

end EvalEngine.JsonSchema
