import Mathlib.Data.List.Basic

namespace EvalEngine.FromAttributes

variable {V T : Type}

/-- A required field of a schema, with the alias under which it is looked up
first. -/
structure SchemaField (T : Type) where
  name : String
  aliasName : Option String := none
  type : T
  deriving DecidableEq

inductive Defect
  | missing
  | wrongType
  deriving DecidableEq, Repr

structure FieldError where
  loc : String
  defect : Defect
  deriving DecidableEq, Repr

/-- The attributes of an object. -/
abbrev Attributes (V : Type) := List (String × V)

theorem lookup_cons_of_ne {name other : String} (h : name ≠ other) (v : V) (obj : Attributes V) :
    List.lookup name ((other, v) :: obj) = List.lookup name obj := by
  rw [List.lookup_cons, beq_false_of_ne h]

namespace SchemaField

def find (obj : Attributes V) (field : SchemaField T) : Option V :=
  (field.aliasName.bind fun name => List.lookup name obj).or (List.lookup field.name obj)

/-- The name that an error gives. -/
def loc (field : SchemaField T) : String := field.aliasName.getD field.name

variable (accepts : T → V → Bool) (obj : Attributes V)

/-- What is wrong with a field of the object, if anything is. -/
def error (field : SchemaField T) : Option FieldError :=
  match field.find obj with
  | none => some ⟨field.loc, .missing⟩
  | some v => if accepts field.type v then none else some ⟨field.loc, .wrongType⟩

/-- The field is found, with a value of its type. -/
def Holds (field : SchemaField T) : Prop := ∃ v, field.find obj = some v ∧ accepts field.type v = true

end SchemaField

section Validate

variable (accepts : T → V → Bool) (schema : List (SchemaField T)) (obj : Attributes V)

/-- Validation of an object by its attributes: every field is checked, and every
error is reported. -/
def modelValidate : Except (List FieldError) (Attributes V) :=
  match schema.filterMap (SchemaField.error accepts obj) with
  | [] => .ok (schema.filterMap fun field => (field.find obj).map (field.name, ·))
  | errors => .error errors

def Validates : Prop := ∃ values, modelValidate accepts schema obj = .ok values

variable {accepts schema obj}

theorem error_eq_none_iff {field : SchemaField T} :
    field.error accepts obj = none ↔ field.Holds accepts obj := by
  unfold SchemaField.error SchemaField.Holds
  cases field.find obj with
  | none => simp
  | some v => simp

theorem validates_iff : Validates accepts schema obj ↔ ∀ field ∈ schema, field.Holds accepts obj := by
  have herrors : Validates accepts schema obj ↔ schema.filterMap (SchemaField.error accepts obj) = [] := by
    unfold Validates modelValidate
    cases schema.filterMap (SchemaField.error accepts obj) <;> simp
  rw [herrors, List.filterMap_eq_nil_iff]
  exact forall₂_congr fun _ _ => error_eq_none_iff

/-- A field that does not hold makes the validation fail. -/
theorem modelValidate_error (h : ¬ Validates accepts schema obj) :
    ∃ errors, modelValidate accepts schema obj = .error errors := by
  cases hv : modelValidate accepts schema obj with
  | ok values => exact absurd ⟨values, hv⟩ h
  | error errors => exact ⟨errors, rfl⟩

/-- Each error names a field of the schema that does not hold. -/
theorem error_names_field {errors : List FieldError} (h : modelValidate accepts schema obj = .error errors) :
    ∀ e ∈ errors, ∃ field ∈ schema, e.loc = field.loc ∧ ¬ field.Holds accepts obj := by
  have herrors : schema.filterMap (SchemaField.error accepts obj) = errors := by
    unfold modelValidate at h
    split at h
    · cases h
    · exact Except.error.inj h
  intro e he
  rw [← herrors] at he
  obtain ⟨field, hmem, hfield⟩ := List.mem_filterMap.1 he
  refine ⟨field, hmem, ?_, fun hholds => ?_⟩
  · unfold SchemaField.error at hfield
    split at hfield
    · cases hfield
      rfl
    · split at hfield
      · cases hfield
      · cases hfield
        rfl
  · rw [error_eq_none_iff.2 hholds] at hfield
    cases hfield

end Validate

end EvalEngine.FromAttributes
