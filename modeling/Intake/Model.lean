import Intake.Schema

/-!
# Model — the typed model of a schema

A schema gives each field a type, by the first of its checks that has one.  A field must be given if
its rule is required and always applies; every other field may be null and has the default of its
rule.
-/

namespace Intake

inductive FieldType where
  | text
  | integer
  | number
  | boolean
  | moment
  | list
  | anything
deriving DecidableEq, Repr

/-- The names of types, as annotations show them. -/
def FieldType.name : FieldType → String
  | .text     => "str"
  | .integer  => "int"
  | .number   => "float"
  | .boolean  => "bool"
  | .moment   => "datetime"
  | .list     => "list"
  | .anything => "any"

/-- The type that a test implies, if it implies one. -/
def Test.fieldType? : Test → Option FieldType
  | .string      => some .text
  | .uuid        => some .text
  | .email       => some .text
  | .matching _  => some .text
  | .oneOf _     => some .text
  | .integer ..  => some .integer
  | .number ..   => some .number
  | .boolean     => some .boolean
  | .date        => some .moment
  | .array _     => some .list
  | .maxLength _ => none
  | .minLength _ => none
  | .notEmpty    => none
  | .unspecified => none

def Check.fieldType? : Check → Option FieldType
  | .test t _  => t.fieldType?
  | .items _ _ => none

structure ModelField where
  name     : String
  type     : FieldType
  required : Bool
  default  : Value

/-- The annotation of a field, with a question mark if the field may be null. -/
def ModelField.annotation (f : ModelField) : String := f.type.name ++ if f.required then "" else "?"

structure Model where
  name   : String
  fields : List ModelField

def Rule.fieldType (r : Rule) : FieldType := (r.checks.findSome? Check.fieldType?).getD .anything

def Rule.modelField (r : Rule) : ModelField :=
  let required := r.required && r.condition.isNone
  ⟨r.name, r.fieldType, required, if required then .null else r.default⟩

def Schema.model (s : Schema) : Model := ⟨s.name, s.rules.map (·.modelField)⟩

end Intake
