import Intake.Test
import Intake.Value.Equality

/-!
# Schema — the rules of a record

A schema is a named list of rules, one for each field that it declares.  A rule has checks in order,
says whether its field is required and what stands in for it, and may apply only to some records.  A
check is a test of the value, or asks that every item of a list is valid under a schema.
-/

namespace Intake

/-- When a rule applies to a record. -/
inductive Condition where
  /-- The field has the value; a missing field has the value null. -/
  | equals (field : String) (v : Value)
  | present (field : String)
  | truthy (field : String)
  /-- Anything else that can be asked of a record. -/
  | predicate (p : Entries → Bool)

def Condition.holds : Condition → Entries → Bool
  | .equals field v, r => (r.getD field).sameAs v
  | .present field,  r => r.has field
  | .truthy field,   r => (r.getD field).isTruthy
  | .predicate p,    r => p r

mutual

/-- A check with the message that replaces its own, if it has one. -/
inductive Check where
  | test (t : Test) (message : Option String)
  | items (schema : Option Schema) (message : Option String)

structure Rule where
  name      : String
  checks    : List Check
  required  : Bool
  /-- What stands in for a missing value; null if nothing does. -/
  default   : Value
  condition : Option Condition

structure Schema where
  name  : String
  rules : List Rule

end

namespace Check

/-- The name of the check of items. -/
def itemsName : String := "validate_nested"

def name : Check → String
  | .test t _  => t.name
  | .items _ _ => itemsName

def message? : Check → Option String
  | .test _ m  => m
  | .items _ m => m

end Check

namespace Rule

/-- The same rule for a field that may be missing, which nothing stands in for. -/
def asOptional (r : Rule) : Rule := { r with required := false, default := .null }

def appliesTo (r : Rule) (record : Entries) : Bool :=
  match r.condition with
  | some c => c.holds record
  | none   => true

end Rule

namespace Schema

def fieldNames (s : Schema) : List String := s.rules.map (·.name)

def rule? (s : Schema) (name : String) : Option Rule := s.rules.find? (·.name == name)

/-- Whether a key is the name of a field. -/
def declares (s : Schema) (key : Value) : Bool :=
  match key with
  | .text name => s.fieldNames.contains name
  | _          => false

end Schema

end Intake
