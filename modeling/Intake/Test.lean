import Intake.Number
import Intake.Pattern
import Intake.Violation
import Intake.WordSet

/-!
# Test — what a single value has to be

The tests that look at one value, each with its parameters.  A test has a name, by which findings
refer to it, and a kind of violation.
-/

namespace Intake

inductive Test where
  | string
  | integer (least most : Option Number)
  | number (least most : Option Number) (places : Option Int)
  | boolean
  | uuid
  | date
  /-- The display form is one of the words. -/
  | oneOf (words : WordSet)
  | maxLength (n : Int)
  | minLength (n : Int)
  | matching (pattern : Pattern)
  | notEmpty
  | email
  | array (minSize : Option Int)
  /-- A test that was left open. -/
  | unspecified

namespace Test

def name : Test → String
  | .string      => "is_string"
  | .integer ..  => "is_int"
  | .number ..   => "is_number"
  | .boolean     => "is_boolean"
  | .uuid        => "is_uuid"
  | .date        => "is_date"
  | .oneOf _     => "is_in"
  | .maxLength _ => "max_length"
  | .minLength _ => "min_length"
  | .matching _  => "matches"
  | .notEmpty    => "is_not_empty"
  | .email       => "is_email"
  | .array _     => "is_array"
  | .unspecified => "check"

def kind : Test → ViolationKind
  | .oneOf _     => .enumMembershipViolation
  | .maxLength _ => .rangeViolation
  | .minLength _ => .rangeViolation
  | .notEmpty    => .rangeViolation
  | .matching _  => .patternMismatch
  | .email       => .patternMismatch
  | _            => .typeMismatch

/-- The finding that a value is not what the test asks for. -/
def finding (t : Test) (message : String) : Finding := ⟨t.name, t.kind, message⟩

end Test

end Intake
