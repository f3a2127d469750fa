/-!
# Violation — what is wrong with a record

A check that a value does not pass makes a finding; a violation is a finding at a field.
-/

namespace Intake

inductive ViolationKind where
  | missingRequiredField
  | typeMismatch
  | rangeViolation
  | patternMismatch
  | enumMembershipViolation
  | unknownField
deriving DecidableEq, Repr

def ViolationKind.name : ViolationKind → String
  | .missingRequiredField    => "missing_required_field"
  | .typeMismatch            => "type_mismatch"
  | .rangeViolation          => "range_violation"
  | .patternMismatch         => "pattern_mismatch"
  | .enumMembershipViolation => "enum_membership_violation"
  | .unknownField            => "unknown_field"

structure Finding where
  check   : String
  kind    : ViolationKind
  message : String
deriving DecidableEq, Repr

structure Violation where
  field   : String
  check   : String
  kind    : ViolationKind
  message : String
deriving DecidableEq, Repr

/-- A finding at a field. -/
def Finding.at (f : Finding) (field : String) : Violation := ⟨field, f.check, f.kind, f.message⟩

/-- A finding under a message of its own, if that message is not empty. -/
def Finding.withMessage (f : Finding) : Option String → Finding
  | some m => if m = "" then f else { f with message := m }
  | none   => f

/-- A violation within the item that is reached by a path. -/
def Violation.under (path : String) (v : Violation) : Violation :=
  { v with field := path ++ "." ++ v.field }

/-- All violations in one line. -/
def Violation.summary (vs : List Violation) : String :=
  "Validation failed: " ++ "; ".intercalate (vs.map fun v => v.field ++ ": " ++ v.message)

end Intake
