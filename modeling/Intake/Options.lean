/-!
# Options — how records are validated

Whether fields that a schema does not declare are violations, and whether texts are converted to
what a check expects before it runs.
-/

namespace Intake

structure Options where
  forbidUnknown      : Bool := false
  implicitConversion : Bool := false
deriving DecidableEq, Repr, Inhabited

/-- Options of which some are mentioned; the others are off. -/
def Options.mentioning (forbidUnknown implicitConversion : Option Bool) : Options where
  forbidUnknown      := forbidUnknown.getD false
  implicitConversion := implicitConversion.getD false

end Intake
