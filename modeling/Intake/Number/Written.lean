import Intake.Number
import Intake.Number.Integer
import Intake.Number.Shortest

/-!
# Number — Written — the written form of a number

Integers are written with all their digits, of which there may be too many, and doubles with the
fewest.
-/

namespace Intake.Number

def write : Number → Except Fault String
  | .int n   => Integer.write n
  | .float x => .ok (toString x)

/-- The digits behind the point of the written form; a power of ten shifts the point. -/
def places : Number → Except Fault Int
  | .int n                    => do
    let _ ← Integer.write n
    return 0
  | .float (.finite neg m e _) => .ok (Binary64.numeral neg m e).places
  | .float _                  => .ok 0

def isFinite : Number → Bool
  | .int _   => true
  | .float x => x.isFinite

end Intake.Number
