import Intake.Schema

/-!
# Schema — Parameters — the parameters of a check

What a check was made with, by name: bounds, words, lengths, the source of a pattern or the name of
the schema of the items.  A parameter that was not given is null.
-/

namespace Intake

def Number.toValue : Number → Value
  | .int n   => .int n
  | .float x => .float x

/-- A value that may be missing. -/
def Value.ofOption {α : Type} (f : α → Value) : Option α → Value
  | some a => f a
  | none   => .null

def Test.parameters : Test → List (String × Value)
  | .integer least most       =>
    [("min", .ofOption Number.toValue least), ("max", .ofOption Number.toValue most)]
  | .number least most places =>
    [("min", .ofOption Number.toValue least), ("max", .ofOption Number.toValue most),
      ("max_decimal_places", .ofOption Value.int places)]
  | .oneOf words              => [("allowed", .list (words.words.map .text))]
  | .maxLength n              => [("n", .int n)]
  | .minLength n              => [("n", .int n)]
  | .matching p               => [("pattern", .text p.source)]
  | .array minSize            => [("min_size", .ofOption Value.int minSize)]
  | _                         => []

def Check.parameters : Check → List (String × Value)
  | .test t _  => t.parameters
  | .items s _ => [("schema", .ofOption (fun s => .text s.name) s)]

end Intake
