import Intake.Fault
import Intake.Pattern.Fault
import Intake.Text.Quoted
import Intake.Violation

/-!
# Failure — why a request has no answer

A definition may be malformed, a schema, a field or a variable may be unknown, a record may be
rejected, and any computation may fault.
-/

namespace Intake

/-- What is wrong with a definition; values that are no part of one are in their literal form. -/
inductive DefinitionFault where
  | unnamedField (shown : String)
  | unknownCheck (field shown : String)
  | mutableDefault (field shown : String)
  | notARule (schema shown : String)
  | duplicateField (schema field : String)
  | invalidPattern (source : String) (fault : Pattern.Fault)
  | notASchema (typeName : String)
  | alreadyRegistered (name : String)
deriving DecidableEq, Repr

def DefinitionFault.message : DefinitionFault → String
  | .unnamedField shown         => "Field name must be a non-empty string: " ++ shown
  | .unknownCheck field shown   => "Unknown check for field '" ++ field ++ "': " ++ shown
  | .mutableDefault field shown => "Default for field '" ++ field ++ "' must be immutable: " ++ shown
  | .notARule schema shown      => schema ++ ": expected FieldRule, got " ++ shown
  | .duplicateField schema name => schema ++ ": duplicate field '" ++ name ++ "'"
  | .invalidPattern source f    => "Invalid pattern " ++ Text.quoted source ++ ": " ++ f.message source.toList
  | .notASchema typeName        => "Cannot register " ++ typeName
  | .alreadyRegistered name     => "Schema '" ++ name ++ "' is already registered"

inductive Failure where
  | fault (f : Fault)
  | definition (f : DefinitionFault)
  | unknownSchema (name : String)
  /-- A field that a schema does not declare, by the display form of its name. -/
  | unknownField (shown : String)
  | unknownVariable (name : String)
  | rejected (violations : List Violation)
deriving DecidableEq, Repr

def Failure.message : Failure → String
  | .fault f              => f.message
  | .definition f         => f.message
  | .unknownSchema name   => "Unknown schema: " ++ name
  | .unknownField shown   => shown
  | .unknownVariable name => name
  | .rejected vs          => Violation.summary vs

/-- A computation that may fault, among those that may fail. -/
def orFault {α : Type} (x : Except Fault α) : Except Failure α := x.mapError .fault

/-- A definition that cannot be made, with the literal form of a value in its message. -/
def malformed {α : Type} (shown : Except Fault String) (f : String → DefinitionFault) :
    Except Failure α := do
  throw (.definition (f (← orFault shown)))

end Intake
