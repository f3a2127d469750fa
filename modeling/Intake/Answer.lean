import Intake.Failure
import Intake.Model
import Intake.Validation

/-!
# Answer — what a session says

Every query and every change of a session that succeeds has one answer, and so has a failure that
is caught.  The answers within a block or a script are one answer.
-/

namespace Intake

/-- What a probe of a check answers, each part on its own. -/
structure Probe where
  finding    : Except Fault (Option Finding)
  coerced    : Except Fault Value
  converted  : Except Fault Value
  violations : Except Fault (List Violation)

inductive Answer where
  | failed (f : Failure)
  | outcome (o : Outcome)
  | record (entries : Entries)
  | probe (p : Probe)
  | schema (s : Schema)
  /-- A rule, and whether it applies to the data that were given, as it is and as an optional
  one. -/
  | rule (r : Rule) (applies : Option (Bool × Bool))
  /-- Whether a schema declares a field, and its rule. -/
  | lookup (declared : Bool) (rule : Except Failure Rule)
  | same (b : Bool)
  | rules (rs : List Rule)
  | model (m : Model)
  | names (names : List String)
  | options (o : Options)
  | bound (s : Schema)
  | registered (name : String)
  /-- The names of a registry, and which candidates are among them. -/
  | registry (names : List String) (members : List Bool)
  /-- The answers within a block, and the options after it. -/
  | block (inside : List Answer) (after : Options)
  | script (answers : List Answer)

end Intake
