import Intake.Definition
import Intake.Options

/-!
# Command — what a session is asked to do

Commands form programs: blocks with options of their own, exceptions, and what is done about them.
A command that fails raises its failure, and what is raised leaves all that it is in, one block
after another, up to an attempt, which answers with the failure, or up to a report.  A program may
also raise something of its own accord: a failure, or an interruption, which no attempt answers.

The commands that a session is asked for one after another are each an attempt of its own
(`Command.guarded`), and so are those of a block that is reported on and of a script.
-/

namespace Intake

/-- What leaves the commands that are running. -/
inductive Exception where
  | failure (f : Failure)
  /-- Raised by a program of its own accord. -/
  | interruption

/-- A command that leaves the session as it is. -/
inductive Query where
  | validate (schema : SchemaExpr) (data : Value)
  /-- The validated record, or a failure. -/
  | unwrap (schema : SchemaExpr) (data : Value)
  /-- Everything that a check does with a value. -/
  | probe (check : CheckExpr) (field : String) (v : Value)
  | describe (schema : SchemaExpr)
  | inspect (rule : RuleExpr) (data : Option Entries)
  | lookup (schema : SchemaExpr) (name : Value)
  | compare (a b : SchemaExpr)
  | merge (base overrides : List RuleExpr)
  | compile (schema : SchemaExpr)
  | catalogue
  | options
  | registry (candidates : List Value)

inductive Command where
  | query (q : Query)
  | bind (name : String) (schema : SchemaExpr)
  | register (schema : SchemaExpr)
  /-- Registers what is no schema. -/
  | registerOther (v : Value)
  /-- Steps under options of their own, as far as these are mentioned. -/
  | within (forbidUnknown implicitConversion : Option Bool) (steps : List Command)
  | raise (e : Exception)
  /-- Steps up to one that fails, and what is done then. -/
  | attempt (steps handler : List Command)
  /-- Steps, up to what is raised; their answers are one. -/
  | report (steps : List Command)
  /-- The same with variables and a registry of their own. -/
  | program (steps : List Command)

namespace Command

/-- A failure of the command is its answer. -/
def guarded (c : Command) : Command := .attempt [c] []

def interrupt : Command := .raise .interruption

/-- Steps under some options, of which none is left out. -/
def underAll (o : Options) (steps : List Command) : Command :=
  .within (some o.forbidUnknown) (some o.implicitConversion) steps

/-- One command within a block of its own. -/
def under (o : Options) (c : Command) : Command := underAll o [c]

/-- A block that is reported on. -/
def block (o : Options) (steps : List Command) : Command := .report [underAll o (steps.map guarded)]

def script (steps : List Command) : Command := .program (steps.map guarded)

end Command

end Intake
