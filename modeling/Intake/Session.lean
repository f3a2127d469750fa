import Intake.Effect
import Intake.Schema.Equality

/-!
# Session — commands, one after another

Commands are run in a session against the catalogue, the variables of the session and its registry.
A validation that a query asks for reads the options in effect, and so do those of items within it.
What has no answer is raised: it leaves the block that it is in, and all blocks around it, up to an
attempt.

The commands that a session is asked for one after another are each an attempt of its own
(`Command.runAll`, `Command.run`).  A session starts with the options off.
-/

namespace Intake

open Effect

/-- The schema that is described, as far as the session knows it. -/
def Effect.eval (e : SchemaExpr) : Effect Schema := do e.eval (← currentScope)

namespace Query

def probeCheck (c : Check) (field : String) (v : Value) : Effect Probe := do
  return {
    finding    := ← captured (c.examineWith currentOptions v)
    coerced    := ← captured (c.coerceWith currentOptions v)
    converted  := c.convert v
    violations := ← captured (c.violationsWith currentOptions field v) }

/-- A member of a registry is the name of a schema. -/
def isMember (r : Registry) : Value → Bool
  | .text name => r.contains name
  | _          => false

/-- The rule of a field, which the name may not be. -/
def lookupRule (schema : Schema) (name : Value) : Except Failure Rule :=
  match name.text?.bind schema.rule? with
  | some rule => .ok rule
  | none      => do throw (.unknownField (← orFault name.display))

def answer : Query → Effect Answer
  | .validate e data         => do
    let schema ← eval e
    return .outcome (← schema.validateWith currentOptions data)
  | .unwrap e data           => do
    let schema ← eval e
    match ← schema.validateWith currentOptions data with
    | .valid r    => return .record r
    | .invalid vs => throw (.failure (.rejected vs))
  | .probe c field v         => do
    match ← c.eval (← currentScope) with
    | .inl check => return .probe (← probeCheck check field v)
    | .inr other => (malformed other.literal (.unknownCheck field) : Except Failure Answer)
  | .describe e              => do return .schema (← eval e)
  | .inspect r data          => do
    let rule ← r.eval (← currentScope)
    return .rule rule (data.map fun r => (rule.appliesTo r, rule.asOptional.appliesTo r))
  | .lookup e name           => do
    let schema ← eval e
    return .lookup (schema.declares name) (lookupRule schema name)
  | .compare a b             => do
    let a ← eval a
    return .same (a.sameAs (← eval b))
  | .merge base overrides    => do
    let base ← RuleExpr.evalAll (← currentScope) base
    return .rules (mergeRules base (← RuleExpr.evalAll (← currentScope) overrides))
  | .compile e               => do return .model (← eval e).model
  | .catalogue               => return .names Catalogue.registry.names
  | .options                 => do return .options (← currentOptions)
  | .registry candidates     => do
    let r := (← currentScope).registry
    return .registry r.names (candidates.map (isMember r))

end Query

namespace Command

def bindVariable (name : String) (e : SchemaExpr) : Effect Unit := do
  let schema ← eval e
  modify fun s => { s with scope.bindings := (name, schema) :: s.scope.bindings }
  answer (.bound schema)

def registerSchema (e : SchemaExpr) : Effect Unit := do
  let schema ← eval e
  match (← currentScope).registry.register? schema with
  | some r =>
    modify fun s => { s with scope.registry := r }
    answer (.registered schema.name)
  | none   => throw (.failure (.definition (.alreadyRegistered schema.name)))

mutual

def perform : Command → Effect Unit
  | .query q                => do answer (← q.answer)
  | .bind name e            => bindVariable name e
  | .register e             => registerSchema e
  | .registerOther v        => throw (.failure (.definition (.notASchema v.typeName)))
  | .within forbid conv cs  => withOptions forbid conv (performAll cs)
  | .raise e                => throw e
  | .attempt cs handler     => do
    try performAll cs catch
      | .failure f => do
        answer (.failed f)
        performAll handler
      | e          => throw e
  | .report cs              => do
    let inside ← collected (performAll cs)
    answer (.block inside (← currentOptions))
  | .program cs             => do answer (.script (← apart (collected (performAll cs))))

/-- Commands in order. -/
def performAll : List Command → Effect Unit
  | []      => return
  | c :: cs => do
    perform c
    performAll cs

end

/-- What commands answer, each an attempt of its own, up to an interruption. -/
def runAll (cs : List Command) (s : Session) : List Answer × Session :=
  let (_, t) := (performAll (cs.map guarded)).run { s with answers := [] }
  (t.answers, { t with answers := s.answers })

/-- A command by itself.  Several answers are a script. -/
def run (c : Command) (s : Session) : Answer × Session :=
  match runAll [c] s with
  | ([a], t) => (a, t)
  | (as, t)  => (.script as, t)

end Command

end Intake
