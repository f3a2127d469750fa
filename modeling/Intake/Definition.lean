import Intake.Catalogue
import Intake.Failure
import Intake.Value.Shown

/-!
# Definition — schemas as they are described

A description names a schema or says how to build it; anything may stand where a check or a rule
should, and is refused when the definition is made.  The parts of a definition are made from left to
right, and a part is made before what it is a part of.  Schemas are found in the catalogue, among
the variables of a session and in its registry.
-/

namespace Intake

/-- A rule from a name, checks and a default that nothing has looked at yet. -/
def Rule.define (name : Value) (checks : List (Check ⊕ Value)) (required : Bool) (default : Value)
    (condition : Option Condition) : Except Failure Rule :=
  match name.text?.filter (· != "") with
  | none      => malformed name.literal .unnamedField
  | some name =>
    match checks.findSome? Sum.getRight? with
    | some v => malformed v.literal (.unknownCheck name)
    | none   =>
      if default.isImmutable then .ok ⟨name, checks.filterMap Sum.getLeft?, required, default, condition⟩
      else malformed default.literal (.mutableDefault name)

/-- The rules among what should all be rules, no two of one name. -/
def Rule.collect (schema : String) : List String → List (Rule ⊕ Value) → Except Failure (List Rule)
  | _,    []              => .ok []
  | _,    .inr v :: _     => malformed v.literal (.notARule schema)
  | seen, .inl r :: rules =>
    if seen.contains r.name then .error (.definition (.duplicateField schema r.name))
    else do return r :: (← Rule.collect schema (r.name :: seen) rules)

/-- A schema from its rules in order. -/
def Schema.define (name : String) (rules : List (Rule ⊕ Value)) : Except Failure Schema := do
  return ⟨name, ← Rule.collect name [] rules⟩

/-- A check of a pattern that may not be one. -/
def Check.matching (source : String) (message : Option String) : Except Failure Check :=
  match Pattern.compile source with
  | .ok p    => .ok (.test (.matching p) message)
  | .error f => .error (.definition (.invalidPattern source f))

/-- A check of the display forms of some values. -/
def Check.oneOf (allowed : List Value) (message : Option String) : Except Failure Check := do
  return .test (.oneOf (.ofList (← orFault (allowed.mapM Value.display)))) message

mutual

inductive CheckExpr where
  | test (t : Test) (message : Option String)
  | matching (source : String) (message : Option String)
  | oneOf (allowed : List Value) (message : Option String)
  | items (schema : Option SchemaExpr) (message : Option String)
  /-- A value that is no check. -/
  | other (v : Value)

inductive RuleExpr where
  | rule (name : Value) (checks : List CheckExpr) (required : Bool) (default : Value)
      (condition : Option Condition)

inductive FieldExpr where
  | rule (r : RuleExpr)
  /-- A value that is no rule. -/
  | other (v : Value)

inductive SchemaExpr where
  | named (name : String)
  | pagination
  | bound (name : String)
  | registered (name : String)
  | define (name : String) (fields : List FieldExpr)
  | derivePartial (base : SchemaExpr) (name : Option String)
  | withIdentifier (base : SchemaExpr) (identifier : RuleExpr) (name : Option String)
  | partialOf (base : SchemaExpr) (name : String) (identifier : Option RuleExpr)
  | compose (name : String) (parts : List SchemaExpr)
  | renamed (base : SchemaExpr) (name : String)

end

/-- The schemas that a description may refer to, beside those of the catalogue. -/
structure Scope where
  bindings : List (String × Schema) := []
  registry  : Registry := .empty

/-- A schema that is known by name. -/
def found (r : Registry) (name : String) : Except Failure Schema :=
  match r.get? name with
  | some s => .ok s
  | none   => .error (.unknownSchema name)

mutual

def CheckExpr.eval (scope : Scope) : CheckExpr → Except Failure (Check ⊕ Value)
  | .test t m         => .ok (.inl (.test t m))
  | .matching p m     => do return .inl (← Check.matching p m)
  | .oneOf vs m       => do return .inl (← Check.oneOf vs m)
  | .items none m     => .ok (.inl (.items none m))
  | .items (some s) m => do return .inl (.items (some (← s.eval scope)) m)
  | .other v          => .ok (.inr v)

def CheckExpr.evalAll (scope : Scope) : List CheckExpr → Except Failure (List (Check ⊕ Value))
  | []      => .ok []
  | c :: cs => do
    let check ← c.eval scope
    return check :: (← CheckExpr.evalAll scope cs)

def RuleExpr.eval (scope : Scope) : RuleExpr → Except Failure Rule
  | .rule name checks required default condition => do
    Rule.define name (← CheckExpr.evalAll scope checks) required default condition

def FieldExpr.evalAll (scope : Scope) : List FieldExpr → Except Failure (List (Rule ⊕ Value))
  | []               => .ok []
  | .rule r :: rest  => do
    let rule ← r.eval scope
    return .inl rule :: (← FieldExpr.evalAll scope rest)
  | .other v :: rest => do return .inr v :: (← FieldExpr.evalAll scope rest)

def SchemaExpr.eval (scope : Scope) : SchemaExpr → Except Failure Schema
  | .named name                         => found Catalogue.registry name
  | .pagination                         => .ok Catalogue.pagination
  | .bound name                         =>
    match scope.bindings.lookup name with
    | some s => .ok s
    | none   => .error (.unknownVariable name)
  | .registered name                    => found scope.registry name
  | .define name fields                 => do Schema.define name (← FieldExpr.evalAll scope fields)
  | .derivePartial base name            => do return (← base.eval scope).derivePartial name
  | .withIdentifier base rule name      => do
    let base ← base.eval scope
    return base.withIdentifier (← rule.eval scope) name
  | .partialOf base name none           => do return (← base.eval scope).partialOf name none
  | .partialOf base name (some rule)    => do
    let base ← base.eval scope
    return base.partialOf name (some (← rule.eval scope))
  | .compose name parts                 => do return .compose name (← SchemaExpr.evalAll scope parts)
  | .renamed base name                  => do return (← base.eval scope).renamed name

def SchemaExpr.evalAll (scope : Scope) : List SchemaExpr → Except Failure (List Schema)
  | []      => .ok []
  | s :: ss => do
    let schema ← s.eval scope
    return schema :: (← SchemaExpr.evalAll scope ss)

end

/-- Rules one after another. -/
def RuleExpr.evalAll (scope : Scope) (rules : List RuleExpr) : Except Failure (List Rule) :=
  rules.mapM (·.eval scope)

end Intake
