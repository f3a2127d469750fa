import Intake.Schema

/-!
# Schema — Algebra — schemas from schemas

Rules are merged by name: the first place of a name is kept, and its last rule.  From that come
composition, the schema of an update, which asks for nothing but may carry an identifier, and
renaming.
-/

namespace Intake

/-- A rule in the place of the rule of its name, or at the end. -/
def putRule : List Rule → Rule → List Rule
  | [],            new => [new]
  | rule :: rules, new => if rule.name = new.name then new :: rules else rule :: putRule rules new

/-- The rules of the second list put one by one, after those of the first. -/
def mergeRules (base overrides : List Rule) : List Rule := overrides.foldl putRule (base.foldl putRule [])

namespace Schema

/-- A name that is given and not empty, or another. -/
def nameOr (name : Option String) (other : String) : String :=
  match name with
  | some n => if n = "" then other else n
  | none   => other

def renamed (s : Schema) (name : String) : Schema := ⟨name, s.rules⟩

/-- Every field may be missing, and nothing stands in for one. -/
def derivePartial (base : Schema) (name : Option String) : Schema :=
  ⟨nameOr name ("Partial" ++ base.name), base.rules.map (·.asOptional)⟩

/-- A schema with the rule of an identifier, in the place of the rule of its name or at the end. -/
def withIdentifier (s : Schema) (identifier : Rule) (name : Option String) : Schema :=
  ⟨nameOr name s.name, mergeRules s.rules [identifier]⟩

/-- The schema of an update of what another schema creates. -/
def partialOf (base : Schema) (name : String) (identifier : Option Rule) : Schema :=
  let derived := base.derivePartial (some name)
  match identifier with
  | some rule => derived.withIdentifier rule none
  | none      => derived

/-- The rules of all parts; a later part overrides an earlier one. -/
def compose (name : String) (parts : List Schema) : Schema :=
  ⟨name, parts.foldl (fun rules part => mergeRules rules part.rules) []⟩

end Schema

end Intake
