import Intake.Schema.Algebra

/-!
# Catalogue — Field — the vocabulary of the catalogue

Short names for checks and rules, the fields of a page of a list, and the three shapes in which
schemas come: what creates a record, what updates it, and what lists records.
-/

namespace Intake.Catalogue

def plain (t : Test) : Check := .test t none

def string : Check := plain .string

def uuid : Check := plain .uuid

def date : Check := plain .date

def boolean : Check := plain .boolean

def notEmpty : Check := plain .notEmpty

def minLength (n : Int) : Check := plain (.minLength n)

def maxLength (n : Int) : Check := plain (.maxLength n)

def integer : Check := plain (.integer none none)

def integerFrom (least : Int) : Check := plain (.integer (some (.int least)) none)

def numberFrom (least : Int) : Check := plain (.number (some (.int least)) none none)

def oneOf (words : List String) : Check := plain (.oneOf (.ofList words))

def required (name : String) (checks : List Check) : Rule := ⟨name, checks, true, .null, none⟩

def optional (name : String) (checks : List Check) : Rule := ⟨name, checks, false, .null, none⟩

/-- A field that may be missing and has a value then. -/
def defaulting (name : String) (checks : List Check) (default : Value) : Rule :=
  ⟨name, checks, false, default, none⟩

/-- A rule for some records only. -/
def onlyIf (condition : Condition) (rule : Rule) : Rule := { rule with condition := some condition }

def requiredId : Rule := required "id" [uuid]

def optionalId : Rule := optional "id" [uuid]

/-- The page of a list that is asked for: its number, its size, and how many records are passed
over. -/
def pagination : Schema := ⟨"PaginationDto", [
  defaulting "page" [integerFrom 1] (.int 1),
  defaulting "limit" [plain (.integer (some (.int 1)) (some (.int 100)))] (.int 10),
  optional "skip" [integerFrom 0]]⟩

/-- The update of what a schema creates. -/
def update (name : String) (base : Schema) (identifier : Rule) : Schema :=
  base.partialOf name (some identifier)

/-- A list of records, a page at a time, that some fields may narrow down. -/
def listing (name : String) (filters : List Rule) : Schema :=
  .compose name [pagination, ⟨name ++ "Filters", filters⟩]

end Intake.Catalogue
