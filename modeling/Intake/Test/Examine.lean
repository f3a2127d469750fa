import Intake.Number.Written
import Intake.Pattern.Standard
import Intake.Test
import Intake.Value.Shown

/-!
# Test — Examine — running a test on a value

A test finds nothing wrong with a value that passes it.  A message that mentions a bound may fault,
because the bound may be too long to write; so may a test that has to write the value itself.
-/

namespace Intake.Test

/-- A number outside of its bounds, which are inclusive; a bound that is not a number excludes
nothing. -/
def outOfBounds (n : Number) (least most : Option Number) : Except Fault (Option Finding) :=
  match least.filter (n.lessThan ·), most.filter (·.lessThan n) with
  | some low, _         => do
    return some ⟨"min", .rangeViolation, "must not be less than " ++ (← low.write)⟩
  | none,     some high => do
    return some ⟨"max", .rangeViolation, "must not be greater than " ++ (← high.write)⟩
  | none,     none      => .ok none

/-- A number with more places behind its point than are allowed. -/
def tooManyPlaces (t : Test) (n : Number) (places : Option Int) : Except Fault (Option Finding) :=
  match places with
  | none   => .ok none
  | some p => do
    if p < (← n.places) then
      return some (t.finding ("must have at most " ++ (← Number.Integer.write p) ++ " decimal places"))
    else return none

/-- A finding of the test where a condition fails. -/
def require (condition : Bool) (t : Test) (message : String) : Except Fault (Option Finding) :=
  .ok (if condition then none else some (t.finding message))

/-- A text whose length satisfies a condition; nothing else has a length here. -/
def lengthTest (t : Test) (v : Value) (n : Int) (condition : Int → Bool) (relation : String) :
    Except Fault (Option Finding) :=
  match v.text? with
  | some s => if condition s.length then .ok none else failed
  | none   => failed
where
  failed := do
    return some (t.finding
      ("must be " ++ relation ++ " than or equal to " ++ (← Number.Integer.write n) ++ " characters"))

def examine (t : Test) (v : Value) : Except Fault (Option Finding) :=
  match t with
  | .string             => require v.text?.isSome t "must be a string"
  | .integer least most =>
    match v with
    | .int n => outOfBounds (.int n) least most
    | _      => .ok (some (t.finding "must be an integer number"))
  | .number least most places =>
    match v.number? with
    | none   => .ok (some (t.finding "must be a number"))
    | some n =>
      if !n.isFinite then .ok (some (t.finding "must be a finite number"))
      else do
        match ← tooManyPlaces t n places with
        | some f => return some f
        | none   => outOfBounds n least most
  | .boolean =>
    match v with
    | .bool _ => .ok none
    | _       => .ok (some (t.finding "must be a boolean value"))
  | .uuid => require (v.text?.any fun s => Pattern.Node.uuid.isMatch s.toList) t "must be a UUID"
  | .date =>
    match v with
    | .date _   => .ok none
    | .moment _ => .ok none
    | _         => .ok (some (t.finding "must be a Date instance"))
  | .oneOf words => do
    require (words.contains (← v.display)) t ("must be one of the following values: " ++ words.listing)
  | .maxLength n => lengthTest t v n (decide <| · ≤ n) "shorter"
  | .minLength n => lengthTest t v n (decide <| n ≤ ·) "longer"
  | .matching p  => require (v.text?.any p.accepts) t ("must match " ++ p.source ++ " regular expression")
  | .notEmpty    => require (v.text? != some "") t "should not be empty"
  | .email       => require (v.text?.any fun s => Pattern.Node.email.isMatch s.toList) t "must be an email"
  | .array minSize =>
    match v.items?, minSize with
    | none,    _      => .ok (some (t.finding "must be an array"))
    | some _,  none   => .ok none
    | some xs, some n =>
      if (xs.length : Int) < n then do
        return some ⟨"array_min_size", .rangeViolation,
          "must contain at least " ++ (← Number.Integer.write n) ++ " elements"⟩
      else .ok none
  | .unspecified => .error .unspecifiedTest

end Intake.Test
