import Intake.Options
import Intake.Schema
import Intake.Test.Convert
import Intake.Test.Examine

/-!
# Validation — records under a schema

Every rule that applies to a record is judged on its own, in the order of the schema, and
contributes violations or an entry of the validated record.  The checks of a rule run in order on
the value, which each may change first, up to the first that finds something wrong.  Entries that
the schema does not declare are violations or are kept at the end, as the options say.  A list of
items is validated item by item, twice: valid items are first replaced by their validated records,
and the items are then judged as they are.
-/

namespace Intake

inductive Outcome where
  | valid (record : Entries)
  | invalid (violations : List Violation)

/-- What one rule adds to an outcome. -/
structure Contribution where
  name       : String
  violations : List Violation := []
  /-- The value recorded under the name. -/
  value      : Option Value := none

/-- What a chain of checks makes of a value. -/
inductive Verdict where
  | passed (v : Value)
  | failed (violations : List Violation)

namespace Validation

def notAnObject : Violation := ⟨"", "is_object", .typeMismatch, "input must be an object"⟩

def missingField (name : String) : Violation :=
  ⟨name, "required", .missingRequiredField, "field is required"⟩

/-- The violation of an entry under a key that is not declared. -/
def strayKey (key : Value) : Except Fault Violation := do
  let name ← key.display
  return ⟨name, "whitelist", .unknownField, "property " ++ name ++ " should not exist"⟩

/-- The entries that a schema does not declare. -/
def strays (s : Schema) (r : Entries) : Entries := r.filter fun e => !s.declares e.1

/-- The contribution of a rule whose field is missing or null. -/
def absent (rule : Rule) (present : Bool) : Contribution :=
  if rule.required then { name := rule.name, violations := [missingField rule.name] }
  else if !rule.default.isNull then { name := rule.name, value := some rule.default }
  else if present then { name := rule.name, value := some .null }
  else { name := rule.name }

def ofVerdict (name : String) : Verdict → Contribution
  | .passed v  => { name, value := some v }
  | .failed vs => { name, violations := vs }

/-- The entries that contributions record, in order. -/
def recorded (parts : List Contribution) : Entries :=
  parts.filterMap fun p => p.value.map fun v => (.text p.name, v)

/-- The outcome of all contributions, and of the entries that the schema does not declare. -/
def conclude (o : Options) (s : Schema) (r : Entries) (parts : List Contribution) : Except Fault Outcome := do
  let unknown ← if o.forbidUnknown then (strays s r).mapM fun e => strayKey e.1 else .ok []
  let violations := parts.flatMap (·.violations) ++ unknown
  if violations.isEmpty then
    return .valid (recorded parts ++ if o.forbidUnknown then [] else strays s r)
  else return .invalid violations

section

variable {m : Type → Type} [Monad m]

/-- An item that is a valid record becomes the validated record. -/
def replaceItem (judge : Value → m Outcome) (item : Value) : m Value :=
  match item with
  | .record r => do
    match ← judge (.record r) with
    | .valid r'  => return .record r'
    | .invalid _ => return .record r
  | item      => return item

def itemPath (field : String) (i : Nat) : String := field ++ "[" ++ toString i ++ "]"

/-- The violations of the item at a place. -/
def reportItem (judge : Value → m Outcome) (field : String) (item : Value × Nat) : m (List Violation) :=
  match item.1 with
  | .record r => do
    match ← judge (.record r) with
    | .valid _    => return []
    | .invalid vs => return vs.map (.under (itemPath field item.2))
  | _         =>
    return [⟨itemPath field item.2, Check.itemsName, .typeMismatch, "nested item must be an object"⟩]

end

end Validation

open Validation

/-- What a check makes of a text where the options ask for conversion. -/
def Check.convert : Check → Value → Except Fault Value
  | .test t _,  v => t.convert v
  | .items _ _, v => .ok v

/-- The value that a check starts from, before its own coercion. -/
def Check.prepare (o : Options) (c : Check) (v : Value) : Except Fault Value :=
  if o.implicitConversion then c.convert v else .ok v

/-! ### Where the options are asked for -/

section

variable {m : Type → Type} [Monad m] [MonadLiftT (Except Fault) m] (current : m Options)

mutual

/-- Each validation asks for the options in effect, also that of an item. -/
def Schema.validateWith : Schema → Value → m Outcome
  | ⟨name, rules⟩, .record r => do
    let o ← current
    let parts ← Rule.judgeAllWith o rules r
    conclude o ⟨name, rules⟩ r parts
  | _,             _         => return .invalid [notAnObject]

def Rule.judgeAllWith (o : Options) : List Rule → Entries → m (List Contribution)
  | [],            _ => return []
  | rule :: rules, r => do
    let part ← Rule.judgeWith o rule r
    return part :: (← Rule.judgeAllWith o rules r)

/-- The contribution of one rule.  A rule that does not apply records the field as it is. -/
def Rule.judgeWith (o : Options) : Rule → Entries → m Contribution
  | ⟨name, checks, required, default, condition⟩, r =>
    let rule : Rule := ⟨name, checks, required, default, condition⟩
    if rule.appliesTo r then
      match r.get? name with
      | none       => return absent rule false
      | some .null => return absent rule true
      | some v     => do return ofVerdict name (← Check.chainWith o name checks v)
    else return { name, value := r.get? name }

/-- Checks in order, up to the first that finds something wrong. -/
def Check.chainWith (o : Options) (field : String) : List Check → Value → m Verdict
  | [],          v => return .passed v
  | c :: checks, v => do
    let v ← c.prepare o v
    let v ← c.coerceWith v
    match ← c.violationsWith field v with
    | []      => Check.chainWith o field checks v
    | w :: ws => return .failed (w :: ws)

/-- The value as a check looks at it. -/
def Check.coerceWith : Check → Value → m Value
  | .test t _,         v => return t.coerce v
  | .items none _,     v => return v
  | .items (some s) _, v =>
    match v.items? with
    | none       => return v
    | some items => do return .list (← items.mapM (replaceItem s.validateWith))

/-- Everything that a check finds wrong with a value.  What is not a list is its own only item. -/
def Check.violationsWith (field : String) : Check → Value → m (List Violation)
  | .test t m,         v => do return ((← t.examine v).map fun f => (f.withMessage m).at field).toList
  | .items none _,     _ => return []
  | .items (some s) _, v => do
    return (← (v.items?.getD [v]).zipIdx.mapM (reportItem s.validateWith field)).flatten

end

/-- The first thing that a check finds wrong with a value. -/
def Check.examineWith (c : Check) (v : Value) : m (Option Finding) :=
  match c with
  | .test t m  => do return (← t.examine v).map (·.withMessage m)
  | .items s m => do
    return (← (Check.items s m).violationsWith current "" v).head?.map fun w =>
      Finding.withMessage ⟨Check.itemsName, .typeMismatch, w.field ++ ": " ++ w.message⟩ m

end

/-! ### Where the options are given -/

variable (o : Options)

def Schema.validate (s : Schema) (v : Value) : Except Fault Outcome := s.validateWith (.ok o) v

def Rule.judgeAll (rules : List Rule) (r : Entries) : Except Fault (List Contribution) :=
  Rule.judgeAllWith (.ok o) o rules r

def Rule.judge (rule : Rule) (r : Entries) : Except Fault Contribution := rule.judgeWith (.ok o) o r

def Check.chain (field : String) (checks : List Check) (v : Value) : Except Fault Verdict :=
  Check.chainWith (.ok o) o field checks v

def Check.coerce (c : Check) (v : Value) : Except Fault Value := c.coerceWith (.ok o) v

def Check.violations (field : String) (c : Check) (v : Value) : Except Fault (List Violation) :=
  c.violationsWith (.ok o) field v

theorem Schema.validate_record (s : Schema) (r : Entries) :
    s.validate o (.record r) = Rule.judgeAll o s.rules r >>= conclude o s r := by
  cases s
  rfl

/-- Rules are judged one by one, none of them in view of another. -/
theorem Rule.judgeAll_eq_mapM (rules : List Rule) (r : Entries) :
    Rule.judgeAll o rules r = rules.mapM (Rule.judge o · r) := by
  induction rules with
  | nil => rfl
  | cons rule rules ih =>
    rw [List.mapM_cons, ← ih]
    rfl

theorem Rule.judge_eq (rule : Rule) (r : Entries) :
    rule.judge o r =
      if rule.appliesTo r then
        match r.get? rule.name with
        | none       => .ok (absent rule false)
        | some .null => .ok (absent rule true)
        | some v     => do return ofVerdict rule.name (← Check.chain o rule.name rule.checks v)
      else .ok { name := rule.name, value := r.get? rule.name } := by
  cases rule
  rfl

namespace Check

variable (field : String)

theorem chain_nil (v : Value) : Check.chain o field [] v = .ok (.passed v) := rfl

theorem chain_cons (c : Check) (checks : List Check) (v : Value) :
    Check.chain o field (c :: checks) v = (do
      let v ← c.prepare o v
      let v ← c.coerce o v
      match ← c.violations o field v with
      | []      => Check.chain o field checks v
      | w :: ws => return .failed (w :: ws)) :=
  rfl

theorem coerce_test (t : Test) (m : Option String) (v : Value) :
    (Check.test t m).coerce o v = .ok (t.coerce v) :=
  rfl

theorem coerce_items_none (m : Option String) (v : Value) : (Check.items none m).coerce o v = .ok v := rfl

theorem coerce_items_some (s : Schema) (m : Option String) (v : Value) :
    (Check.items (some s) m).coerce o v =
      match v.items? with
      | none    => .ok v
      | some xs => do return .list (← xs.mapM (replaceItem (s.validate o))) :=
  rfl

theorem violations_test (t : Test) (m : Option String) (v : Value) :
    (Check.test t m).violations o field v = do
      return ((← t.examine v).map fun f => (f.withMessage m).at field).toList :=
  rfl

theorem violations_items_none (m : Option String) (v : Value) :
    (Check.items none m).violations o field v = .ok [] :=
  rfl

theorem violations_items_some (s : Schema) (m : Option String) (v : Value) :
    (Check.items (some s) m).violations o field v = do
      return (← (v.items?.getD [v]).zipIdx.mapM (reportItem (s.validate o) field)).flatten :=
  rfl

end Check

end Intake
