import Intake.Calendar.Moment
import Intake.Number

/-!
# Value — the data of a record

Values are what a decoded request holds: null, truth values, numbers, texts, dates and moments, and
lists, tuples and records of values.  A record is a list of entries in order; its keys are values
too, and only a text can be the name of a field.
-/

namespace Intake

inductive Value where
  | null
  | bool (b : Bool)
  | int (n : Int)
  | float (x : Binary64)
  | text (s : String)
  | date (d : Calendar.Date)
  | moment (m : Calendar.Moment)
  | list (items : List Value)
  /-- A list that cannot be changed once it is made. -/
  | tuple (items : List Value)
  | record (entries : List (Value × Value))
deriving Inhabited

/-- The entries of a record, in order. -/
abbrev Entries := List (Value × Value)

namespace Entries

/-- The value under a name. -/
def get? : Entries → String → Option Value
  | [],                   _    => none
  | (.text s, v) :: rest, name => if s = name then some v else get? rest name
  | _ :: rest,            name => get? rest name

/-- The value under a name, null if there is none. -/
def getD (r : Entries) (name : String) : Value := (r.get? name).getD .null

def has (r : Entries) (name : String) : Bool := (r.get? name).isSome

end Entries

namespace Value

/-- The names of the kinds of value, as messages show them. -/
def typeName : Value → String
  | .null     => "NoneType"
  | .bool _   => "bool"
  | .int _    => "int"
  | .float _  => "float"
  | .text _   => "str"
  | .date _   => "date"
  | .moment _ => "datetime"
  | .list _   => "list"
  | .tuple _  => "tuple"
  | .record _ => "dict"

def isNull : Value → Bool
  | .null => true
  | _     => false

def text? : Value → Option String
  | .text s => some s
  | _       => none

/-- The number of a value that is one; a truth value is none. -/
def number? : Value → Option Number
  | .int n   => some (.int n)
  | .float x => some (.float x)
  | _        => none

/-- The number that a value equals, false being zero and true one. -/
def quantity? : Value → Option Number
  | .bool b => some (.int b.toInt)
  | v       => v.number?

/-- The items of a list or a tuple. -/
def items? : Value → Option (List Value)
  | .list items  => some items
  | .tuple items => some items
  | _            => none

/-- What counts as true: everything but null, false, zero and what is empty. -/
def isTruthy : Value → Bool
  | .null      => false
  | .bool b    => b
  | .int n     => n != 0
  | .float x   => !(Number.float x).isZero
  | .text s    => s != ""
  | .list xs   => !xs.isEmpty
  | .tuple xs  => !xs.isEmpty
  | .record es => !es.isEmpty
  | .date _    => true
  | .moment _  => true

mutual

/-- A value that nothing can change: no list and no record, also not within a tuple. -/
def isImmutable : Value → Bool
  | .list _   => false
  | .record _ => false
  | .tuple xs => areImmutable xs
  | _         => true

def areImmutable : List Value → Bool
  | []      => true
  | x :: xs => x.isImmutable && areImmutable xs

end

end Value

end Intake
