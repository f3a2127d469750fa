import Intake.Number.Binary64

/-!
# Number — integers and doubles

A number is an integer of any size or a double.  Two numbers are compared by their exact values,
never by rounding one to the kind of the other; not-a-number is unordered and differs from
everything.
-/

namespace Intake

inductive Number where
  | int (n : Int)
  | float (x : Binary64)
deriving DecidableEq

/-- A place on the extended line: `significand · 2 ^ exponent`, or one of its ends. -/
inductive Extent where
  | bottom
  | finite (significand exponent : Int)
  | top
deriving DecidableEq

namespace Extent

/-- The significand on the scale of a smaller exponent. -/
def scaled (significand exponent scale : Int) : Int := significand * Int.pow 2 (exponent - scale).toNat

def compare : Extent → Extent → Ordering
  | .bottom,     .bottom     => .eq
  | .bottom,     _           => .lt
  | _,           .bottom     => .gt
  | .top,        .top        => .eq
  | .top,        _           => .gt
  | _,           .top        => .lt
  | .finite m e, .finite n f => Ord.compare (scaled m e (min e f)) (scaled n f (min e f))

end Extent

namespace Number

/-- Where a number lies; not-a-number lies nowhere. -/
def extent? : Number → Option Extent
  | .int n                    => some (.finite n 0)
  | .float .nan               => none
  | .float (.infinite true)   => some .bottom
  | .float (.infinite false)  => some .top
  | .float (.finite neg m e _) => some (.finite (if neg then -(m : Int) else m) e)

def compare? (a b : Number) : Option Ordering := do
  return (← a.extent?).compare (← b.extent?)

/-- Equality of values: an integer equals the double of the same value, and both zeros are one. -/
def sameAs (a b : Number) : Bool := a.compare? b == some .eq

def lessThan (a b : Number) : Bool := a.compare? b == some .lt

def isZero : Number → Bool
  | .int n                   => n == 0
  | .float (.finite _ m _ _) => m == 0
  | .float _                 => false

example : sameAs (.int (2 ^ 53 + 1)) (.float (.ofRatio false (2 ^ 53) 1)) = false := by decide +kernel
example : sameAs (.int 0) (.float (.zero true)) = true := by decide +kernel
example : lessThan (.float .nan) (.int 0) = false := by decide

end Number

end Intake
