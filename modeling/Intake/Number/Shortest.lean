import Intake.Number.Binary64

/-!
# Number — Shortest — writing a double

A double is written with the fewest digits that read back to it, the nearest such decimal when there
are several and the even one of two equally near.  The digits are found by exact arithmetic: on each
decimal grid, from one digit on, only the two neighbours of the double are candidates.  A number
from `0.0001` up to `10 ^ 16` is written positionally, with at least one digit behind the point.
-/

namespace Intake.Binary64

/-- Decimal digits and the place of the point: the number `0.d₁d₂… · 10 ^ point`. -/
structure Digits where
  digits : List Char
  point  : Int
deriving DecidableEq

/-- The reals that round to a double, on the scale of a quarter of its last place. -/
structure Interval where
  low    : Nat
  middle : Nat
  high   : Nat
  closed : Bool

/-- The interval below a power of two is half as wide, and an even significand owns both ends. -/
def interval (significand : Nat) (exponent : Int) : Interval where
  low    := 4 * significand - (if significand = Nat.pow 2 52 ∧ -1074 < exponent then 1 else 2)
  middle := 4 * significand
  high   := 4 * significand + 2
  closed := significand % 2 == 0

/-- A multiple of the quarter place is `num / den` grid units of `10 ^ grid`. -/
structure Grid where
  num : Nat
  den : Nat

def gridOf (exponent grid : Int) : Grid where
  num := Nat.pow 2 (exponent - 2).toNat * Nat.pow 10 (-grid).toNat
  den := Nat.pow 2 (2 - exponent).toNat * Nat.pow 10 grid.toNat

def Interval.holds (i : Interval) (g : Grid) (c : Nat) : Bool :=
  if i.closed then i.low * g.num ≤ c * g.den && c * g.den ≤ i.high * g.num
  else i.low * g.num < c * g.den && c * g.den < i.high * g.num

/-- Of the two grid points around the middle, the nearest that lies in the interval. -/
def Interval.nearest? (i : Interval) (g : Grid) : Option Nat :=
  let below := i.middle * g.num / g.den
  let twice := 2 * (i.middle * g.num % g.den)
  match i.holds g below, i.holds g (below + 1) with
  | true,  true  =>
    some (if twice < g.den then below else if g.den < twice then below + 1 else below + below % 2)
  | true,  false => some below
  | false, true  => some (below + 1)
  | false, false => none

/-- The place `k` with `10 ^ (k - 1) ≤ significand · 2 ^ exponent < 10 ^ k`. -/
def decade (significand : Nat) (exponent : Int) : Int :=
  let scaled := significand * Nat.pow 10 400 * Nat.pow 2 exponent.toNat / Nat.pow 2 (-exponent).toNat
  ((Nat.toDigits 10 scaled).length : Int) - 400

def dropTrailingZeros (s : List Char) : List Char :=
  (s.reverse.dropWhile (· == '0')).reverse

def digitsOn (c : Nat) (grid : Int) : Digits :=
  let ds := Nat.toDigits 10 c
  ⟨dropTrailingZeros ds, grid + ds.length⟩

/-- The first grid, from `count` digits on, that has a point in the interval.  Seventeen digits
always have one. -/
def search (exponent k : Int) (i : Interval) : Nat → Nat → Digits
  | count, 0        =>
    let g := gridOf exponent (k - count)
    digitsOn (i.middle * g.num / g.den) (k - count)
  | count, fuel + 1 =>
    match i.nearest? (gridOf exponent (k - count)) with
    | some c => digitsOn c (k - count)
    | none   => search exponent k i (count + 1) fuel

/-- The fewest digits that read back to `significand · 2 ^ exponent`, which is not zero. -/
def shortest (significand : Nat) (exponent : Int) : Digits :=
  search exponent (decade significand exponent) (interval significand exponent) 1 17

/-- A decimal numeral: digits before and behind the point, and a power of ten. -/
structure Numeral where
  negative : Bool
  whole    : List Char
  fraction : List Char
  exponent : Option Int
deriving DecidableEq

namespace Numeral

/-- The places behind the point once the power of ten is multiplied out; negative for a multiple of
ten that is written short. -/
def places (n : Numeral) : Int := n.fraction.length - n.exponent.getD 0

/-- The mark of an exponent, its sign and at least two digits. -/
def writeExponent (e : Int) : List Char :=
  let ds := Nat.toDigits 10 e.natAbs
  'e' :: (if e < 0 then '-' else '+') :: (if ds.length < 2 then '0' :: ds else ds)

def write (n : Numeral) : List Char :=
  (if n.negative then ['-'] else []) ++ n.whole
    ++ (if n.fraction.isEmpty then [] else '.' :: n.fraction)
    ++ (n.exponent.map writeExponent).getD []

end Numeral

/-- Positional from `10 ^ -4` up to `10 ^ 16`, in powers of ten beyond. -/
def layOut (negative : Bool) (d : Digits) : Numeral :=
  if -4 < d.point ∧ d.point ≤ 16 then
    if d.point ≤ 0 then ⟨negative, ['0'], List.replicate (-d.point).toNat '0' ++ d.digits, none⟩
    else
      let whole := d.digits.take d.point.toNat
      let fraction := d.digits.drop d.point.toNat
      ⟨negative, whole ++ List.replicate (d.point.toNat - whole.length) '0',
        if fraction.isEmpty then ['0'] else fraction, none⟩
  else ⟨negative, d.digits.take 1, d.digits.drop 1, some (d.point - 1)⟩

/-- The numeral of a finite double. -/
def numeral (negative : Bool) (significand : Nat) (exponent : Int) : Numeral :=
  if significand = 0 then ⟨negative, ['0'], ['0'], none⟩
  else layOut negative (shortest significand exponent)

/-- The written form of a double. -/
def write : Binary64 → List Char
  | .nan                => ['n', 'a', 'n']
  | .infinite true      => ['-', 'i', 'n', 'f']
  | .infinite false     => ['i', 'n', 'f']
  | .finite neg m e _   => (numeral neg m e).write

instance : ToString Binary64 := ⟨fun x => String.ofList x.write⟩

example : write (.ofRatio false 1 10) = ['0', '.', '1'] := by decide +kernel
example : write (.ofRatio false 5 1) = ['5', '.', '0'] := by decide +kernel
example : write (.ofRatio true 1 100000) = ['-', '1', 'e', '-', '0', '5'] := by decide +kernel
example : write (.ofRatio false (10 ^ 16) 1) = ['1', 'e', '+', '1', '6'] := by decide +kernel
example : write (.make false 1 (-1074)) = ['5', 'e', '-', '3', '2', '4'] := by decide +kernel

end Intake.Binary64
