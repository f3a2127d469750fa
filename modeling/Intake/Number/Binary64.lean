/-!
# Number — Binary64 — double precision, exactly

A double is not a number, an infinity, or a sign with a significand and a binary exponent in
canonical form, so that each finite double has one representation and zero has its two.  A ratio of
natural numbers is rounded to the nearest double by exact arithmetic.
-/

namespace Intake

/-- The significand has at most 53 bits, and fewer only at the smallest exponent. -/
def IsCanonical (significand : Nat) (exponent : Int) : Prop :=
  significand < Nat.pow 2 53 ∧ -1074 ≤ exponent ∧ exponent ≤ 971
    ∧ (Nat.pow 2 52 ≤ significand ∨ exponent = -1074)

instance (significand : Nat) (exponent : Int) : Decidable (IsCanonical significand exponent) :=
  inferInstanceAs (Decidable (_ ∧ _))

inductive Binary64 where
  | nan
  | infinite (negative : Bool)
  /-- The number `± significand · 2 ^ exponent`. -/
  | finite (negative : Bool) (significand : Nat) (exponent : Int)
      (canonical : IsCanonical significand exponent)
deriving DecidableEq

namespace Binary64

def zero (negative : Bool) : Binary64 := .finite negative 0 (-1074) (by decide)

/-- A canonical significand and exponent, or the infinity that lies beyond all of them. -/
def make (negative : Bool) (significand : Nat) (exponent : Int) : Binary64 :=
  if h : IsCanonical significand exponent then .finite negative significand exponent h
  else .infinite negative

/-- The integer nearest to a quotient; a half goes to the even neighbour. -/
def roundHalfEven (num den : Nat) : Nat :=
  let quotient := num / den
  let twice    := 2 * (num % den)
  if twice < den then quotient
  else if den < twice then quotient + 1
  else quotient + quotient % 2

/-- The exponent `t` with `2 ^ t ≤ num / den < 2 ^ (t + 1)`. -/
def binade (num den : Nat) : Int :=
  let t : Int := (num.log2 : Int) - den.log2
  if num * Nat.pow 2 (-t).toNat < den * Nat.pow 2 t.toNat then t - 1 else t

/-- The double nearest to `± num / den`; a tie goes to the even significand, and a ratio beyond the
largest double to an infinity. -/
def ofRatio (negative : Bool) (num den : Nat) : Binary64 :=
  if num = 0 then zero negative
  else
    let e := max (-1074) (binade num den - 52)
    let m := roundHalfEven (num * Nat.pow 2 (-e).toNat) (den * Nat.pow 2 e.toNat)
    if m = Nat.pow 2 53 then make negative (Nat.pow 2 52) (e + 1) else make negative m e

def isFinite : Binary64 → Bool
  | .finite .. => true
  | _          => false

example : ofRatio false 1 10 = make false 7205759403792794 (-56) := by decide +kernel
example : ofRatio true 3 2 = make true 6755399441055744 (-52) := by decide +kernel
example : ofRatio false (2 ^ 1024 - 2 ^ 970) 1 = .infinite false := by decide +kernel
example : ofRatio false 1 (2 ^ 1075) = zero false := by decide +kernel

end Binary64

end Intake
