import Mathlib.Tactic.Ring
import Intake.Proofs.Magnitude
import Intake.Proofs.Writing

/-!
# Proofs — Whole — whole numbers as doubles

A whole number may come as an integer or as the double of the same value.  Bounds do not tell the
two apart, but places are counted in the written form.  An integer has none.  The digits found for a
whole double (`Binary64.Denotes`) all stand in front of the point, because the grid of units already
has the number itself on it, so that only grids of whole numbers are searched
(`Binary64.Denotes.search_isNear`).  Below `10 ^ 16` the double is then written positionally, with a
zero behind the point, and from there on as a multiple of a power of ten: the zero is counted as a
place (`Binary64.Denotes.places_numeral`).

* **`Test.examine_number_sameAs`**: a test for a number says the same of an integer and of the
  double that equals it, whatever its bounds and its limit of places, unless no place is allowed and
  the number is below `10 ^ 16`.  There the double is refused:  `5.0` has a place that `5` has not.
-/

namespace Intake

namespace Text

/-! ### Counting digits -/

theorem lt_length_toDigits_iff {n j : Nat} (hn : 0 < n) : j < (Nat.toDigits 10 n).length ↔ 10 ^ j ≤ n := by
  rcases Nat.eq_zero_or_pos j with rfl | hj
  · exact iff_of_true Nat.length_toDigits_pos hn
  · rw [← not_le, Nat.length_toDigits_le_iff (by decide) hj, not_lt]

/-- Each power of ten is one more digit. -/
theorem length_toDigits_mul {n : Nat} (hn : 0 < n) (j : Nat) :
    (Nat.toDigits 10 (n * 10 ^ j)).length = (Nat.toDigits 10 n).length + j := by
  have hten (i : Nat) : 0 < 10 ^ i := Nat.pow_pos (by decide)
  refine Nat.le_antisymm ?_ ?_
  · have hlt : n < 10 ^ (Nat.toDigits 10 n).length :=
      (Nat.length_toDigits_le_iff (by decide) Nat.length_toDigits_pos).mp (Nat.le_refl _)
    refine (Nat.length_toDigits_le_iff (by decide) (Nat.add_pos_left Nat.length_toDigits_pos j)).mpr ?_
    rw [pow_add]
    exact Nat.mul_lt_mul_of_pos_right hlt (hten j)
  · obtain ⟨k, hk⟩ := Nat.exists_eq_add_one_of_ne_zero (Nat.length_toDigits_pos (b := 10) (n := n)).ne'
    have hle : 10 ^ k ≤ n := (lt_length_toDigits_iff hn).mp (by omega)
    have hlt : k + j < (Nat.toDigits 10 (n * 10 ^ j)).length := by
      refine (lt_length_toDigits_iff (Nat.mul_pos hn (hten j))).mpr ?_
      rw [pow_add]
      exact Nat.mul_le_mul_right _ hle
    omega

end Text

namespace Binary64
open Text

/-! ### Grids and intervals -/

/-- A significand and an exponent stand for a natural number. -/
def Denotes (significand : Nat) (exponent : Int) (n : Nat) : Prop :=
  significand * 2 ^ exponent.toNat = n * 2 ^ (-exponent).toNat

/-- On grids of whole numbers. -/
theorem gridOf_natCast (e : Int) (g : Nat) :
    gridOf e g = ⟨2 ^ (e - 2).toNat, 2 ^ (2 - e).toNat * 10 ^ g⟩ := by
  have hg : (-(g : Int)).toNat = 0 := by omega
  simp only [gridOf, hg, Int.toNat_natCast, Nat.pow_eq, pow_zero, mul_one]

theorem gridOf_num_pos (e g : Int) : 0 < (gridOf e g).num :=
  Nat.mul_pos (Nat.pow_pos (by decide)) (Nat.pow_pos (by decide))

theorem gridOf_den_pos (e g : Int) : 0 < (gridOf e g).den :=
  Nat.mul_pos (Nat.pow_pos (by decide)) (Nat.pow_pos (by decide))

namespace Interval

variable {i : Interval} {g : Grid} {c : Nat}

theorem holds_of_lt (hlow : i.low * g.num < c * g.den) (hhigh : c * g.den < i.high * g.num) :
    i.holds g c = true := by
  unfold holds
  split
  · exact Bool.and_eq_true_iff.mpr ⟨decide_eq_true (le_of_lt hlow), decide_eq_true (le_of_lt hhigh)⟩
  · exact Bool.and_eq_true_iff.mpr ⟨decide_eq_true hlow, decide_eq_true hhigh⟩

theorem le_of_holds (h : i.holds g c = true) : c * g.den ≤ i.high * g.num := by
  unfold holds at h
  split at h
  · exact of_decide_eq_true (Bool.and_eq_true_iff.mp h).2
  · exact le_of_lt (of_decide_eq_true (Bool.and_eq_true_iff.mp h).2)

/-- What is found lies in the interval, and not below the last grid point up to the middle. -/
theorem nearest?_eq_some (h : i.nearest? g = some c) :
    i.middle * g.num / g.den ≤ c ∧ i.holds g c = true := by
  simp only [nearest?] at h
  split at h
  · rename_i hbelow habove
    split at h
    · cases h
      exact ⟨le_refl _, hbelow⟩
    · split at h
      · cases h
        exact ⟨Nat.le_succ _, habove⟩
      · cases h
        refine ⟨Nat.le_add_right _ _, ?_⟩
        rcases Nat.mod_two_eq_zero_or_one (i.middle * g.num / g.den) with h0 | h1
        · rwa [h0]
        · rwa [h1]
  · rename_i hbelow _
    cases h
    exact ⟨le_refl _, hbelow⟩
  · rename_i _ habove
    cases h
    exact ⟨Nat.le_succ _, habove⟩
  · cases h

theorem nearest?_ne_none (h : i.holds g (i.middle * g.num / g.den) = true) : i.nearest? g ≠ none := by
  simp only [nearest?, h]
  split <;> simp_all

end Interval

namespace Denotes

variable {m n : Nat} {e : Int}

theorem quarter (h : Denotes m e n) : 4 * m * 2 ^ (e - 2).toNat = n * 2 ^ (2 - e).toNat := by
  unfold Denotes at h
  rcases (by omega : e ≤ 0 ∨ e = 1 ∨ 2 ≤ e) with hneg | rfl | hge
  · rw [show e.toNat = 0 by omega, pow_zero, mul_one] at h
    rw [show (e - 2).toNat = 0 by omega, show (2 - e).toNat = 2 + (-e).toNat by omega, pow_add, h]
    ring
  · have hn : m * 2 = n * 1 := h
    show 4 * m * 1 = n * 2
    omega
  · rw [show (-e).toNat = 0 by omega, pow_zero, mul_one, show e.toNat = 2 + (e - 2).toNat by omega,
      pow_add] at h
    rw [show (2 - e).toNat = 0 by omega, pow_zero, mul_one, ← h]
    ring

theorem pos_iff (h : Denotes m e n) : 0 < n ↔ 0 < m := by
  have hpos (k : Nat) : 0 < 2 ^ k := Nat.pow_pos (by decide)
  rw [← Nat.mul_pos_iff_of_pos_right (hpos (-e).toNat), ← h, Nat.mul_pos_iff_of_pos_right (hpos _)]

theorem le_mul (h : Denotes m e n) : n ≤ m * 2 ^ e.toNat := by
  rw [h]
  exact Nat.le_mul_of_pos_right _ (Nat.pow_pos (by decide))

/-- An integer that is a double has hundreds of digits at most. -/
theorem isWritable {k : Int} (h : Denotes m e k.natAbs) (hc : IsCanonical m e) :
    Number.Integer.isWritable k = true := by
  obtain ⟨hm, -, he, -⟩ := hc
  refine Number.Integer.isWritable_iff.mpr ?_
  calc k.natAbs ≤ m * 2 ^ e.toNat := h.le_mul
    _ < 2 ^ 53 * 2 ^ e.toNat := Nat.mul_lt_mul_of_pos_right hm (Nat.pow_pos (by decide))
    _ ≤ 10 ^ 53 * 10 ^ e.toNat := Nat.mul_le_mul (by decide) (Nat.pow_le_pow_left (by decide) _)
    _ = 10 ^ (53 + e.toNat) := (pow_add _ _ _).symm
    _ ≤ 10 ^ maxNumeralDigits := Nat.pow_le_pow_right (by decide) (by unfold maxNumeralDigits; omega)

theorem decade_eq (h : Denotes m e n) (hn : 0 < n) : decade m e = (Nat.toDigits 10 n).length := by
  have hscaled (j : Nat) : m * j * 2 ^ e.toNat / 2 ^ (-e).toNat = n * j := by
    rw [mul_right_comm, h, mul_right_comm, Nat.mul_div_cancel _ (Nat.pow_pos (by decide))]
  rw [Binary64.decade]
  simp only [Nat.pow_eq, hscaled, length_toDigits_mul hn]
  omega

/-- On a grid of whole numbers the middle of the interval is the number. -/
theorem middle (h : Denotes m e n) (g : Nat) :
    (interval m e).middle * (gridOf e g).num * 10 ^ g = n * (gridOf e g).den := by
  rw [gridOf_natCast, ← mul_assoc, ← h.quarter]
  rfl

theorem below (h : Denotes m e n) (g : Nat) :
    (interval m e).middle * (gridOf e g).num / (gridOf e g).den = n / 10 ^ g := by
  have hten : 0 < 10 ^ g := Nat.pow_pos (by decide)
  rw [← Nat.mul_div_mul_right _ _ hten, h.middle, mul_comm (gridOf e g).den,
    Nat.mul_div_mul_right _ _ (gridOf_den_pos e g)]

/-- A grid that has the number itself is not passed by. -/
theorem holds_of_dvd (h : Denotes m e n) (hn : 0 < n) {g : Nat} (hg : 10 ^ g ∣ n) :
    (interval m e).holds (gridOf e g) (n / 10 ^ g) = true := by
  have hm : 0 < m := h.pos_iff.mp hn
  have hten : 0 < 10 ^ g := Nat.pow_pos (by decide)
  have hpoint : n / 10 ^ g * (gridOf e g).den = (interval m e).middle * (gridOf e g).num := by
    apply Nat.eq_of_mul_eq_mul_right hten
    rw [h.middle, Nat.mul_right_comm, Nat.div_mul_cancel hg]
  have hlow : (interval m e).low < (interval m e).middle := by
    simp only [interval]
    split <;> omega
  have hhigh : (interval m e).middle < (interval m e).high := Nat.lt_add_of_pos_right (by decide)
  apply Interval.holds_of_lt
  · rw [hpoint]
    exact Nat.mul_lt_mul_of_pos_right hlow (gridOf_num_pos e g)
  · rw [hpoint]
    exact Nat.mul_lt_mul_of_pos_right hhigh (gridOf_num_pos e g)

/-- Below `10 ^ 16` a last place is worth at most two. -/
theorem exponent_le (h : Denotes m e n) (hc : IsCanonical m e) (hn : n < 10 ^ 16) : e ≤ 1 := by
  by_contra he
  have hm : 2 ^ 52 ≤ m := hc.2.2.2.resolve_right (by omega)
  have hpow : 2 ^ 2 ≤ 2 ^ e.toNat := Nat.pow_le_pow_right (by decide) (by omega)
  have hle : 2 ^ 52 * 2 ^ 2 ≤ m * 2 ^ e.toNat := Nat.mul_le_mul hm hpow
  rw [h, show (-e).toNat = 0 by omega, pow_zero, mul_one] at hle
  exact absurd (lt_of_le_of_lt hle hn) (by decide)

theorem lt_of_holds (h : Denotes m e n) (hc : IsCanonical m e) (hn : n < 10 ^ 16) {g c : Nat}
    (hholds : (interval m e).holds (gridOf e g) c = true) : c * 10 ^ g < 10 ^ 16 := by
  have he := h.exponent_le hc hn
  have hle := Interval.le_of_holds hholds
  rw [gridOf_natCast, show (e - 2).toNat = 0 by omega, pow_zero, mul_one, mul_left_comm] at hle
  replace hle : 2 ^ (2 - e).toNat * (c * 10 ^ g) ≤ 4 * m + 2 := hle
  unfold Denotes at h
  rcases (by omega : e ≤ 0 ∨ e = 1) with hneg | rfl
  · -- half a last place is less than one, so no whole number above is in the interval
    rw [show e.toNat = 0 by omega, pow_zero, mul_one] at h
    have hpos : 0 < 2 ^ (-e).toNat := Nat.pow_pos (by decide)
    have hquarters : 2 ^ (2 - e).toNat * (c * 10 ^ g) = 4 * (c * 10 ^ g * 2 ^ (-e).toNat) := by
      rw [show (2 - e).toNat = 2 + (-e).toNat by omega, pow_add]
      ring
    refine lt_of_le_of_lt ?_ hn
    by_contra hlt
    have hnext : (n + 1) * 2 ^ (-e).toNat ≤ c * 10 ^ g * 2 ^ (-e).toNat :=
      Nat.mul_le_mul_right _ (not_le.mp hlt)
    rw [add_mul, one_mul] at hnext
    omega
  · -- the number is even, and so is `10 ^ 16`
    have hdouble : m * 2 = n * 1 := h
    replace hle : 2 * (c * 10 ^ g) ≤ 4 * m + 2 := hle
    omega

end Denotes

/-! ### The digits that are found -/

/-- A multiple of a power of ten that is found for a number: no less than the multiple below the
number, and on the same side of `10 ^ 16`. -/
structure IsNear (n c g : Nat) : Prop where
  leading : 10 ^ g ≤ n
  below   : n / 10 ^ g ≤ c
  above   : n < 10 ^ 16 → c * 10 ^ g < 10 ^ 16

theorem length_dropTrailingZeros_le (s : List Char) : (dropTrailingZeros s).length ≤ s.length := by
  have hsuffix : s.reverse.dropWhile (· == '0') <:+ s.reverse := List.dropWhile_suffix _
  simpa only [dropTrailingZeros, List.length_reverse] using hsuffix.length_le

namespace IsNear

variable {n c g : Nat}

theorem pos (h : IsNear n c g) : 0 < c :=
  lt_of_lt_of_le (Nat.div_pos h.leading (Nat.pow_pos (by decide))) h.below

theorem lt_iff (h : IsNear n c g) : c * 10 ^ g < 10 ^ 16 ↔ n < 10 ^ 16 := by
  refine ⟨fun hlt => ?_, h.above⟩
  by_contra hn
  have hg : g ≤ 16 := by
    have hle : 10 ^ g ≤ c * 10 ^ g := Nat.le_mul_of_pos_left _ h.pos
    exact (Nat.pow_lt_pow_iff_right (by decide)).mp (lt_of_le_of_lt hle hlt) |>.le
  have hsplit : 10 ^ 16 = 10 ^ (16 - g) * 10 ^ g := by rw [← pow_add, Nat.sub_add_cancel hg]
  have hdiv : 10 ^ (16 - g) ≤ n / 10 ^ g := by
    rw [Nat.le_div_iff_mul_le (Nat.pow_pos (by decide)), ← hsplit]
    exact not_lt.mp hn
  rw [hsplit] at hlt
  exact absurd (Nat.lt_of_mul_lt_mul_right hlt) (not_lt.mpr (le_trans hdiv h.below))

end IsNear

theorem point_digitsOn {c : Nat} (hc : 0 < c) (g : Nat) :
    (digitsOn c g).point = (Nat.toDigits 10 (c * 10 ^ g)).length := by
  show ((g : Int) + (Nat.toDigits 10 c).length : Int) = _
  rw [length_toDigits_mul hc]
  omega

theorem length_digitsOn_le (c g : Nat) : ((digitsOn c g).digits.length : Int) ≤ (digitsOn c g).point := by
  have hle := length_dropTrailingZeros_le (Nat.toDigits 10 c)
  show ((dropTrailingZeros (Nat.toDigits 10 c)).length : Int) ≤ g + (Nat.toDigits 10 c).length
  omega

namespace Denotes

variable {m n : Nat} {e : Int}

/-- Every grid the search looks at is one of whole numbers, because the grid of units has the number
itself. -/
theorem search_isNear (h : Denotes m e n) (hc : IsCanonical m e) (hn : 0 < n) {count fuel : Nat}
    (hsum : count + fuel = 18) (hpos : 0 < count) (hcount : count ≤ (Nat.toDigits 10 n).length) :
    ∃ c g : Nat, IsNear n c g ∧
      search e (Nat.toDigits 10 n).length (interval m e) count fuel = digitsOn c g := by
  induction fuel generalizing count with
  | zero =>
      obtain ⟨g, hg⟩ := Nat.exists_eq_add_of_le hcount
      have hgrid : ((Nat.toDigits 10 n).length : Int) - count = g := by omega
      have hlead : 10 ^ 16 ≤ n := (lt_length_toDigits_iff hn).mp (by omega)
      rw [search, hgrid, h.below]
      refine ⟨n / 10 ^ g, g, ⟨(lt_length_toDigits_iff hn).mp (by omega), le_refl _, ?_⟩, rfl⟩
      exact fun hlt => absurd hlt (not_lt.mpr hlead)
  | succ fuel ih =>
      obtain ⟨g, hg⟩ := Nat.exists_eq_add_of_le hcount
      have hgrid : ((Nat.toDigits 10 n).length : Int) - count = g := by omega
      have hlead : 10 ^ g ≤ n := (lt_length_toDigits_iff hn).mp (by omega)
      rw [search, hgrid]
      split
      · rename_i c hnearest
        obtain ⟨hbelow, hholds⟩ := Interval.nearest?_eq_some hnearest
        rw [h.below] at hbelow
        exact ⟨c, g, ⟨hlead, hbelow, fun hlt => h.lt_of_holds hc hlt hholds⟩, rfl⟩
      · rename_i hnone
        cases g with
        | zero =>
            refine absurd hnone (Interval.nearest?_ne_none ?_)
            rw [h.below]
            exact h.holds_of_dvd hn (one_dvd n)
        | succ g => exact ih (by omega) (by omega) (by omega)

theorem shortest_isNear (h : Denotes m e n) (hc : IsCanonical m e) (hn : 0 < n) :
    ∃ c g : Nat, IsNear n c g ∧ shortest m e = digitsOn c g := by
  rw [shortest, h.decade_eq hn]
  exact h.search_isNear hc hn rfl Nat.one_pos Nat.length_toDigits_pos

end Denotes

/-! ### Laying out -/

variable {d : Digits}

theorem places_layOut_of_le (negative : Bool) (hlength : (d.digits.length : Int) ≤ d.point)
    (hpos : 0 < d.point) (h : d.point ≤ 16) : (layOut negative d).places = 1 := by
  have hdrop : d.digits.drop d.point.toNat = [] := List.drop_eq_nil_of_le (by omega)
  rw [layOut, if_pos ⟨by omega, h⟩, if_neg (by omega), hdrop]
  rfl

theorem places_layOut_of_lt (negative : Bool) (hlength : (d.digits.length : Int) ≤ d.point)
    (h : 16 < d.point) : (layOut negative d).places ≤ 0 := by
  rw [layOut, if_neg (by omega)]
  show ((d.digits.drop 1).length : Int) - (d.point - 1) ≤ 0
  rw [List.length_drop]
  omega

namespace Denotes

variable {m n : Nat} {e : Int}

/-- A whole double is written with one digit behind the point, which is a zero, or as a multiple of
a power of ten. -/
theorem places_numeral (h : Denotes m e n) (hc : IsCanonical m e) (negative : Bool) :
    (n < 10 ^ 16 → (numeral negative m e).places = 1) ∧
      (10 ^ 16 ≤ n → (numeral negative m e).places ≤ 0) := by
  rcases Nat.eq_zero_or_pos n with rfl | hn
  · have hm : m = 0 := Nat.eq_zero_of_not_pos (mt h.pos_iff.mpr (Nat.lt_irrefl 0))
    rw [numeral, if_pos hm]
    exact ⟨fun _ => rfl, fun hle => absurd hle (by decide)⟩
  · have hm : m ≠ 0 := (h.pos_iff.mp hn).ne'
    obtain ⟨c, g, hnear, hshortest⟩ := h.shortest_isNear hc hn
    have hlength := length_digitsOn_le c g
    have hpoint : (digitsOn c g).point ≤ 16 ↔ n < 10 ^ 16 := by
      rw [point_digitsOn hnear.pos, ← hnear.lt_iff, ← Nat.length_toDigits_le_iff (by decide) (by decide)]
      exact Int.ofNat_le
    have hpos : 0 < (digitsOn c g).point := by
      rw [point_digitsOn hnear.pos]
      exact Int.natCast_pos.mpr Nat.length_toDigits_pos
    rw [numeral, if_neg hm, hshortest]
    constructor
    · intro hlt
      exact places_layOut_of_le negative hlength hpos (hpoint.mpr hlt)
    · intro hle
      exact places_layOut_of_lt negative hlength (not_le.mp (mt hpoint.mp (not_lt.mpr hle)))

end Denotes

end Binary64

namespace Number

/-- A double that equals an integer is finite and stands for it. -/
theorem exists_of_sameAs_float {n : Int} {x : Binary64} (h : sameAs (.int n) (.float x) = true) :
    ∃ negative m e, ∃ hc : IsCanonical m e,
      x = .finite negative m e hc ∧ Binary64.Denotes m e n.natAbs := by
  obtain ⟨y, z, hy, hz, hyz⟩ := sameAs_iff.mp h
  cases hy
  cases x with
  | nan => cases hz
  | infinite negative => cases negative <;> cases hz <;> cases hyz
  | finite negative m e hc =>
      refine ⟨negative, m, e, hc, rfl, ?_⟩
      cases hz
      have habs : (if negative then -(m : Int) else m).natAbs = m := by
        split <;> omega
      rw [Extent.compare, compare_eq_iff_eq] at hyz
      replace hyz := congrArg Int.natAbs hyz
      simp only [Extent.scaled, Int.pow_eq, Int.natAbs_mul, Int.natAbs_pow, habs] at hyz
      rw [show (0 - min 0 e).toNat = (-e).toNat by omega,
        show (e - min 0 e).toNat = e.toNat by omega] at hyz
      exact hyz.symm

theorem places_int {n : Int} (h : Integer.isWritable n = true) : (Number.int n).places = .ok 0 := by
  rw [places, Integer.write_of_isWritable h]
  rfl

end Number

namespace Test

variable {t : Test} {v : Value} {a : Number} {least most : Option Number} {places : Option Int}

theorem tooManyPlaces_of_le {k p : Int} (h : a.places = .ok k) (hp : k ≤ p) :
    tooManyPlaces t a (some p) = .ok none := by
  rw [tooManyPlaces, h]
  exact if_neg (not_lt.mpr hp)

theorem tooManyPlaces_zero (h : a.places = .ok 1) :
    tooManyPlaces t a (some 0) = .ok (some (t.finding "must have at most 0 decimal places")) := by
  rw [tooManyPlaces, h]
  rfl

theorem examine_number_of_tooManyPlaces {f : Finding} (hv : v.number? = some a) (ha : a.isFinite = true)
    (h : tooManyPlaces (.number least most places) a places = .ok (some f)) :
    (number least most places).examine v = .ok (some f) := by
  simp only [examine, hv, ha, h]
  rfl

theorem examine_number_of_fewPlaces (hv : v.number? = some a) (ha : a.isFinite = true)
    (h : tooManyPlaces (.number least most places) a places = .ok none) :
    (number least most places).examine v = outOfBounds a least most := by
  simp only [examine, hv, ha, h]
  rfl

/-- **One verdict for one number.**  An integer and the double of the same value pass or fail alike,
with the same finding, under all bounds and limits; but with no place allowed a double below `10 ^
16` is refused. -/
theorem examine_number_sameAs {n : Int} {x : Binary64} (h : (Number.int n).sameAs (.float x) = true)
    (least most : Option Number) (places : Option Nat) :
    (number least most (places.map Int.ofNat)).examine (.float x) =
      if places = some 0 ∧ n.natAbs < 10 ^ 16 then
        .ok (some ((number least most (places.map Int.ofNat)).finding "must have at most 0 decimal places"))
      else (number least most (places.map Int.ofNat)).examine (.int n) := by
  obtain ⟨negative, m, e, hc, rfl, hdenotes⟩ := Number.exists_of_sameAs_float h
  have hbounds := outOfBounds_congr h least most
  obtain ⟨hbelow, habove⟩ := hdenotes.places_numeral hc negative
  cases places with
  | none =>
      rw [if_neg (by simp), examine_number_of_fewPlaces rfl rfl rfl,
        examine_number_of_fewPlaces rfl rfl rfl, hbounds]
  | some p =>
      have hint : (number least most (some (p : Int))).examine (.int n) = outOfBounds (.int n) least most :=
        examine_number_of_fewPlaces rfl rfl
          (tooManyPlaces_of_le (Number.places_int (hdenotes.isWritable hc)) (Int.natCast_nonneg p))
      have hfew (hle : (Binary64.numeral negative m e).places ≤ p) :
          (number least most (some (p : Int))).examine (.float (.finite negative m e hc)) =
            (number least most (some (p : Int))).examine (.int n) := by
        rw [hint, hbounds]
        exact examine_number_of_fewPlaces rfl rfl (tooManyPlaces_of_le rfl hle)
      split
      · rename_i hzero
        obtain ⟨hp, hlt⟩ := hzero
        cases hp
        exact examine_number_of_tooManyPlaces rfl rfl (tooManyPlaces_zero (congrArg Except.ok (hbelow hlt)))
      · rename_i hnonzero
        apply hfew
        rcases lt_or_ge n.natAbs (10 ^ 16) with hlt | hge
        · have hp : p ≠ 0 := fun hp => hnonzero ⟨congrArg some hp, hlt⟩
          rw [hbelow hlt]
          omega
        · exact le_trans (habove hge) (Int.natCast_nonneg p)

/-- A hundred is beyond its bounds in either form, and as a double it has a place too many first. -/
theorem examine_number_sameAs_hundred :
    (Number.int 100).sameAs (.float (.ofRatio false 100 1)) = true ∧
      (number none (some (.int 99)) (some 2)).examine (.float (.ofRatio false 100 1)) =
        (number none (some (.int 99)) (some 2)).examine (.int 100) ∧
      (number none (some (.int 99)) (some 0)).examine (.float (.ofRatio false 100 1)) =
        .ok (some ⟨"is_number", .typeMismatch, "must have at most 0 decimal places"⟩) := by
  have hsame : (Number.int 100).sameAs (.float (.ofRatio false 100 1)) = true := by decide +kernel
  have htwo := examine_number_sameAs hsame none (some (.int 99)) (some 2)
  have hnone := examine_number_sameAs hsame none (some (.int 99)) (some 0)
  rw [if_neg (by decide)] at htwo
  rw [if_pos (by decide)] at hnone
  exact ⟨hsame, htwo, hnone⟩

/-- Where no place is allowed, five is accepted as an integer and refused as the double that equals
it. -/
theorem fiveDouble_refused :
    (Number.int 5).sameAs (.float (.ofRatio false 5 1)) = true ∧
      (number none none (some 0)).examine (.int 5) = .ok none ∧
      (number none none (some 0)).examine (.float (.ofRatio false 5 1)) =
        .ok (some ⟨"is_number", .typeMismatch, "must have at most 0 decimal places"⟩) := by
  exact ⟨by decide +kernel, rfl, by decide +kernel⟩

end Test

end Intake
