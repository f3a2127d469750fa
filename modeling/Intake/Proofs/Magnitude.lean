import Mathlib.Algebra.Order.Ring.Int
import Mathlib.Algebra.Order.Ring.Unbundled.Basic
import Intake.Test.Examine

/-!
# Proofs — Magnitude — numbers are compared by their value

Two numbers are compared on the coarser scale that holds both.  Any finer scale would do as well
(`Extent.compare_finite`), so three numbers can be compared on one, and the comparison is an order.
Numbers of the same value then compare alike with every other number (`Number.compare?_congr_left`,
`Number.compare?_congr_right`), and bounds, which only compare, do not tell them apart
(`Test.outOfBounds_congr`).
-/

namespace Intake

namespace Extent

theorem scaled_eq_mul {m e s t : Int} (hst : s ≤ t) (hte : t ≤ e) :
    scaled m e s = scaled m e t * 2 ^ (t - s).toNat := by
  have hexp : (e - s).toNat = (e - t).toNat + (t - s).toNat := by omega
  show m * 2 ^ (e - s).toNat = m * 2 ^ (e - t).toNat * 2 ^ (t - s).toNat
  rw [hexp, pow_add, mul_assoc]

theorem compare_finite {m e n f s : Int} (he : s ≤ e) (hf : s ≤ f) :
    compare (.finite m e) (.finite n f) = Ord.compare (scaled m e s) (scaled n f s) := by
  have hs : s ≤ min e f := le_min he hf
  have hpos : (0 : Int) < 2 ^ (min e f - s).toNat := pow_pos (by decide) _
  rw [scaled_eq_mul hs (min_le_left e f), scaled_eq_mul hs (min_le_right e f)]
  rw [compare, ← cmp_eq_compare, ← cmp_eq_compare, cmp_mul_pos_right hpos]

theorem compare_eq_swap (a b : Extent) : a.compare b = (b.compare a).swap := by
  cases a with
  | finite m e =>
      cases b with
      | finite n f =>
          rw [compare_finite (min_le_left e f) (min_le_right e f),
            compare_finite (min_le_right e f) (min_le_left e f)]
          exact Std.OrientedOrd.eq_swap
      | _ => rfl
  | _ => cases b <;> rfl

theorem compare_isLE_trans {a b c : Extent} (hab : (a.compare b).isLE) (hbc : (b.compare c).isLE) :
    (a.compare c).isLE := by
  cases a with
  | bottom => cases c <;> rfl
  | top => cases b <;> first | exact hbc | cases hab
  | finite m e =>
      cases b with
      | bottom => cases hab
      | top => cases c <;> first | rfl | cases hbc
      | finite n f =>
          cases c with
          | bottom => cases hbc
          | top => rfl
          | finite k g =>
              have he : min (min e f) g ≤ e := le_trans (min_le_left _ _) (min_le_left _ _)
              have hf : min (min e f) g ≤ f := le_trans (min_le_left _ _) (min_le_right _ _)
              have hg : min (min e f) g ≤ g := min_le_right _ _
              rw [compare_finite he hf] at hab
              rw [compare_finite hf hg] at hbc
              rw [compare_finite he hg]
              exact Std.TransOrd.isLE_trans hab hbc

instance : Std.TransCmp Extent.compare where
  eq_swap    := compare_eq_swap _ _
  isLE_trans := compare_isLE_trans

end Extent

namespace Number

variable {a b : Number}

theorem sameAs_iff : a.sameAs b = true ↔ ∃ x y, a.extent? = some x ∧ b.extent? = some y ∧ x.compare y = .eq := by
  cases hx : a.extent? <;> cases hy : b.extent? <;> simp [sameAs, compare?, hx, hy]

theorem compare?_congr_left (h : a.sameAs b = true) (c : Number) : a.compare? c = b.compare? c := by
  obtain ⟨x, y, hx, hy, hxy⟩ := sameAs_iff.mp h
  have hc (z : Extent) : x.compare z = y.compare z := Std.TransCmp.congr_left hxy
  simp only [compare?, hx, hy, Option.bind_eq_bind, Option.bind_some, hc]

theorem compare?_congr_right (h : a.sameAs b = true) (c : Number) : c.compare? a = c.compare? b := by
  obtain ⟨x, y, hx, hy, hxy⟩ := sameAs_iff.mp h
  have hc (z : Extent) : z.compare x = z.compare y := Std.TransCmp.congr_right hxy
  simp only [compare?, hx, hy, Option.bind_eq_bind, Option.bind_some, hc]

end Number

theorem Test.outOfBounds_congr {a b : Number} (h : a.sameAs b = true) (least most : Option Number) :
    outOfBounds a least most = outOfBounds b least most := by
  have hleast (low : Number) : a.lessThan low = b.lessThan low := by
    rw [Number.lessThan, Number.compare?_congr_left h, Number.lessThan]
  have hmost (high : Number) : high.lessThan a = high.lessThan b := by
    rw [Number.lessThan, Number.compare?_congr_right h, Number.lessThan]
  simp only [outOfBounds, hleast, hmost]

end Intake
