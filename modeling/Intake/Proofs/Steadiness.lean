import Intake.Proofs.Computation
import Intake.Test.Convert
import Intake.Test.Examine

/-!
# Proofs — Steadiness — what a test accepts it has read to the end

Only texts are ever read as something else, and only by the tests of integers, numbers, truth values
and dates, which accept no text.  So a value that a test accepts is left as it is by the conversion
and the coercion of that test (`Test.leaves_of_accepts`).
-/

namespace Intake

namespace Test

/-- The tests that read something else from a text. -/
def rereads : Test → Bool
  | .integer .. | .number .. | .boolean | .date => true
  | _                                           => false

/-- Whether a test has nothing to read from a value, so that it looks at the value as it is. -/
def leaves (t : Test) (v : Value) : Bool := !(t.rereads && v.text?.isSome)

theorem leaves_of_not_rereads {t : Test} (h : t.rereads = false) (v : Value) : t.leaves v = true := by
  simp [leaves, h]

/-- What is left to read is a text, and by one of a few tests. -/
theorem exists_text_of_not_leaves {t : Test} {v : Value} (h : t.leaves v = false) :
    t.rereads = true ∧ ∃ s, v = .text s := by
  rw [leaves, Bool.not_eq_false', Bool.and_eq_true] at h
  refine ⟨h.1, ?_⟩
  cases v with
  | text s => exact ⟨s, rfl⟩
  | _ => cases h.2

theorem convert_of_leaves {t : Test} {v : Value} (h : t.leaves v = true) : t.convert v = .ok v := by
  cases v with
  | text s =>
      cases t with
      | integer | number | boolean | date => cases h
      | _ => rfl
  | _ => cases t <;> rfl

theorem coerce_of_leaves {t : Test} {v : Value} (h : t.leaves v = true) : t.coerce v = v := by
  cases v with
  | text s =>
      cases t with
      | integer | number | boolean | date => cases h
      | _ => rfl
  | _ => cases t <;> rfl

/-- Whether a test runs on a value and finds nothing wrong with it. -/
def accepts (t : Test) (v : Value) : Bool :=
  match t.examine v with
  | .ok none => true
  | _        => false

theorem accepts_iff {t : Test} {v : Value} : t.accepts v = true ↔ t.examine v = .ok none := by
  unfold accepts
  split
  · rename_i h
    simp [h]
  · rename_i h
    simpa using h

theorem leaves_of_accepts {t : Test} {v : Value} (h : t.accepts v = true) : t.leaves v = true := by
  cases v with
  | text s =>
      cases t with
      | integer | number | boolean | date => cases h
      | _ => rfl
  | _ => simp [leaves, Value.text?]

/-- What a test of lists accepts is a list. -/
theorem exists_items_of_accepts {minSize : Option Int} {v : Value} (h : (array minSize).accepts v = true) :
    ∃ items, v.items? = some items := by
  cases hi : v.items? with
  | none => simp [accepts, examine, hi] at h
  | some items => exact ⟨items, rfl⟩

end Test

end Intake
