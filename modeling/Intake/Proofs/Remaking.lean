import Intake.Proofs.Steadiness

/-!
# Proofs — Remaking — what can become of a value

On its way through checks a value stays as it is, or it is a text that is read as something else, or
a list or tuple whose items are replaced (`Value.Remade`).  Steps of this kind add up to one.  None
of them makes null or a text out of anything else, and none makes something that counts as true out
of what does not, because an empty text is read as nothing and items are replaced one for one.
-/

namespace Intake

namespace Value

/-- The values that are read from texts. -/
def isReading : Value → Bool
  | .bool _ | .int _ | .float _ | .moment _ => true
  | _                                       => false

theorem items?_of_isReading {v : Value} (h : v.isReading = true) : v.items? = none := by
  cases v with
  | list | tuple => cases h
  | _ => rfl

/-- What checks can make of a value. -/
inductive Remade : Value → Value → Prop where
  | same (v : Value) : Remade v v
  | read {s : String} {w : Value} (hs : s ≠ "") (hw : w.isReading = true) : Remade (.text s) w
  /-- The new items are as many as the old ones. -/
  | replaced {v : Value} {items items' : List Value} (hv : v.items? = some items)
      (hl : items.length = items'.length) : Remade v (.list items')

namespace Remade

theorem trans {u v w : Value} (h₁ : u.Remade v) (h₂ : v.Remade w) : u.Remade w := by
  cases h₁ with
  | same => exact h₂
  | read hs hv =>
      -- what has been read is neither a text nor a list, so it stays
      cases h₂ with
      | same => exact .read hs hv
      | read => cases hv
      | replaced hi =>
          rw [items?_of_isReading hv] at hi
          cases hi
  | replaced hv hl =>
      cases h₂ with
      | same => exact .replaced hv hl
      | replaced hv' hl' =>
          cases hv'
          exact .replaced hv (hl.trans hl')

theorem eq_null {v : Value} (h : v.Remade .null) : v = .null := by
  cases h with
  | same => rfl
  | read _ hw => cases hw

theorem isTruthy {v w : Value} (h : v.Remade w) (hw : w.isTruthy = true) : v.isTruthy = true := by
  cases h with
  | same => exact hw
  | read hs => simpa [Value.isTruthy] using hs
  | @replaced _ items items' hv hl =>
      have hne : items ≠ [] := by
        rintro rfl
        rw [List.length_nil, eq_comm, List.length_eq_zero_iff] at hl
        rw [hl] at hw
        cases hw
      cases v <;> cases hv <;> simpa [Value.isTruthy] using hne

end Remade

end Value

theorem Number.Integer.ne_empty_of_isNumeral {s : String} (h : isNumeral s = true) : s ≠ "" := by
  rintro rfl
  exact absurd h (by decide)

/-- A reader that reads nothing from the empty text. -/
theorem ne_empty_of_read {α : Type} {f : String → Option α} (hf : f "" = none) {s : String} {x : α}
    (h : f s = some x) : s ≠ "" := by
  rintro rfl
  rw [hf] at h
  cases h

namespace Test

theorem convert_remade {t : Test} {v w : Value} (h : t.convert v = .ok w) : v.Remade w := by
  cases hl : t.leaves v with
  | true =>
      rw [convert_of_leaves hl] at h
      cases h
      exact .same v
  | false =>
      obtain ⟨hr, s, rfl⟩ := exists_text_of_not_leaves hl
      cases t with
      | integer least most =>
          simp only [convert] at h
          split at h
          · rename_i hs
            obtain ⟨n, -, rfl⟩ := bind_pure_eq_ok_iff.mp h
            exact .read (Number.Integer.ne_empty_of_isNumeral hs) rfl
          · cases h
            exact .same _
      | number least most places =>
          simp only [convert] at h
          split at h
          · rename_i hs
            obtain ⟨n, -, rfl⟩ := bind_pure_eq_ok_iff.mp h
            exact .read (Number.Integer.ne_empty_of_isNumeral hs) rfl
          · split at h
            · rename_i hx
              cases h
              exact .read (ne_empty_of_read (by decide) hx) rfl
            · cases h
              exact .same _
      | boolean =>
          simp only [convert] at h
          split at h
          · rename_i hb
            cases h
            exact .read (ne_empty_of_read (by decide) hb) rfl
          · cases h
            exact .same _
      | date =>
          cases h
          exact .same _
      | _ => cases hr

theorem coerce_remade (t : Test) (v : Value) : v.Remade (t.coerce v) := by
  cases hl : t.leaves v with
  | true =>
      rw [coerce_of_leaves hl]
      exact .same v
  | false =>
      obtain ⟨hr, s, rfl⟩ := exists_text_of_not_leaves hl
      cases t with
      | date =>
          simp only [coerce]
          split
          · rename_i hm
            exact .read (ne_empty_of_read (by decide) hm) rfl
          · exact .same _
      | integer | number | boolean => exact .same _
      | _ => cases hr

end Test

end Intake
