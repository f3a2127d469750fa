/-!
# Text — Units — positions by encoded width

A format that counts positions in UTF-8 bytes is read from a text laid out in units, where each
character stands once for every byte of its encoding.  An ASCII text is its own layout
(`units_eq_self`).
-/

namespace Intake.Text

/-- Each character as often as its encoding has bytes. -/
def units (s : List Char) : List Char := s.flatMap fun c => List.replicate c.utf8Size c

theorem units_eq_self {s : List Char} (h : ∀ c ∈ s, c.utf8Size = 1) : units s = s := by
  induction s with
  | nil => rfl
  | cons c s ih =>
    have hc := h c (by simp)
    have hs := ih fun x hx => h x (by simp [hx])
    simp only [units, List.flatMap_cons, hc] at hs ⊢
    rw [hs]
    rfl

end Intake.Text
