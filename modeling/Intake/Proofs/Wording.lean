import Intake.Proofs.Lookup
import Intake.Proofs.Numeral
import Intake.Value.Shown

/-!
# Proofs — Wording — words that only a text shows

A test of words looks at the display form of a value, which need not be a text.  But most other
values show a character that is no letter: a digit, a sign, a separator or a bracket; and the few
that do not are null, the truth values and the doubles that are no number or infinite.  So a word of
letters that is none of these five names (`Text.isPlainWord`) is the display form of a text only
(`Value.eq_text_of_display`).
-/

namespace Intake

/-- A word of letters that no value but a text is shown as. -/
def Text.isPlainWord (w : String) : Bool :=
  w.toList.all Char.isAlpha && (["None", "True", "False", "nan", "inf"].contains w == false)

theorem Text.not_isPlainWord_of_mem {w : String} {c : Char} (hc : c ∈ w.toList) (ha : c.isAlpha = false) :
    isPlainWord w = false := by
  have hall : w.toList.all Char.isAlpha = false := List.all_eq_false.mpr ⟨c, hc, by simp [ha]⟩
  rw [isPlainWord, hall, Bool.false_and]

/-- Letters come behind the digits. -/
theorem Text.isAlpha_of_isDigit {c : Char} (h : c.isDigit = true) : c.isAlpha = false := by
  have hbound : c.toNat ≤ 0x39 := (Char.isDigit_iff_toNat.mp h).2
  have hbehind {a : Char} (ha : 0x39 < a.toNat) : ¬ a.val ≤ c.val := fun hle =>
    Nat.not_le.mpr ha (Nat.le_trans (UInt32.le_iff_toNat_le.mp hle) hbound)
  refine Bool.eq_false_iff.mpr fun halpha => ?_
  rcases Bool.or_eq_true_iff.mp halpha with hupper | hlower
  · exact hbehind (a := 'A') (by decide) (of_decide_eq_true hupper).1
  · exact hbehind (a := 'a') (by decide) (of_decide_eq_true (Bool.and_eq_true_iff.mp hlower).1)

/-- What an integer is written with holds a digit. -/
theorem Number.Integer.exists_isDigit (n : Int) : ∃ c ∈ digits n, c.isDigit = true := by
  obtain ⟨c, hc⟩ := List.exists_mem_of_ne_nil _ (Nat.toDigits_ne_nil (b := 10) (n := n.natAbs))
  refine ⟨c, ?_, Text.isDigit_of_mem_toDigits hc⟩
  unfold digits
  split
  · exact List.mem_cons_of_mem _ hc
  · exact hc

theorem Number.Integer.eq_digits_of_write {n : Int} {w : String} (h : write n = .ok w) :
    w = String.ofList (digits n) := by
  unfold write at h
  split at h <;> cases h
  rfl

namespace Binary64

theorem Numeral.mem_write_of_fraction {n : Numeral} (h : n.fraction ≠ []) : '.' ∈ n.write := by
  simp [write, h]

theorem Numeral.mem_write_of_exponent {n : Numeral} {e : Int} (h : n.exponent = some e) :
    (if e < 0 then '-' else '+') ∈ n.write := by
  simp [write, h, writeExponent]

theorem exists_mem_write_layOut (negative : Bool) (d : Digits) :
    ∃ c ∈ (layOut negative d).write, c.isAlpha = false := by
  unfold layOut
  split
  · split
    · exact ⟨'0', by simp [Numeral.write], rfl⟩
    · refine ⟨'.', Numeral.mem_write_of_fraction ?_, rfl⟩
      dsimp only
      split
      · exact List.cons_ne_nil _ _
      · rename_i hne
        exact fun he => hne (List.isEmpty_iff.mpr he)
  · refine ⟨_, Numeral.mem_write_of_exponent rfl, ?_⟩
    split <;> rfl

/-- A finite double is written with a point or with a signed exponent. -/
theorem exists_mem_write_numeral (negative : Bool) (significand : Nat) (exponent : Int) :
    ∃ c ∈ (numeral negative significand exponent).write, c.isAlpha = false := by
  unfold numeral
  split
  · exact ⟨'.', Numeral.mem_write_of_fraction (List.cons_ne_nil _ _), rfl⟩
  · exact exists_mem_write_layOut ..

theorem not_isPlainWord_toString (x : Binary64) : Text.isPlainWord (toString x) = false := by
  cases x with
  | nan => decide
  | infinite negative => cases negative <;> decide
  | finite negative m e h =>
      obtain ⟨c, hc, ha⟩ := exists_mem_write_numeral negative m e
      have hmem : c ∈ (toString (finite negative m e h)).toList := by
        rw [show toString (finite negative m e h) = String.ofList (numeral negative m e).write from rfl,
          String.toList_ofList]
        exact hc
      exact Text.not_isPlainWord_of_mem hmem ha

end Binary64

namespace Value

/-- What a value is shown as that is no text. -/
theorem not_isPlainWord_of_display {v : Value} {w : String} (hv : v.text? = none) (h : v.display = .ok w) :
    Text.isPlainWord w = false := by
  cases v with
  | text s => cases hv
  | null =>
      cases h
      decide
  | bool b => cases b <;> cases h <;> decide
  | int n =>
      rw [Number.Integer.eq_digits_of_write h]
      obtain ⟨c, hc, hd⟩ := Number.Integer.exists_isDigit n
      exact Text.not_isPlainWord_of_mem (by rwa [String.toList_ofList]) (Text.isAlpha_of_isDigit hd)
  | float x =>
      cases h
      exact Binary64.not_isPlainWord_toString x
  | date d =>
      cases h
      exact Text.not_isPlainWord_of_mem (c := '-') (by simp [Calendar.Date.iso]) rfl
  | moment m =>
      cases h
      exact Text.not_isPlainWord_of_mem (c := '-') (by simp [Calendar.Moment.isoWith, Calendar.Date.iso]) rfl
  | list xs =>
      obtain ⟨ws, -, rfl⟩ := bind_pure_eq_ok_iff.mp (h : literal (.list xs) = .ok w)
      exact Text.not_isPlainWord_of_mem (c := '[') (by simp) rfl
  | tuple xs =>
      -- a tuple of one item is written with a comma behind it
      rcases xs with _ | ⟨x, _ | ⟨y, xs⟩⟩ <;>
        obtain ⟨ws, -, rfl⟩ := bind_pure_eq_ok_iff.mp h <;>
        exact Text.not_isPlainWord_of_mem (c := '(') (by simp) rfl
  | record es =>
      obtain ⟨ws, -, rfl⟩ := bind_pure_eq_ok_iff.mp (h : literal (.record es) = .ok w)
      exact Text.not_isPlainWord_of_mem (c := '\x7b') (by simp) rfl

/-- **A plain word is what only a text is shown as.** -/
theorem eq_text_of_display {v : Value} {w : String} (h : v.display = .ok w)
    (hw : Text.isPlainWord w = true) : v = .text w := by
  cases hv : v.text? with
  | none =>
      rw [not_isPlainWord_of_display hv h] at hw
      cases hw
  | some s =>
      rw [text?_eq_some_iff.mp hv] at h ⊢
      cases h
      rfl

end Value

end Intake
