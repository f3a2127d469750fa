import Intake.Proofs.Spelling
import Intake.Proofs.Writing

/-!
# Proofs — Numeral — integers written and read back

An integer is written as a sign and plain digits, with no white space around them.  So what is
written is the text of a numeral (`Number.Integer.Numeral.ofInt`), and reading it gives the integer
again as long as its digits are not too many to be read (`Number.Integer.read_digits`).
-/

namespace Intake

namespace Text

/-- Plain digits have the value in base ten that they have in every script. -/
theorem digitsValue_eq_ofDigitChars {s : List Char} (h : ∀ c ∈ s, c.isDigit = true) :
    digitsValue s = Nat.ofDigitChars 10 s 0 := by
  have hfold (n : Nat) : s.foldl (fun n c => 10 * n + (digitValue? c).getD 0) n =
      s.foldl (fun n c => 10 * n + (c.toNat - '0'.toNat)) n := by
    induction s generalizing n with
    | nil => rfl
    | cons c s ih =>
        obtain ⟨hc, hs⟩ := List.forall_mem_cons.mp h
        rw [List.foldl_cons, List.foldl_cons, digitValue?_of_isDigit hc]
        exact ih hs _
  rw [digitsValue, Nat.ofDigitChars_eq_foldl, hfold]

theorem isDigit_of_mem_toDigits {n : Nat} {c : Char} (h : c ∈ Nat.toDigits 10 n) : c.isDigit = true :=
  Nat.isDigit_of_mem_toDigits (by decide) (by decide) h

theorem digitsValue_toDigits (n : Nat) : digitsValue (Nat.toDigits 10 n) = n := by
  rw [digitsValue_eq_ofDigitChars fun _ => isDigit_of_mem_toDigits]
  exact Nat.ofDigitChars_ten_toDigits

end Text

namespace Number.Integer
open Intake.Text

namespace Numeral

/-- The numeral that an integer is written as. -/
def ofInt (n : Int) : Numeral where
  sign          := if n < 0 then .minus else .unsigned
  digits        := Nat.toDigits 10 n.natAbs
  digits_ne_nil := Nat.toDigits_ne_nil
  all_digits    := List.all_eq_true.mpr fun _ hc => isDecimalDigit_of_isDigit (isDigit_of_mem_toDigits hc)

theorem text_ofInt (n : Int) : (ofInt n).text = String.ofList (Integer.digits n) := by
  unfold text ofInt Integer.digits
  split <;> simp [Sign.chars]

theorem value_ofInt (n : Int) : (ofInt n).value = n := by
  rw [value_eq, ofInt, digitsValue_toDigits]
  split
  · show -(n.natAbs : Int) = n
    omega
  · show (n.natAbs : Int) = n
    omega

theorem isPlain_ofInt {n : Int} (h : isWritable n = true) : (ofInt n).IsPlain :=
  ⟨rfl, of_decide_eq_true h, rfl⟩

end Numeral

theorem isNumeral_digits (n : Int) : isNumeral (String.ofList (digits n)) = true :=
  isNumeral_iff.mpr ⟨.ofInt n, Numeral.text_ofInt n⟩

theorem read_digits {n : Int} (h : isWritable n = true) : read (String.ofList (digits n)) = .ok n := by
  rw [← Numeral.text_ofInt, Numeral.read_text, Numeral.fault?_eq_none_iff.mpr (Numeral.isPlain_ofInt h),
    Option.elim_none, Numeral.value_ofInt]

end Number.Integer

end Intake
