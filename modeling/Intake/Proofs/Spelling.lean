import Mathlib.Data.List.TakeWhile
import Mathlib.Data.Nat.Digits.Defs
import Intake.Test.Convert

/-!
# Proofs — Spelling — numerals in a text

A text is a numeral if it is white space, a sign, digits of any script and white space again.  Two
notions of white space decide what becomes of it: the one that recognises a numeral has four
separators more than the one that reads it.

* `Number.Integer.isNumeral_iff`: the texts that are recognised are the texts of numerals.
* `Number.Integer.Numeral.read_text`: a numeral is read as its value, unless it is too long or a
  separator stands around it.
* `Test.convert_text`: what conversion to an integer or to a number makes of every text.
-/

namespace Intake

namespace Text

theorem digitsValue_eq_ofDigits (s : List Char) :
    digitsValue s = Nat.ofDigits 10 (s.map fun c => (digitValue? c).getD 0).reverse := by
  rw [Nat.ofDigits_eq_foldr, List.foldr_reverse, List.foldl_map, digitsValue]
  simp only [Nat.cast_id, Nat.add_comm]

theorem isBlank_of_isDigit {c : Char} (h : c.isDigit = true) : isBlank c = false := by
  have hbounds : 0x30 ≤ c.toNat ∧ c.toNat ≤ 0x39 := Char.isDigit_iff_toNat.mp h
  simp only [isBlank, Bool.or_eq_false_iff, Bool.and_eq_false_iff, decide_eq_false_iff_not,
    beq_eq_false_iff_ne]
  omega

/-- Between them lie all characters of white space beyond ASCII. -/
theorem scriptZeros_apart : ∀ z ∈ scriptZeros,
    0xA0 < z ∧ z + 9 < 0x1680 ∨ 0x1680 < z ∧ z + 9 < 0x2000 ∨ 0x3000 < z := by
  decide

/-- No digit of any script is white space. -/
theorem isBlank_of_isDecimalDigit {c : Char} (h : isDecimalDigit c = true) : isBlank c = false := by
  unfold isDecimalDigit digitValue? at h
  split at h
  · rename_i hdigit
    exact isBlank_of_isDigit hdigit
  split at h
  · cases h
  rw [Option.isSome_map, List.find?_isSome] at h
  obtain ⟨z, hz, hrange⟩ := h
  rw [Bool.and_eq_true, decide_eq_true_eq, decide_eq_true_eq] at hrange
  have hapart := scriptZeros_apart z hz
  simp only [isBlank, Bool.or_eq_false_iff, Bool.and_eq_false_iff, decide_eq_false_iff_not,
    beq_eq_false_iff_ne]
  omega

/-- A text is what it is stripped of, around what is left. -/
theorem exists_eq_append_stripped (p : Char → Bool) (s : List Char) :
    ∃ a b, s = a ++ stripped p s ++ b ∧ (∀ c ∈ a, p c = true) ∧ ∀ c ∈ b, p c = true := by
  have hfront := List.takeWhile_append_dropWhile (p := p) (l := s)
  have hback := List.takeWhile_append_dropWhile (p := p) (l := (s.dropWhile p).reverse)
  refine ⟨s.takeWhile p, ((s.dropWhile p).reverse.takeWhile p).reverse, ?_,
    fun c hc => List.mem_takeWhile_imp hc, fun c hc => List.mem_takeWhile_imp (List.mem_reverse.mp hc)⟩
  rw [stripped, List.append_assoc, ← List.reverse_append, hback, List.reverse_reverse, hfront]

theorem dropWhile_eq_self {p : Char → Bool} {s : List Char} (h : ∀ c ∈ s, p c = false) :
    s.dropWhile p = s := by
  cases s with
  | nil => rfl
  | cons c s =>
      rw [List.dropWhile_cons, h c (List.mem_cons_self ..)]
      rfl

/-- A class is taken off the front of a text up to the first characters outside it. -/
theorem dropWhile_append_append {p : Char → Bool} {a s : List Char} (ha : ∀ c ∈ a, p c = true)
    (hs : ∀ c ∈ s, p c = false) (hne : s ≠ []) (b : List Char) : (a ++ (s ++ b)).dropWhile p = s ++ b := by
  obtain ⟨c, s, rfl⟩ := List.exists_cons_of_ne_nil hne
  rw [List.dropWhile_append_of_pos ha, List.cons_append, List.dropWhile_cons, hs c (List.mem_cons_self ..)]
  rfl

/-- What begins and ends with characters outside a class is all that is left when the class is
stripped. -/
theorem stripped_append {p : Char → Bool} {a s b : List Char} (ha : ∀ c ∈ a, p c = true)
    (hb : ∀ c ∈ b, p c = true) (hs : ∀ c ∈ s, p c = false) (hne : s ≠ []) : stripped p (a ++ s ++ b) = s := by
  have hback : (s ++ b).reverse.dropWhile p = s.reverse := by
    have hreverse := dropWhile_append_append (fun c hc => hb c (List.mem_reverse.mp hc))
      (fun c hc => hs c (List.mem_reverse.mp hc)) (List.reverse_ne_nil_iff.mpr hne) []
    rwa [List.append_nil, ← List.reverse_append] at hreverse
  rw [stripped, List.append_assoc, dropWhile_append_append ha hs hne, hback, List.reverse_reverse]

end Text

namespace Number.Integer
open Intake.Text

inductive Sign where
  | unsigned
  | plus
  | minus
deriving DecidableEq, Repr

namespace Sign

def chars : Sign → List Char
  | unsigned => []
  | plus     => ['+']
  | minus    => ['-']

/-- The integer of a sign and an absolute value. -/
def apply : Sign → Nat → Int
  | minus, n => -n
  | _,     n => n

theorem isBlank_of_mem_chars {sign : Sign} {c : Char} (h : c ∈ sign.chars) : isBlank c = false := by
  cases sign with
  | unsigned => cases h
  | plus | minus =>
      rw [List.mem_singleton.mp h]
      decide

end Sign

/-- A numeral as it stands in a text: white space, a sign, digits of any script, and white space. -/
structure Numeral where
  before : List Char := []
  sign   : Sign := .unsigned
  digits : List Char
  after  : List Char := []
  all_before    : before.all isBlank = true := by decide
  digits_ne_nil : digits ≠ [] := by decide
  all_digits    : digits.all isDecimalDigit = true := by decide
  all_after     : after.all isBlank = true := by decide

namespace Numeral

theorem isBlank_before (n : Numeral) : ∀ c ∈ n.before, isBlank c = true := List.all_eq_true.mp n.all_before

theorem isDecimalDigit_digits (n : Numeral) : ∀ c ∈ n.digits, isDecimalDigit c = true :=
  List.all_eq_true.mp n.all_digits

theorem isBlank_after (n : Numeral) : ∀ c ∈ n.after, isBlank c = true := List.all_eq_true.mp n.all_after

def text (n : Numeral) : String := String.ofList (n.before ++ (n.sign.chars ++ n.digits) ++ n.after)

/-- The integer that a numeral denotes in base ten. -/
def value (n : Numeral) : Int :=
  n.sign.apply (Nat.ofDigits 10 (n.digits.map fun c => (digitValue? c).getD 0).reverse)

theorem value_eq (n : Numeral) : n.value = n.sign.apply (digitsValue n.digits) := by
  rw [value, digitsValue_eq_ofDigits]

/-- Nothing but the white space of Unicode stands around the digits, and they are not too many. -/
structure IsPlain (n : Numeral) : Prop where
  before : n.before.all isNumeralBlank = true
  length : n.digits.length ≤ maxNumeralDigits
  after  : n.after.all isNumeralBlank = true

/-- Why a numeral is not read.  The length of its digits is judged before what follows them. -/
def fault? (n : Numeral) : Option Fault :=
  if ¬ n.before.all isNumeralBlank then some (.malformedNumeral n.text)
  else if maxNumeralDigits < n.digits.length then some (.numeralTooLong n.digits.length)
  else if ¬ n.after.all isNumeralBlank then some (.malformedNumeral n.text)
  else none

theorem fault?_eq_none_iff {n : Numeral} : n.fault? = none ↔ n.IsPlain := by
  unfold fault?
  constructor
  · intro h
    split at h
    · cases h
    split at h
    · cases h
    split at h
    · cases h
    rename_i hbefore hlength hafter
    exact ⟨Decidable.not_not.mp hbefore, Nat.not_lt.mp hlength, Decidable.not_not.mp hafter⟩
  · rintro ⟨hbefore, hlength, hafter⟩
    rw [if_neg (not_not_intro hbefore), if_neg (Nat.not_lt.mpr hlength), if_neg (not_not_intro hafter)]

end Numeral

/-- A sign is taken off, and nothing else is. -/
theorem exists_sign (s : List Char) : ∃ sign : Sign, s = sign.chars ++ (signOf s).2 := by
  unfold signOf
  split
  · exact ⟨.minus, rfl⟩
  · exact ⟨.plus, rfl⟩
  · exact ⟨.unsigned, rfl⟩

/-- No sign is taken off a character of a class to which the signs do not belong. -/
theorem signOf_cons {g : Char → Bool} (hg : g '-' = false ∧ g '+' = false) {c : Char} (hc : g c = true)
    (s : List Char) : signOf (c :: s) = (false, c :: s) := by
  unfold signOf
  split
  · rename_i heq
    cases heq
    exact absurd hc (Bool.eq_false_iff.mp hg.1)
  · rename_i heq
    cases heq
    exact absurd hc (Bool.eq_false_iff.mp hg.2)
  · rfl

theorem signOf_chars_append {s : List Char} (hne : s ≠ []) (hs : ∀ c ∈ s, isDecimalDigit c = true)
    (sign : Sign) (rest : List Char) :
    signOf (sign.chars ++ (s ++ rest)) = (decide (sign = .minus), s ++ rest) := by
  cases sign with
  | unsigned =>
      obtain ⟨c, s, rfl⟩ := List.exists_cons_of_ne_nil hne
      exact signOf_cons (g := isDecimalDigit) (by decide) (hs c (List.mem_cons_self ..)) _
  | plus | minus => rfl

namespace Numeral

variable (n : Numeral)

/-- The sign and the digits of a numeral, in front of some text. -/
def body : List Char := n.sign.chars ++ n.digits

theorem body_ne_nil : n.body ≠ [] := List.append_ne_nil_of_right_ne_nil _ n.digits_ne_nil

theorem isBlank_body : ∀ c ∈ n.body, isBlank c = false := by
  intro c hc
  rcases List.mem_append.mp hc with hc | hc
  · exact Sign.isBlank_of_mem_chars hc
  · exact isBlank_of_isDecimalDigit (n.isDecimalDigit_digits c hc)

theorem strip_text : strip n.text.toList = n.body := by
  rw [text, String.toList_ofList]
  exact stripped_append n.isBlank_before n.isBlank_after n.isBlank_body n.body_ne_nil

end Numeral

theorem isDigitRun_iff {s : List Char} : isDigitRun s = true ↔ s ≠ [] ∧ ∀ c ∈ s, isDecimalDigit c = true := by
  simp [isDigitRun]

/-- What is recognised as a numeral is the text of one. -/
theorem isNumeral_iff {s : String} : isNumeral s = true ↔ ∃ n : Numeral, n.text = s := by
  rw [isNumeral, isDigitRun_iff]
  constructor
  · rintro ⟨hne, hdigits⟩
    obtain ⟨before, after, hs, hbefore, hafter⟩ := exists_eq_append_stripped isBlank s.toList
    change s.toList = before ++ strip s.toList ++ after at hs
    obtain ⟨sign, hsign⟩ := exists_sign (strip s.toList)
    refine ⟨⟨before, sign, _, after, List.all_eq_true.mpr hbefore, hne, List.all_eq_true.mpr hdigits,
      List.all_eq_true.mpr hafter⟩, ?_⟩
    rw [Numeral.text, ← hsign, ← hs, String.ofList_toList]
  · rintro ⟨n, rfl⟩
    have hsign := signOf_chars_append n.digits_ne_nil n.isDecimalDigit_digits n.sign []
    rw [List.append_nil] at hsign
    rw [n.strip_text, Numeral.body, hsign]
    exact ⟨n.digits_ne_nil, n.isDecimalDigit_digits⟩

namespace Numeral

variable (n : Numeral)

/-- White space that is not passed over hides the sign and the digits behind it. -/
theorem read_text_of_hidden (h : ¬ n.before.all isNumeralBlank) :
    read n.text = .error (.malformedNumeral n.text) := by
  obtain ⟨c, rest, hrest⟩ : ∃ c rest, n.before.dropWhile isNumeralBlank = c :: rest :=
    List.exists_cons_of_ne_nil fun hnil => h (List.all_eq_true.mpr (List.dropWhile_eq_nil_iff.mp hnil))
  have hblank : isBlank c = true := n.isBlank_before c
    ((List.dropWhile_sublist isNumeralBlank).subset (hrest ▸ List.mem_cons_self ..))
  have hdigit : isDecimalDigit c = false := Bool.eq_false_iff.mpr fun hc =>
    absurd hblank (Bool.eq_false_iff.mp (isBlank_of_isDecimalDigit hc))
  have hfront : n.text.toList.dropWhile isNumeralBlank = c :: (rest ++ (n.body ++ n.after)) := by
    rw [text, String.toList_ofList, List.append_assoc, List.dropWhile_append, hrest]
    rfl
  have hsign := signOf_cons (g := isBlank) (by decide) hblank (rest ++ (n.body ++ n.after))
  simp [read, hfront, hsign, hdigit]

/-- Where the white space in front is passed over, the digits are read whole. -/
theorem read_text_of_plain_before (h : ∀ c ∈ n.before, isNumeralBlank c = true) :
    read n.text =
      if maxNumeralDigits < n.digits.length then .error (.numeralTooLong n.digits.length)
      else if ¬ n.after.all isNumeralBlank then .error (.malformedNumeral n.text)
      else .ok n.value := by
  have hbody : ∀ c ∈ n.body, isNumeralBlank c = false := fun c hc => by
    simp [isNumeralBlank, n.isBlank_body c hc]
  have hafter : ∀ c ∈ n.after, isDecimalDigit c = false := fun c hc => Bool.eq_false_iff.mpr fun hdigit =>
    absurd (n.isBlank_after c hc) (Bool.eq_false_iff.mp (isBlank_of_isDecimalDigit hdigit))
  have hfront : n.text.toList.dropWhile isNumeralBlank = n.sign.chars ++ (n.digits ++ n.after) := by
    rw [text, String.toList_ofList, List.append_assoc, ← body, dropWhile_append_append h hbody n.body_ne_nil,
      body, List.append_assoc]
  have hsign := signOf_chars_append n.digits_ne_nil n.isDecimalDigit_digits n.sign n.after
  have hrun : (n.digits ++ n.after).takeWhile isDecimalDigit = n.digits := by
    have hnil : n.after.takeWhile isDecimalDigit = [] := List.takeWhile_eq_nil_iff.mpr fun _ =>
      Bool.eq_false_iff.mp (hafter _ (List.get_mem ..))
    rw [List.takeWhile_append_of_pos n.isDecimalDigit_digits, hnil, List.append_nil]
  have hrest : (n.digits ++ n.after).dropWhile isDecimalDigit = n.after := by
    rw [List.dropWhile_append_of_pos n.isDecimalDigit_digits, dropWhile_eq_self hafter]
  have hvalue : (if decide (n.sign = .minus) then -(digitsValue n.digits : Int) else digitsValue n.digits) =
      n.value := by
    rw [value_eq]
    cases n.sign <;> rfl
  simp only [read, hfront, hsign, hrun, hrest, hvalue, List.isEmpty_eq_false_iff.mpr n.digits_ne_nil,
    Bool.false_or, Bool.not_eq_true', Bool.not_eq_true]

/-- A numeral is read as its value, unless it has a fault. -/
theorem read_text : read n.text = n.fault?.elim (.ok n.value) .error := by
  unfold fault?
  by_cases hbefore : n.before.all isNumeralBlank = true
  · rw [n.read_text_of_plain_before (List.all_eq_true.mp hbefore), if_neg (not_not_intro hbefore)]
    split <;> [rfl; split <;> rfl]
  · rw [n.read_text_of_hidden hbefore, if_pos hbefore]
    rfl

end Numeral

end Number.Integer

open Number.Integer

namespace Test

variable (least most : Option Number) (places : Option Int)

theorem convert_numeral (n : Numeral) :
    (integer least most).convert (.text n.text) = n.fault?.elim (.ok (.int n.value)) .error ∧
      (number least most places).convert (.text n.text) = n.fault?.elim (.ok (.int n.value)) .error := by
  have hread : (do return Value.int (← read n.text)) = n.fault?.elim (.ok (.int n.value)) Except.error := by
    rw [n.read_text]
    cases n.fault? <;> rfl
  simp only [convert, isNumeral_iff.mpr ⟨n, rfl⟩, if_true, hread, and_self]

theorem convert_of_no_numeral {s : String} (h : ∀ n : Numeral, n.text ≠ s) :
    (integer least most).convert (.text s) = .ok (.text s) ∧
      ((number least most places).convert (.text s) = .ok (.text s) ∨
        ∃ x, (number least most places).convert (.text s) = .ok (.float x)) := by
  have hs : isNumeral s = false := Bool.eq_false_iff.mpr fun hs =>
    have ⟨n, hn⟩ := isNumeral_iff.mp hs
    h n hn
  simp only [convert, hs, Bool.false_eq_true, if_false, true_and]
  cases Binary64.read? s with
  | some x => exact .inr ⟨x, rfl⟩
  | none => exact .inl rfl

/-- **Texts of numbers.**  The text of a numeral becomes the integer that it denotes if nothing but
the white space of Unicode stands around its digits and they are not too many, and has no answer
otherwise.  Every other text is left as it is, or becomes a double where a number is wanted. -/
theorem convert_text (s : String) :
    (∀ n : Numeral, n.text = s → n.IsPlain →
      (integer least most).convert (.text s) = .ok (.int n.value) ∧
        (number least most places).convert (.text s) = .ok (.int n.value)) ∧
    (∀ n : Numeral, n.text = s → ¬ n.IsPlain → ∃ f, n.fault? = some f ∧
      (integer least most).convert (.text s) = .error f ∧
        (number least most places).convert (.text s) = .error f) ∧
    ((∀ n : Numeral, n.text ≠ s) →
      (integer least most).convert (.text s) = .ok (.text s) ∧
        ((number least most places).convert (.text s) = .ok (.text s) ∨
          ∃ x, (number least most places).convert (.text s) = .ok (.float x))) := by
  refine ⟨?_, ?_, convert_of_no_numeral least most places⟩
  · rintro n rfl hn
    have hconvert := convert_numeral least most places n
    rwa [Numeral.fault?_eq_none_iff.mpr hn] at hconvert
  · rintro n rfl hn
    obtain ⟨f, hf⟩ := Option.ne_none_iff_exists'.mp (mt Numeral.fault?_eq_none_iff.mp hn)
    have hconvert := convert_numeral least most places n
    rw [hf] at hconvert
    exact ⟨f, hf, hconvert⟩

/-- Digits of two scripts are read together, a separator behind them is a fault, and a fraction is
no numeral. -/
theorem convert_text_mixed :
    (integer none none).convert (.text " -٣4\t") = .ok (.int (-34)) ∧
      (number none none none).convert (.text "٣4\x1f") = .error (.malformedNumeral "٣4\x1f") ∧
      (integer none none).convert (.text "3.4") = .ok (.text "3.4") := by
  have hplain := (convert_text none none none " -٣4\t").1
    { before := [' '], sign := .minus, digits := ['٣', '4'], after := ['\t'] } rfl
    ⟨by decide, by decide, by decide⟩
  obtain ⟨f, hf, -, hfault⟩ := (convert_text none none none "٣4\x1f").2.1
    { digits := ['٣', '4'], after := ['\x1f'] } rfl fun h => absurd h.after (by decide)
  cases hf
  have hother := (convert_text none none none "3.4").2.2 fun n hn =>
    absurd (isNumeral_iff.mpr ⟨n, hn⟩) (by decide)
  exact ⟨hplain.1, hfault, hother.1⟩

/-- A separator in front of a five is white space to what recognises the numeral, not to what reads
it. -/
theorem separatedFive_not_converted :
    ∃ n : Numeral, n.text = "\x1c5" ∧ n.value = 5 ∧
      (integer none none).convert (.text "\x1c5") = .error (.malformedNumeral "\x1c5") ∧
      (number none none none).convert (.text "\x1c5") = .error (.malformedNumeral "\x1c5") :=
  ⟨{ before := ['\x1c'], digits := ['5'] }, by decide, by decide, rfl, rfl⟩

end Test

end Intake
