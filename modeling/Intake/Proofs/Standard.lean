import Intake.Pattern.Standard
import Intake.Proofs.Format
import Mathlib.Algebra.BigOperators.Group.List.Basic
import Mathlib.Computability.Language

/-!
# Proofs — Standard — e-mail addresses and UUIDs

A node that asks for nothing but the characters it leads over has a language, which is put together
from the languages of its parts as the node is from them: a sequence has the product, a choice the
sum, a repetition the powers.  Such a node leads over the texts of its language wherever it stands
(`Node.leads_over`), and so it matches a text exactly if the text is in its language
(`Node.isMatch_iff_mem_language`).

The two standard formats are nodes of this kind.  Their languages are said here without a pattern:

* `Test.email_examined_iff`: an address has one at sign, and a point within what is behind it;
* `Test.uuid_examined_iff`: a UUID has hyphens in four of its thirty-six places, and hexadecimal
  digits in the others.
-/

namespace Intake

namespace Pattern

/-! ### The language of a node -/

/-- The texts of one character of a class. -/
def single (f : Char → Bool) : Language Char := {w | ∃ c, f c = true ∧ w = [c]}

/-- The texts that a node leads over. -/
def Node.language : Node → Language Char
  | .empty              => 1
  | .char c             => single (· == c)
  | .any                => single (· != '\n')
  | .set negated items  => single fun c => items.any (·.holds c) != negated
  | .seq a b            => a.language * b.language
  | .alt a b            => a.language + b.language
  | .repeated lo hi _ a => {w | ∃ n, lo ≤ n ∧ (∀ m ∈ hi, n ≤ m) ∧ w ∈ a.language ^ n}
  | .group _ a          => a.language
  | .anchor _ | .look _ _ | .reference _ => 0

/-- Whether a node asks for nothing but the characters that it leads over. -/
def Node.isFree : Node → Bool
  | .empty | .char _ | .any | .set _ _ | .reference _ => true
  | .seq a b | .alt a b => a.isFree && b.isFree
  | .repeated _ _ _ a | .group _ a => a.isFree
  | .anchor _ | .look _ _ => false

/-- Wherever it is followed, a relation leads over the texts of a language and over no others. -/
def Over (R : Place → Place → Prop) (L : Language Char) : Prop :=
  ∀ p q, R p q ↔ ∃ run ∈ L, p.Passes run q

theorem over_stay : Over (fun p q => q = p) 1 := by
  intro p q
  simp only [Language.mem_one, exists_eq_left, Place.passes_nil_iff]

theorem over_steps (f : Char → Bool) : Over (Place.Steps f) (single f) := by
  intro p q
  constructor
  · rintro ⟨c, hc, hq⟩
    exact ⟨[c], ⟨c, hc, rfl⟩, hq⟩
  · rintro ⟨_, ⟨c, hc, rfl⟩, hq⟩
    exact ⟨c, hc, hq⟩

theorem Over.comp {R T : Place → Place → Prop} {L M : Language Char} (hR : Over R L) (hT : Over T M) :
    Over (fun p q => ∃ u, R p u ∧ T u q) (L * M) := by
  intro p q
  simp only [hR _ _, hT _ _]
  constructor
  · rintro ⟨u, ⟨run, hrun, hu⟩, more, hmore, hq⟩
    exact ⟨run ++ more, Language.append_mem_mul hrun hmore, hu.trans hq⟩
  · rintro ⟨_, ⟨run, hrun, more, hmore, rfl⟩, hq⟩
    obtain ⟨u, hu, hq⟩ := Place.passes_append_iff.mp hq
    exact ⟨u, ⟨run, hrun, hu⟩, more, hmore, hq⟩

theorem Over.rounds {R : Place → Place → Prop} {L : Language Char} (h : Over R L) (n : Nat) :
    Over (Rounds R n) (L ^ n) := by
  induction n with
  | zero => exact over_stay
  | succ n ih =>
      rw [pow_succ']
      exact h.comp ih

/-- **Languages.**  A free node leads over the texts of its language. -/
theorem Node.leads_over {a : Node} (h : a.isFree = true) : Over a.Leads a.language := by
  induction a with
  | empty => exact over_stay
  | char | any | set => exact over_steps _
  | seq a b iha ihb =>
      rw [isFree, Bool.and_eq_true] at h
      exact (iha h.1).comp (ihb h.2)
  | alt a b iha ihb =>
      rw [isFree, Bool.and_eq_true] at h
      intro p q
      simp only [Leads, language, iha h.1 p q, ihb h.2 p q, Language.mem_add, or_and_right, exists_or]
  | repeated lo hi app a ih =>
      intro p q
      have hrounds := fun n => (ih h).rounds n p q
      simp only [Leads, language, hrounds]
      constructor
      · rintro ⟨n, hlo, hhi, run, hrun, hq⟩
        exact ⟨run, ⟨n, hlo, hhi, hrun⟩, hq⟩
      · rintro ⟨run, ⟨n, hlo, hhi, hrun⟩, hq⟩
        exact ⟨n, hlo, hhi, run, hrun, hq⟩
  | group i a ih => exact ih h
  | reference =>
      intro p q
      refine iff_of_false id ?_
      rintro ⟨run, hrun, -⟩
      exact Language.notMem_zero run hrun
  | anchor | look => cases h

theorem Node.isMatch_iff_mem_language {a : Node} (hr : a.isRegular = true) (hf : a.isFree = true)
    {s : List Char} : a.isMatch s = true ↔ s ∈ a.language := by
  rw [isMatch_iff hr]
  simp only [leads_over hf _ _]
  constructor
  · rintro ⟨q, ⟨run, hrun, hq⟩, hend⟩
    obtain rfl : s = run := by simpa [hend, Place.start] using hq.1
    exact hrun
  · intro hs
    obtain ⟨q, hq, hend⟩ := Place.exists_passes_iff.mpr (show (Place.start s).rest = s ++ [] by simp [Place.start])
    exact ⟨q, ⟨s, hs, hq⟩, hend⟩

/-! ### Texts place by place -/

/-- The texts that have in each place a character of the class that is meant for the place. -/
def inPlaces (classes : List (Char → Bool)) : Language Char := (classes.map single).prod

theorem mem_inPlaces_iff {classes : List (Char → Bool)} {s : List Char} :
    s ∈ inPlaces classes ↔ List.Forall₂ (fun f c => f c = true) classes s := by
  induction classes generalizing s with
  | nil =>
      rw [List.forall₂_nil_left_iff]
      exact Language.mem_one s
  | cons f classes ih =>
      rw [List.forall₂_cons_left_iff, inPlaces, List.map_cons, List.prod_cons, Language.mem_mul]
      constructor
      · rintro ⟨_, ⟨c, hc, rfl⟩, t, ht, rfl⟩
        exact ⟨c, t, hc, ih.mp ht, rfl⟩
      · rintro ⟨c, t, hc, ht, rfl⟩
        exact ⟨[c], ⟨c, hc, rfl⟩, t, ih.mpr ht, rfl⟩

theorem mem_single_pow_iff {f : Char → Bool} {n : Nat} {s : List Char} :
    s ∈ single f ^ n ↔ s.length = n ∧ ∀ c ∈ s, f c = true := by
  induction n generalizing s with
  | zero =>
      rw [pow_zero, Language.mem_one, List.length_eq_zero_iff]
      refine (and_iff_left_of_imp ?_).symm
      rintro rfl
      exact nofun
  | succ n ih =>
      rw [pow_succ', Language.mem_mul]
      constructor
      · rintro ⟨_, ⟨c, hc, rfl⟩, t, ht, rfl⟩
        obtain ⟨hlength, hall⟩ := ih.mp ht
        exact ⟨congrArg (· + 1) hlength, List.forall_mem_cons.mpr ⟨hc, hall⟩⟩
      · rintro ⟨hlength, hall⟩
        obtain ⟨c, t, rfl⟩ := List.exists_cons_of_length_eq_add_one hlength
        obtain ⟨hc, hall⟩ := List.forall_mem_cons.mp hall
        exact ⟨[c], ⟨c, hc, rfl⟩, t, ih.mpr ⟨Nat.succ.inj hlength, hall⟩, rfl⟩

theorem mem_char_mul_iff {d : Char} {L : Language Char} {s : List Char} :
    s ∈ (Node.char d).language * L ↔ ∃ t ∈ L, s = d :: t := by
  rw [Language.mem_mul]
  constructor
  · rintro ⟨_, ⟨c, hc, rfl⟩, t, ht, rfl⟩
    exact ⟨t, ht, by rw [beq_iff_eq.mp hc]; rfl⟩
  · rintro ⟨t, ht, rfl⟩
    exact ⟨[d], ⟨d, beq_self_eq_true d, rfl⟩, t, ht, rfl⟩

theorem mem_language_oneOrMore_iff {a : Node} {f : Char → Bool} (ha : a.language = single f) {s : List Char} :
    s ∈ (Node.oneOrMore a).language ↔ s ≠ [] ∧ ∀ c ∈ s, f c = true := by
  change (∃ n, 1 ≤ n ∧ (∀ m ∈ none, n ≤ m) ∧ s ∈ a.language ^ n) ↔ _
  simp only [ha, mem_single_pow_iff, Option.mem_def, reduceCtorEq, false_imp_iff, implies_true, true_and]
  constructor
  · rintro ⟨n, hn, rfl, hs⟩
    exact ⟨List.ne_nil_of_length_pos hn, hs⟩
  · rintro ⟨hne, hs⟩
    exact ⟨_, List.length_pos_of_ne_nil hne, rfl, hs⟩

theorem language_exactly (n : Nat) (a : Node) : (Node.exactly n a).language = a.language ^ n := by
  ext s
  change (∃ m, n ≤ m ∧ (∀ k ∈ some n, m ≤ k) ∧ s ∈ a.language ^ m) ↔ _
  constructor
  · rintro ⟨m, hn, hm, hs⟩
    rwa [Nat.le_antisymm hn (hm n rfl)]
  · intro hs
    exact ⟨n, Nat.le_refl n, by simp, hs⟩

/-! ### E-mail addresses -/

/-- What stands in front of the first at sign. -/
def user (s : List Char) : List Char := s.takeWhile (· != '@')

/-- What stands behind the first at sign. -/
def host (s : List Char) : List Char := (s.dropWhile (· != '@')).tail

/-- No white space, one at sign with something in front of it, and behind it a point that is neither
the first character there nor the last. -/
structure IsAddress (s : List Char) : Prop where
  unbroken : ∀ c ∈ s, Text.isBlank c = false
  oneSign  : s.count '@' = 1
  user     : user s ≠ []
  point    : '.' ∈ (host s).tail.dropLast

instance (s : List Char) : Decidable (IsAddress s) :=
  decidable_of_iff
    ((s.all fun c => !Text.isBlank c) = true ∧ s.count '@' = 1 ∧ user s ≠ [] ∧ '.' ∈ (host s).tail.dropLast) <| by
    simp only [List.all_eq_true, Bool.not_eq_true']
    exact ⟨fun ⟨h₁, h₂, h₃, h₄⟩ => ⟨h₁, h₂, h₃, h₄⟩, fun ⟨h₁, h₂, h₃, h₄⟩ => ⟨h₁, h₂, h₃, h₄⟩⟩

theorem bne_of_not_mem {d : Char} {u : List Char} (hu : d ∉ u) : ∀ c ∈ u, (c != d) = true := by
  intro c hc
  rw [bne_iff_ne]
  rintro rfl
  exact hu hc

theorem user_append {u : List Char} (hu : '@' ∉ u) (h : List Char) : user (u ++ '@' :: h) = u := by
  rw [user, List.takeWhile_append_of_pos (bne_of_not_mem hu), List.takeWhile_cons_of_neg (by simp),
    List.append_nil]

theorem host_append {u : List Char} (hu : '@' ∉ u) (h : List Char) : host (u ++ '@' :: h) = h := by
  rw [host, List.dropWhile_append_of_pos (bne_of_not_mem hu), List.dropWhile_cons_of_neg (by simp),
    List.tail_cons]

/-- What is neither the first item nor the last has something on both sides. -/
theorem mem_tail_dropLast_iff {α : Type} {a : α} {s : List α} :
    a ∈ s.tail.dropLast ↔ ∃ x y, x ≠ [] ∧ y ≠ [] ∧ s = x ++ a :: y := by
  constructor
  · intro h
    cases s with
    | nil => cases h
    | cons b t =>
        obtain ⟨x, y, hsplit⟩ := List.append_of_mem h
        have hne : t ≠ [] := by
          rintro rfl
          cases h
        have ht : t = x ++ a :: (y ++ [t.getLast hne]) := by
          rw [← List.cons_append, ← List.append_assoc, ← hsplit]
          exact (List.dropLast_append_getLast hne).symm
        refine ⟨b :: x, y ++ [t.getLast hne], List.cons_ne_nil _ _, by simp, ?_⟩
        rw [List.cons_append, ← ht]
  · rintro ⟨x, y, hx, hy, rfl⟩
    obtain ⟨b, x, rfl⟩ := List.exists_cons_of_ne_nil hx
    rw [List.cons_append, List.tail_cons, List.dropLast_append_of_ne_nil (List.cons_ne_nil _ _),
      List.dropLast_cons_of_ne_nil hy]
    simp

def isAddressCharacter (c : Char) : Bool := c != '@' && !Text.isBlank c

theorem isAddressCharacter_iff {c : Char} :
    isAddressCharacter c = true ↔ c ≠ '@' ∧ Text.isBlank c = false := by
  simp [isAddressCharacter]

theorem language_addressCharacter : Node.addressCharacter.language = single isAddressCharacter := by
  refine congrArg single (funext fun c => ?_)
  have hsign : (SetItem.range 0x40 0x40).holds c = (c == '@') := by
    rw [Bool.eq_iff_iff, beq_iff_eq]
    exact Catalogue.holds_range_self (d := '@')
  have hblank : (SetItem.category .blank false).holds c = Text.isBlank c := by simp [SetItem.holds, Category.holds]
  simp [isAddressCharacter, bne, hsign, hblank]

/-- What stands between the marks of an address. -/
structure IsRun (s : List Char) : Prop where
  ne_nil : s ≠ []
  all    : ∀ c ∈ s, isAddressCharacter c = true

theorem IsRun.not_mem {s : List Char} (h : IsRun s) : '@' ∉ s := fun hm =>
  (isAddressCharacter_iff.mp (h.all _ hm)).1 rfl

theorem IsRun.not_isBlank {s : List Char} (h : IsRun s) : ∀ c ∈ s, Text.isBlank c = false := fun c hc =>
  (isAddressCharacter_iff.mp (h.all c hc)).2

theorem mem_language_email_iff {s : List Char} : s ∈ Node.email.language ↔
    ∃ u x y, IsRun u ∧ IsRun x ∧ IsRun y ∧ s = u ++ '@' :: (x ++ '.' :: y) := by
  have hrun : ∀ t, t ∈ (Node.oneOrMore Node.addressCharacter).language ↔ IsRun t := fun t =>
    (mem_language_oneOrMore_iff language_addressCharacter).trans ⟨fun ⟨h₁, h₂⟩ => ⟨h₁, h₂⟩, fun ⟨h₁, h₂⟩ => ⟨h₁, h₂⟩⟩
  change s ∈ (Node.oneOrMore Node.addressCharacter).language * ((Node.char '@').language *
    ((Node.oneOrMore Node.addressCharacter).language * ((Node.char '.').language *
      (Node.oneOrMore Node.addressCharacter).language))) ↔ _
  constructor
  · rintro ⟨u, hu, _, hsign, rfl⟩
    obtain ⟨_, ⟨x, hx, _, hpoint, rfl⟩, rfl⟩ := mem_char_mul_iff.mp hsign
    obtain ⟨y, hy, rfl⟩ := mem_char_mul_iff.mp hpoint
    exact ⟨u, x, y, (hrun u).mp hu, (hrun x).mp hx, (hrun y).mp hy, rfl⟩
  · rintro ⟨u, x, y, hu, hx, hy, rfl⟩
    have hpoint := (mem_char_mul_iff (d := '.')).mpr ⟨y, (hrun y).mpr hy, rfl⟩
    have hsign := (mem_char_mul_iff (d := '@')).mpr ⟨_, Language.append_mem_mul ((hrun x).mpr hx) hpoint, rfl⟩
    exact Language.append_mem_mul ((hrun u).mpr hu) hsign

/-- An address is three runs with an at sign and a point between them; where there are several
points, each that is neither the first nor the last character may be the one. -/
theorem isAddress_iff {s : List Char} : IsAddress s ↔
    ∃ u x y, IsRun u ∧ IsRun x ∧ IsRun y ∧ s = u ++ '@' :: (x ++ '.' :: y) := by
  constructor
  · intro h
    have hm : '@' ∈ s := List.count_pos_iff.mp (by rw [h.oneSign]; exact Nat.one_pos)
    obtain ⟨u, t, rfl, hu⟩ := List.eq_append_cons_of_mem hm
    have huser := h.user
    rw [user_append hu] at huser
    have hpoint := h.point
    rw [host_append hu] at hpoint
    obtain ⟨x, y, hx, hy, rfl⟩ := mem_tail_dropLast_iff.mp hpoint
    have hcount := h.oneSign
    simp only [List.count_append, List.count_cons, beq_self_eq_true, if_true] at hcount
    have hxy : '@' ∉ x ∧ '@' ∉ y := ⟨List.count_eq_zero.mp (by omega), List.count_eq_zero.mp (by omega)⟩
    have hblank := h.unbroken
    simp only [List.forall_mem_append, List.forall_mem_cons] at hblank
    obtain ⟨hub, -, hxb, -, hyb⟩ := hblank
    have hrun : ∀ t : List Char, '@' ∉ t → (∀ c ∈ t, Text.isBlank c = false) →
        ∀ c ∈ t, isAddressCharacter c = true := fun t ht hb c hc =>
      isAddressCharacter_iff.mpr ⟨fun he => ht (he ▸ hc), hb c hc⟩
    exact ⟨u, x, y, ⟨huser, hrun u hu hub⟩, ⟨hx, hrun x hxy.1 hxb⟩, ⟨hy, hrun y hxy.2 hyb⟩, rfl⟩
  · rintro ⟨u, x, y, hu, hx, hy, rfl⟩
    refine ⟨?_, ?_, ?_, ?_⟩
    · simp only [List.forall_mem_append, List.forall_mem_cons]
      exact ⟨hu.not_isBlank, rfl, hx.not_isBlank, rfl, hy.not_isBlank⟩
    · simp [List.count_append, List.count_eq_zero.mpr hu.not_mem, List.count_eq_zero.mpr hx.not_mem,
        List.count_eq_zero.mpr hy.not_mem]
    · rw [user_append hu.not_mem]
      exact hu.ne_nil
    · rw [host_append hu.not_mem]
      exact mem_tail_dropLast_iff.mpr ⟨x, y, hx.ne_nil, hy.ne_nil, rfl⟩

theorem isMatch_email_iff {s : List Char} : Node.email.isMatch s = true ↔ IsAddress s := by
  rw [Node.isMatch_iff_mem_language rfl rfl, mem_language_email_iff, isAddress_iff]

-- The point that counts need not be the first one nor stand alone, but a line end is white space.
example : IsAddress "a@.b.c".toList ∧ IsAddress "a@b..".toList ∧ ¬ IsAddress "a@b.c\n".toList := by decide

/-! ### UUIDs -/

/-- The places of the hyphens in a UUID. -/
def hyphens : List Nat := [8, 13, 18, 23]

/-- Thirty-six characters: hyphens in their places, and hexadecimal digits of ASCII in all
others. -/
structure IsUuid (s : List Char) : Prop where
  length : s.length = 36
  hyphen : ∀ (i : Nat) (h : i < s.length), i ∈ hyphens → s[i] = '-'
  digit  : ∀ (i : Nat) (h : i < s.length), i ∉ hyphens → isHexDigit s[i] = true

instance (s : List Char) : Decidable (IsUuid s) :=
  decidable_of_iff
    (s.length = 36 ∧ (∀ (i : Nat) (h : i < s.length), i ∈ hyphens → s[i] = '-') ∧
      ∀ (i : Nat) (h : i < s.length), i ∉ hyphens → isHexDigit s[i] = true)
    ⟨fun ⟨h₁, h₂, h₃⟩ => ⟨h₁, h₂, h₃⟩, fun ⟨h₁, h₂, h₃⟩ => ⟨h₁, h₂, h₃⟩⟩

theorem isHexDigit_iff_toNat {c : Char} : isHexDigit c = true ↔
    0x30 ≤ c.toNat ∧ c.toNat ≤ 0x39 ∨ 0x61 ≤ c.toNat ∧ c.toNat ≤ 0x66 ∨ 0x41 ≤ c.toNat ∧ c.toNat ≤ 0x46 := by
  simp [isHexDigit, Char.isDigit_iff_toNat, Char.le_def, UInt32.le_iff_toNat_le, or_assoc]

/-- The digits from `0` to `9` and from `a` to `f` where case does not count: none of the four
characters beyond ASCII is read as one of them. -/
theorem isHexDigit_iff_uncased {c : Char} : isHexDigit c = true ↔
    ∃ d, uncased? c = some d ∧ ('0' ≤ d ∧ d ≤ '9' ∨ 'a' ≤ d ∧ d ≤ 'f') := by
  have hascii : ∀ n : Fin 128, isHexDigit (Char.ofNat n) = true ↔
      '0' ≤ (Char.ofNat n).toLower ∧ (Char.ofNat n).toLower ≤ '9' ∨
        'a' ≤ (Char.ofNat n).toLower ∧ (Char.ofNat n).toLower ≤ 'f' := by decide +kernel
  unfold uncased?
  split
  · rename_i hc
    have hchar := hascii ⟨c.toNat, hc⟩
    rw [Char.ofNat_toNat] at hchar
    simpa using hchar
  · rename_i hc
    have hno : ¬ isHexDigit c = true := by
      rw [isHexDigit_iff_toNat]
      omega
    refine iff_of_false hno ?_
    rintro ⟨d, hd, hrange⟩
    split_ifs at hd <;> cases hd <;> revert hrange <;> decide

theorem toNat_lt_of_uncased {c d : Char} (h : uncased? c = some d) : d.toNat < 0x80 := by
  have hascii : ∀ n : Fin 0x80, (Char.ofNat n).toLower.toNat < 0x80 := by decide +kernel
  unfold uncased? at h
  split_ifs at h with hc <;> cases h
  · have hlower := hascii ⟨c.toNat, hc⟩
    rwa [Char.ofNat_toNat] at hlower
  all_goals decide

theorem language_hexDigit : Node.hexDigit.language = single isHexDigit := by
  refine congrArg single (funext fun c => ?_)
  -- a capital that stands for what a character is read as is none of the letters that are listed
  have hascii : ∀ n : Fin 0x80, let d := Char.ofNat n
      ((0x30 ≤ d.toNat && d.toNat ≤ 0x39) || (0x30 ≤ d.toUpper.toNat && d.toUpper.toNat ≤ 0x39) ||
        ((0x61 ≤ d.toNat && d.toNat ≤ 0x66) || (0x61 ≤ d.toUpper.toNat && d.toUpper.toNat ≤ 0x66))) = true ↔
        '0' ≤ d ∧ d ≤ '9' ∨ 'a' ≤ d ∧ d ≤ 'f' := by decide +kernel
  rw [Bool.eq_iff_iff, isHexDigit_iff_uncased]
  cases h : uncased? c with
  | none => simp [SetItem.holds, h]
  | some d =>
      have hd := hascii ⟨d.toNat, toNat_lt_of_uncased h⟩
      rw [Char.ofNat_toNat] at hd
      simpa [SetItem.holds, h] using hd

/-- What may stand at a place of a UUID. -/
def uuidPlace (i : Nat) : Char → Bool := if i ∈ hyphens then (· == '-') else isHexDigit

theorem language_uuid : Node.uuid.language = inPlaces ((List.range 36).map uuidPlace) := by
  have hplaces : (List.range 36).map uuidPlace =
      List.replicate 8 isHexDigit ++ ((· == '-') :: (List.replicate 4 isHexDigit ++ ((· == '-') ::
        (List.replicate 4 isHexDigit ++ ((· == '-') :: (List.replicate 4 isHexDigit ++ ((· == '-') ::
          List.replicate 12 isHexDigit))))))) := rfl
  simp only [hplaces, Node.uuid, Node.sequence, Node.language, language_exactly, language_hexDigit,
    inPlaces, List.map_append, List.prod_append, List.map_cons, List.prod_cons, List.map_replicate,
    List.prod_replicate]

theorem mem_language_uuid_iff {s : List Char} : s ∈ Node.uuid.language ↔ IsUuid s := by
  rw [language_uuid, mem_inPlaces_iff, List.forall₂_map_left_iff, List.forall₂_iff_get]
  simp only [List.get_eq_getElem, List.getElem_range, List.length_range]
  constructor
  · rintro ⟨hlength, hplaces⟩
    have hplace := fun i hi => hplaces i (hlength ▸ hi) hi
    refine ⟨hlength.symm, fun i hi hm => ?_, fun i hi hm => ?_⟩
    · simpa [uuidPlace, hm] using hplace i hi
    · simpa [uuidPlace, hm] using hplace i hi
  · rintro ⟨hlength, hhyphen, hdigit⟩
    refine ⟨hlength.symm, fun i _ hi => ?_⟩
    by_cases hm : i ∈ hyphens
    · rw [uuidPlace, if_pos hm]
      exact beq_iff_eq.mpr (hhyphen i hi hm)
    · rw [uuidPlace, if_neg hm]
      exact hdigit i hi hm

theorem isMatch_uuid_iff {s : List Char} : Node.uuid.isMatch s = true ↔ IsUuid s := by
  rw [Node.isMatch_iff_mem_language rfl rfl, mem_language_uuid_iff]

example : IsUuid "00000000-0000-0000-0000-0000000000fF".toList := by decide +kernel

end Pattern

/-! ### The tests of the formats -/

open Pattern

/-- A test of texts has an answer for every value, and finds nothing only in texts that satisfy
it. -/
theorem Test.exists_require_text_iff {p : String → Bool} {P : String → Prop} (hp : ∀ s, p s = true ↔ P s)
    (t : Test) (message : String) (v : Value) :
    ∃ found, require (v.text?.any p) t message = .ok found ∧ (found = none ↔ ∃ s, v = .text s ∧ P s) := by
  refine ⟨_, rfl, ?_⟩
  cases v with
  | text s => cases h : p s <;> simp [Value.text?, h, ← hp]
  | _ => simp [Value.text?]

/-- **E-mail addresses.** -/
theorem Test.email_examined_iff (v : Value) :
    ∃ found, Test.email.examine v = .ok found ∧
      (found = none ↔ ∃ s : String, v = .text s ∧ IsAddress s.toList) :=
  exists_require_text_iff (fun _ => isMatch_email_iff) .email "must be an email" v

/-- **UUIDs.** -/
theorem Test.uuid_examined_iff (v : Value) :
    ∃ found, Test.uuid.examine v = .ok found ∧
      (found = none ↔ ∃ s : String, v = .text s ∧ IsUuid s.toList) :=
  exists_require_text_iff (fun _ => isMatch_uuid_iff) .uuid "must be a UUID" v

end Intake
