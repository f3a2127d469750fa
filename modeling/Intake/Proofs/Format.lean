import Intake.Proofs.Language
import Intake.Proofs.Query
import Intake.Proofs.Typing

/-!
# Proofs — Format — texts of a given form

A rule whose checks read nothing has a simple verdict on a value: it records the value as it is if
every check accepts it, and otherwise has something to report (`Rule.judge_of_isInert`).  Where the
checks are lengths and patterns, what they accept is a set of texts, and what the pattern
contributes to it is where its node leads.

* `Catalogue.password_judged_iff`: the passwords of users.
-/

namespace Intake

/-! ### Checks that read nothing -/

namespace Check

variable {o : Options} {field : String}

theorem coerce_of_isInert {c : Check} (h : c.isInert = true) (o : Options) (v : Value) :
    c.coerce o v = .ok v := by
  rcases c with ⟨t, m⟩ | ⟨_ | s, m⟩
  · rw [coerce_test, Test.coerce_of_leaves (Test.leaves_of_not_rereads (by simpa [isInert] using h) v)]
  · exact coerce_items_none ..
  · cases h

theorem violations_eq_nil_of_isInert {c : Check} (h : c.isInert = true) {v : Value} :
    c.violations o field v = .ok [] ↔ c.accepts v = true := by
  rcases c with ⟨t, m⟩ | ⟨_ | s, m⟩
  · exact violations_test_eq_nil_iff
  · simp only [violations_items_none, Check.accepts, Option.isNone_none]
  · cases h

theorem exists_violations_test {t : Test} {m : Option String} {v : Value}
    (h : ∃ found, t.examine v = .ok found) : ∃ vs, (Check.test t m).violations o field v = .ok vs := by
  obtain ⟨found, hfound⟩ := h
  simp only [violations_test, hfound, ok_bind]
  exact ⟨_, rfl⟩

/-- The first check that does not accept a value ends the chain. -/
theorem exists_chain_failed {checks : List Check} (hi : checks.all (·.isInert) = true) {v : Value}
    (hv : ∀ c ∈ checks, ∃ vs, c.violations o field v = .ok vs) (hn : checks.all (·.accepts v) = false) :
    ∃ vs, Check.chain o field checks v = .ok (.failed vs) := by
  induction checks with
  | nil => cases hn
  | cons c checks ih =>
      rw [List.all_cons, Bool.and_eq_true] at hi
      obtain ⟨⟨vs, hvs⟩, hrest⟩ := List.forall_mem_cons.mp hv
      cases ha : c.accepts v with
      | true =>
          rw [(passes_of_accepts ha).chain_cons]
          refine ih hi.2 hrest ?_
          rwa [List.all_cons, ha, Bool.true_and] at hn
      | false =>
          have hne : vs ≠ [] := by
            rintro rfl
            rw [(violations_eq_nil_of_isInert hi.1).mp hvs] at ha
            cases ha
          exact ⟨vs, chain_cons_failed_iff.mpr
            (.inl ⟨v, v, prepare_of_isInert hi.1 o v, coerce_of_isInert hi.1 o v, hvs, hne⟩)⟩

end Check

/-- A rule whose checks read nothing has nothing to report if they all accept the value, which it
then records as it is. -/
theorem Rule.judge_of_isInert {o : Options} {rule : Rule} {d : Entries} {v : Value}
    (hi : rule.checks.all (·.isInert) = true) (ha : rule.appliesTo d = true)
    (hv : d.get? rule.name = some v) (hn : v ≠ .null)
    (hanswers : ∀ c ∈ rule.checks, ∃ vs, c.violations o rule.name v = .ok vs) :
    ∃ part, Rule.judge o rule d = .ok part ∧
      (part.violations = [] ↔ rule.checks.all (·.accepts v) = true) ∧
      (part.violations = [] → part.value = some v) := by
  rw [judge_of_present ha hv hn]
  cases hall : rule.checks.all (·.accepts v) with
  | true =>
      rw [Check.chain_of_accepts hall]
      exact ⟨_, rfl, by simp [Validation.ofVerdict], fun _ => rfl⟩
  | false =>
      obtain ⟨vs, hvs⟩ := Check.exists_chain_failed hi hanswers hall
      have hne : vs ≠ [] := Check.ne_nil_of_chain_failed hvs
      rw [hvs]
      exact ⟨_, rfl, by simpa [Validation.ofVerdict] using hne, fun h => absurd h hne⟩

/-! ### Lengths -/

theorem Test.lengthTest_eq_ok_none_iff {t : Test} {v : Value} {n : Int} {condition : Int → Bool}
    {relation : String} :
    lengthTest t v n condition relation = .ok none ↔
      ∃ s : String, v = .text s ∧ condition s.length = true := by
  have hfailed : lengthTest.failed t n relation ≠ .ok none := by
    intro h
    obtain ⟨w, -, hw⟩ := bind_pure_eq_ok_iff.mp h
    cases hw
  cases v with
  | text s => cases hc : condition s.length <;> simp [lengthTest, Value.text?, hc, hfailed]
  | _ => simp [lengthTest, Value.text?, hfailed]

/-- A length that can be written is tested on every value. -/
theorem Test.exists_examine_lengthTest (t : Test) (v : Value) {n : Int} (hn : Number.Integer.isWritable n = true)
    (condition : Int → Bool) (relation : String) :
    ∃ found, lengthTest t v n condition relation = .ok found := by
  rcases (lengthTest_answersIf t v n condition relation).cases with h | ⟨-, h⟩
  · exact h
  · exact absurd hn h

theorem Test.accepts_minLength_iff {v : Value} {n : Int} :
    (minLength n).accepts v = true ↔ ∃ s : String, v = .text s ∧ n ≤ s.toList.length := by
  simp [accepts_iff, examine, lengthTest_eq_ok_none_iff, String.length_toList]

theorem Test.accepts_maxLength_iff {v : Value} {n : Int} :
    (maxLength n).accepts v = true ↔ ∃ s : String, v = .text s ∧ s.toList.length ≤ n := by
  simp [accepts_iff, examine, lengthTest_eq_ok_none_iff, String.length_toList]

theorem Test.accepts_matching_iff {v : Value} {p : Pattern} :
    (matching p).accepts v = true ↔ ∃ s : String, v = .text s ∧ p.accepts s = true := by
  rw [accepts_iff, examine, require_eq_ok_none_iff]
  cases v <;> simp [Value.text?]

/-! ### Looking ahead -/

namespace Pattern

/-- What begins with a character that has a property, and may be nothing but this character. -/
def Node.BeginsWith (a : Node) (g : Char → Prop) : Prop :=
  ∀ p : Place, (∃ q, a.Leads p q) ↔ ∃ c rest, p.rest = c :: rest ∧ g c

theorem Node.beginsWith_set {negated : Bool} {items : List SetItem} {g : Char → Prop}
    (hg : ∀ c, (items.any (·.holds c) != negated) = true ↔ g c) :
    (Node.set negated items).BeginsWith g := fun p => by
  simp only [Node.Leads, Place.exists_steps_iff, hg]

/-- One or more characters of a class begin with one. -/
theorem Node.beginsWith_oneOrMore {negated : Bool} {items : List SetItem} {g : Char → Prop}
    (hg : ∀ c, (items.any (·.holds c) != negated) = true ↔ g c) :
    (Node.oneOrMore (.set negated items)).BeginsWith g := fun p => by
  rw [← beginsWith_set hg]
  constructor
  · rintro ⟨q, hq⟩
    obtain ⟨run, hlength, -, hrun, hpass⟩ := (leads_repeated_iff rfl).mp hq
    cases run with
    | nil => cases hlength
    | cons c run =>
        exact Place.exists_steps_iff.mpr ⟨c, run ++ q.rest, hpass.1, hrun c (List.mem_cons_self ..)⟩
  · rintro ⟨q, c, hc, hq⟩
    refine ⟨q, (leads_repeated_iff rfl).mpr ⟨[c], Nat.le_refl 1, nofun, ?_, hq⟩⟩
    simpa using hc

end Pattern

namespace Catalogue
open Pattern

theorem leads_anything_iff {p q : Place} :
    password.anything.Leads p q ↔ ∃ run, '\n' ∉ run ∧ p.Passes run q := by
  rw [password.anything, Node.leads_repeated_iff rfl]
  simp only [Nat.zero_le, true_and, Option.mem_def, reduceCtorEq, false_imp_iff, implies_true, bne_iff_ne]
  refine exists_congr fun run => and_congr_left fun _ => ?_
  exact ⟨fun h hm => h _ hm rfl, fun h c hc he => h (he ▸ hc)⟩

/-- Where no line ends, what begins with a character of some kind is ahead exactly if the text has a
character of this kind. -/
theorem exists_leads_ahead_iff {a : Node} {g : Char → Prop} (ha : a.BeginsWith g) {p : Place}
    (hp : '\n' ∉ p.rest) :
    (∃ q, (Node.seq password.anything a).Leads p q) ↔ ∃ c ∈ p.rest, g c := by
  constructor
  · rintro ⟨q, u, hu, hq⟩
    obtain ⟨run, -, hrun⟩ := leads_anything_iff.mp hu
    obtain ⟨c, rest, hrest, hc⟩ := (ha u).mp ⟨q, hq⟩
    exact ⟨c, by rw [hrun.1, hrest]; simp, hc⟩
  · rintro ⟨c, hm, hc⟩
    obtain ⟨run, rest, hsplit⟩ := List.append_of_mem hm
    obtain ⟨u, hu, hrest⟩ := Place.exists_passes_iff.mpr hsplit
    obtain ⟨q, hq⟩ := (ha u).mpr ⟨c, rest, hrest, hc⟩
    have hline : '\n' ∉ run := fun h => hp (by rw [hsplit]; exact List.mem_append_left _ h)
    exact ⟨q, u, leads_anything_iff.mpr ⟨run, hline, hu⟩, hq⟩

/-- To the end of a text it is a single line. -/
theorem exists_leads_anything_iff {p : Place} :
    (∃ q, password.anything.Leads p q ∧ q.rest = []) ↔ '\n' ∉ p.rest := by
  constructor
  · rintro ⟨q, hq, hend⟩
    obtain ⟨run, hline, hrun⟩ := leads_anything_iff.mp hq
    rwa [hrun.1, hend, List.append_nil]
  · intro h
    obtain ⟨q, hq, hend⟩ := Place.exists_passes_iff.mpr (show p.rest = p.rest ++ [] by simp)
    exact ⟨q, leads_anything_iff.mpr ⟨_, h, hq⟩, hend⟩

/-! ### Passwords -/

/-- What is ahead of the start of a password, and what is not. -/
theorem exists_leads_password_iff {p : Place} :
    (∃ q, password.node.Leads p q ∧ q.rest = []) ↔ '\n' ∉ p.rest ∧
      ((∃ q, (Node.seq password.anything (.ofCategory .digit false)).Leads p q) ∨
        ∃ q, (Node.seq password.anything (.oneOrMore (.ofCategory .word true))).Leads p q) ∧
      (¬ ∃ q, (Node.set false [.range 0x2E 0x2E, .range 0x0A 0x0A]).Leads p q) ∧
      (∃ q, (Node.seq password.anything (.set false [.range 0x41 0x5A])).Leads p q) ∧
      ∃ q, (Node.seq password.anything (.set false [.range 0x61 0x7A])).Leads p q := by
  rw [← exists_leads_anything_iff]
  constructor
  · rintro ⟨q, ⟨_, hmark, _, ⟨hfront, rfl⟩, _, ⟨hupper, rfl⟩, _, ⟨hlower, rfl⟩, _, hline, -, rfl⟩, hend⟩
    rcases hmark with ⟨hmark, rfl⟩ | ⟨hmark, rfl⟩
    · exact ⟨⟨q, hline, hend⟩, .inl hmark, hfront, hupper, hlower⟩
    · exact ⟨⟨q, hline, hend⟩, .inr hmark, hfront, hupper, hlower⟩
  · rintro ⟨⟨q, hline, hend⟩, hmark, hfront, hupper, hlower⟩
    have hlast : Anchor.lineEnd.holds q.state = true := by simp [Anchor.holds, Place.state, hend]
    refine ⟨q, ⟨p, ?_, p, ⟨hfront, rfl⟩, p, ⟨hupper, rfl⟩, p, ⟨hlower, rfl⟩, q, hline, hlast, rfl⟩, hend⟩
    rcases hmark with hmark | hmark
    · exact .inl ⟨hmark, rfl⟩
    · exact .inr ⟨hmark, rfl⟩

/-- Six to fifty characters on one line, with no point in front: an upper-case letter and a
lower-case letter of ASCII among them, and a digit of some script or a character that no word
has. -/
structure IsPassword (s : List Char) : Prop where
  atLeast : 6 ≤ s.length
  atMost  : s.length ≤ 50
  oneLine : '\n' ∉ s
  front   : s.head? ≠ some '.'
  upper   : ∃ c ∈ s, c.isUpper = true
  lower   : ∃ c ∈ s, c.isLower = true
  mark    : ∃ c ∈ s, Text.isDecimalDigit c = true ∨ Text.isWordCharacter c = false

instance (s : List Char) : Decidable (IsPassword s) :=
  decidable_of_iff
    (6 ≤ s.length ∧ s.length ≤ 50 ∧ '\n' ∉ s ∧ s.head? ≠ some '.' ∧ s.any Char.isUpper = true ∧
      s.any Char.isLower = true ∧ (s.any fun c => Text.isDecimalDigit c || !Text.isWordCharacter c) = true) <| by
    simp only [List.any_eq_true, Bool.or_eq_true, Bool.not_eq_true']
    exact ⟨fun ⟨h₁, h₂, h₃, h₄, h₅, h₆, h₇⟩ => ⟨h₁, h₂, h₃, h₄, h₅, h₆, h₇⟩,
      fun ⟨h₁, h₂, h₃, h₄, h₅, h₆, h₇⟩ => ⟨h₁, h₂, h₃, h₄, h₅, h₆, h₇⟩⟩

-- A digit of any script is a mark.  A digit that only looks like one is not, nor is a low line: words
-- have both.
example : IsPassword "Secret٣".toList ∧ ¬ IsPassword "Secret²".toList ∧ ¬ IsPassword "Secret_".toList := by
  decide

theorem holds_range_self {c d : Char} : (SetItem.range d.toNat d.toNat).holds c = true ↔ c = d := by
  simp only [SetItem.holds, Bool.and_eq_true, decide_eq_true_eq, ← Nat.le_antisymm_iff, Char.toNat_inj]
  exact eq_comm

theorem isUpper_iff_toNat {c : Char} : c.isUpper = true ↔ 0x41 ≤ c.toNat ∧ c.toNat ≤ 0x5A := by
  change decide (c.val ≥ 'A'.val ∧ c.val ≤ 'Z'.val) = true ↔ _
  simp [UInt32.le_iff_toNat_le]

theorem isLower_iff_toNat {c : Char} : c.isLower = true ↔ 0x61 ≤ c.toNat ∧ c.toNat ≤ 0x7A := by
  change (decide (c.val ≥ 'a'.val) && decide (c.val ≤ 'z'.val)) = true ↔ _
  simp [UInt32.le_iff_toNat_le]

theorem beginsWith_upper : (Node.set false [.range 0x41 0x5A]).BeginsWith fun c => c.isUpper = true :=
  Node.beginsWith_set fun c => by simp [SetItem.holds, isUpper_iff_toNat]

theorem beginsWith_lower : (Node.set false [.range 0x61 0x7A]).BeginsWith fun c => c.isLower = true :=
  Node.beginsWith_set fun c => by simp [SetItem.holds, isLower_iff_toNat]

theorem beginsWith_front : (Node.set false [.range 0x2E 0x2E, .range 0x0A 0x0A]).BeginsWith fun c =>
    c = '.' ∨ c = '\n' :=
  Node.beginsWith_set fun c => by
    simpa using or_congr (holds_range_self (d := '.')) (holds_range_self (d := '\n'))

theorem beginsWith_digit : (Node.ofCategory .digit false).BeginsWith fun c => Text.isDecimalDigit c = true :=
  Node.beginsWith_set fun c => by simp [SetItem.holds, Category.holds]

theorem beginsWith_other : (Node.oneOrMore (.ofCategory .word true)).BeginsWith fun c =>
    Text.isWordCharacter c = false :=
  Node.beginsWith_oneOrMore fun c => by simp [SetItem.holds, Category.holds]

/-- On one line, what must not come first can only be a point. -/
theorem exists_leads_front_iff {p : Place} (hp : '\n' ∉ p.rest) :
    (∃ q, (Node.set false [.range 0x2E 0x2E, .range 0x0A 0x0A]).Leads p q) ↔ p.rest.head? = some '.' := by
  rw [beginsWith_front, List.head?_eq_some_iff]
  constructor
  · rintro ⟨c, rest, hrest, rfl | rfl⟩
    · exact ⟨rest, hrest⟩
    · exact absurd (hrest ▸ List.mem_cons_self ..) hp
  · rintro ⟨rest, hrest⟩
    exact ⟨'.', rest, hrest, .inl rfl⟩

theorem password_accepts_iff {s : String} :
    password.accepts s = true ↔ '\n' ∉ s.toList ∧ s.toList.head? ≠ some '.' ∧
      (∃ c ∈ s.toList, c.isUpper = true) ∧ (∃ c ∈ s.toList, c.isLower = true) ∧
      ∃ c ∈ s.toList, Text.isDecimalDigit c = true ∨ Text.isWordCharacter c = false := by
  have hmark : (∃ c ∈ s.toList, Text.isDecimalDigit c = true ∨ Text.isWordCharacter c = false) ↔
      (∃ c ∈ s.toList, Text.isDecimalDigit c = true) ∨ ∃ c ∈ s.toList, Text.isWordCharacter c = false := by
    simp only [and_or_left, exists_or]
  rw [Pattern.accepts, Node.isMatch_iff (by rfl), exists_leads_password_iff, hmark]
  refine and_congr_right fun hline => ?_
  rw [exists_leads_ahead_iff beginsWith_digit hline, exists_leads_ahead_iff beginsWith_other hline,
    exists_leads_ahead_iff beginsWith_upper hline, exists_leads_ahead_iff beginsWith_lower hline,
    exists_leads_front_iff hline]
  constructor
  · rintro ⟨hmark, hfront, hupper, hlower⟩
    exact ⟨hfront, hupper, hlower, hmark⟩
  · rintro ⟨hfront, hupper, hlower, hmark⟩
    exact ⟨hmark, hfront, hupper, hlower⟩

/-- The checks of a password have an answer for every value. -/
theorem exists_violations_password (o : Options) (field : String) (v : Value) :
    ∀ c ∈ [string, minLength 6, maxLength 50, .test (.matching password) (some passwordMessage)],
      ∃ vs, c.violations o field v = .ok vs := by
  have hmin := Test.exists_examine_lengthTest (.minLength 6) v (n := 6) (by decide) (decide <| 6 ≤ ·) "longer"
  have hmax := Test.exists_examine_lengthTest (.maxLength 50) v (n := 50) (by decide) (decide <| · ≤ 50) "shorter"
  simp only [List.forall_mem_cons, List.not_mem_nil, false_imp_iff, implies_true, and_true]
  refine ⟨?_, ?_, ?_, ?_⟩
  · exact Check.exists_violations_test ⟨_, rfl⟩
  · exact Check.exists_violations_test hmin
  · exact Check.exists_violations_test hmax
  · exact Check.exists_violations_test ⟨_, rfl⟩

/-- **Passwords.**  The rule for the password of a new user has nothing to report of a value exactly
if it is a text and a password, and then records it as it is. -/
theorem password_judged_iff (o : Options) {d : Entries} {v : Value} (hv : d.get? "password" = some v)
    (hn : v ≠ .null) :
    ∃ rule part, createUser.rule? "password" = some rule ∧ Rule.judge o rule d = .ok part ∧
      (part.violations = [] ↔ ∃ s : String, v = .text s ∧ IsPassword s.toList) ∧
      (part.violations = [] → part.value = some v) := by
  obtain ⟨part, hpart, hiff, hvalue⟩ := @Rule.judge_of_isInert o
    (required "password" [string, minLength 6, maxLength 50, .test (.matching password) (some passwordMessage)])
    d v rfl rfl hv hn (exists_violations_password o "password" v)
  refine ⟨_, part, rfl, hpart, hiff.trans ?_, hvalue⟩
  simp only [required, string, minLength, maxLength, plain, List.all_cons, List.all_nil, Bool.and_true,
    Bool.and_eq_true, Check.accepts, Test.accepts_minLength_iff, Test.accepts_maxLength_iff,
    Test.accepts_matching_iff, password_accepts_iff]
  constructor
  · rintro ⟨-, ⟨s, rfl, hmin⟩, ⟨_, h₁, hmax⟩, _, h₂, hline, hfront, hupper, hlower, hmark⟩
    cases h₁
    cases h₂
    exact ⟨s, rfl, by omega, by omega, hline, hfront, hupper, hlower, hmark⟩
  · rintro ⟨s, rfl, hs⟩
    have hmin := hs.atLeast
    have hmax := hs.atMost
    refine ⟨rfl, ⟨s, rfl, by omega⟩, ⟨s, rfl, by omega⟩, s, rfl, ?_⟩
    exact ⟨hs.oneLine, hs.front, hs.upper, hs.lower, hs.mark⟩

/-- A password that a blank marks is recorded, with a line end behind it there is something to
report. -/
theorem password_judged_iff_marked :
    (∃ rule part, createUser.rule? "password" = some rule ∧
      Rule.judge ⟨true, true⟩ rule [(.text "password", .text "Mi clave")] = .ok part ∧
      part.violations = [] ∧ part.value = some (.text "Mi clave")) ∧
    ∃ rule part, createUser.rule? "password" = some rule ∧
      Rule.judge ⟨true, true⟩ rule [(.text "password", .text "Mi clave\n")] = .ok part ∧
      part.violations ≠ [] := by
  obtain ⟨rule, part, hrule, hpart, hiff, hvalue⟩ := password_judged_iff ⟨true, true⟩
    (d := [(.text "password", .text "Mi clave")]) (v := .text "Mi clave") rfl nofun
  obtain ⟨rule', part', hrule', hpart', hiff', -⟩ := password_judged_iff ⟨true, true⟩
    (d := [(.text "password", .text "Mi clave\n")]) (v := .text "Mi clave\n") rfl nofun
  have hnone : part.violations = [] := hiff.mpr ⟨_, rfl, by decide⟩
  refine ⟨⟨rule, part, hrule, hpart, hnone, hvalue hnone⟩, rule', part', hrule', hpart', fun h => ?_⟩
  obtain ⟨s, hs, hword⟩ := hiff'.mp h
  cases hs
  exact absurd hword (by decide)

end Catalogue

end Intake
