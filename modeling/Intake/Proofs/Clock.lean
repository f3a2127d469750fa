import Intake.Proofs.IsoText
import Intake.Proofs.Standard

/-!
# Proofs — Clock — times of day

The times of a schedule are tested by a pattern of two pairs of digits with a colon between them and
an anchor on either side.  Matched as a whole, a text has to end where the pattern ends, so the
anchors ask for nothing more (`Pattern.Node.isMatch_anchored_iff`) and no line end may follow the
last digit.  What is left of the pattern has a language, which is the form of a time of day in
digits of any script (`Catalogue.timeOfDay_accepts_iff`).

Every time of day has this form, but the form says nothing of how large the hour and the minute are
(`isTimeOfDay_append_iff`), so that a schedule may record a time that no day has.

* **`Catalogue.scheduled_time`**: which texts a schedule records as times, when it is created or
  updated, and which of them are times of day.
-/

namespace Intake

namespace Pattern

/-! ### Anchors -/

namespace Node

theorem leads_sequence_cons_iff {a : Node} {as : List Node} {p q : Place} :
    (sequence (a :: as)).Leads p q ↔ ∃ u, a.Leads p u ∧ (sequence as).Leads u q := by
  cases as with
  | nil =>
      change a.Leads p q ↔ ∃ u, a.Leads p u ∧ q = u
      simp
  | cons b as => exact Iff.rfl

theorem leads_sequence_append_iff {as bs : List Node} {p q : Place} :
    (sequence (as ++ bs)).Leads p q ↔ ∃ u, (sequence as).Leads p u ∧ (sequence bs).Leads u q := by
  induction as generalizing p with
  | nil =>
      change _ ↔ ∃ u, u = p ∧ (sequence bs).Leads u q
      simp
  | cons a as ih =>
      rw [List.cons_append, leads_sequence_cons_iff]
      simp only [ih, leads_sequence_cons_iff]
      constructor
      · rintro ⟨u, hu, w, hw, hq⟩
        exact ⟨w, ⟨u, hu, hw⟩, hq⟩
      · rintro ⟨w, ⟨u, hu, hw⟩, hq⟩
        exact ⟨u, hu, w, hw, hq⟩

theorem isRegular_sequence (as : List Node) : (sequence as).isRegular = as.all (·.isRegular) := by
  induction as with
  | nil => rfl
  | cons a as ih =>
      cases as with
      | nil => exact (Bool.and_true _).symm
      | cons b as => exact congrArg (a.isRegular && ·) ih

/-- Where a text is matched as a whole, anchors at its start and at its end ask for nothing more. -/
theorem isMatch_anchored_iff (as : List Node) (h : as.all (·.isRegular) = true) (s : List Char) :
    (sequence (.anchor .start :: (as ++ [.anchor .lineEnd]))).isMatch s = true ↔
      (sequence as).isMatch s = true := by
  have hanchored : (sequence (.anchor .start :: (as ++ [.anchor .lineEnd]))).isRegular = true := by
    rw [isRegular_sequence, List.all_cons, List.all_append, h]
    rfl
  rw [isMatch_iff hanchored, isMatch_iff ((isRegular_sequence as).trans h)]
  refine exists_congr fun q => and_congr_left fun hq => ?_
  rw [leads_sequence_cons_iff]
  simp only [leads_sequence_append_iff]
  constructor
  · rintro ⟨_, ⟨-, rfl⟩, u, hu, -, rfl⟩
    exact hu
  · intro hleads
    have hend : Anchor.lineEnd.holds q.state = true := by simp [Anchor.holds, Place.state, hq]
    exact ⟨.start s, ⟨rfl, rfl⟩, q, hleads, hend, rfl⟩

end Node

theorem language_digit : (Node.ofCategory .digit false).language = single Text.isDecimalDigit :=
  congrArg single (funext fun c => by simp [SetItem.holds, Category.holds])

end Pattern

open Pattern

/-! ### Times of day -/

/-- Two digits of some kind. -/
def IsPair (digit : Char → Bool) (s : List Char) : Prop := s.length = 2 ∧ ∀ c ∈ s, digit c = true

/-- Two pairs of digits with a colon between them. -/
def HasClockForm (digit : Char → Bool) (s : List Char) : Prop :=
  ∃ hour minute, IsPair digit hour ∧ IsPair digit minute ∧ s = hour ++ ':' :: minute

/-- A time of a day of twenty-four hours, in hours and minutes with leading zeros. -/
def IsTimeOfDay (s : List Char) : Prop :=
  ∃ hour minute, hour < 24 ∧ minute < 60 ∧ s = Calendar.padded 2 hour ++ ':' :: Calendar.padded 2 minute

theorem HasClockForm.mono {digit digit' : Char → Bool} {s : List Char} (h : HasClockForm digit s)
    (hd : ∀ c, digit c = true → digit' c = true) : HasClockForm digit' s := by
  obtain ⟨hour, minute, ⟨hh, hhour⟩, ⟨hm, hminute⟩, rfl⟩ := h
  exact ⟨hour, minute, ⟨hh, fun c hc => hd c (hhour c hc)⟩, ⟨hm, fun c hc => hd c (hminute c hc)⟩, rfl⟩

theorem isPair_padded {n : Nat} (h : n < 100) : IsPair Char.isDigit (Calendar.padded 2 n) :=
  ⟨Calendar.length_padded (by decide) h, fun _ => Calendar.isDigit_of_mem_padded⟩

theorem digitsValue_padded (width n : Nat) : Text.digitsValue (Calendar.padded width n) = n := by
  rw [Text.digitsValue_eq_ofDigitChars fun _ => Calendar.isDigit_of_mem_padded]
  exact Calendar.ofDigitChars_padded width n

theorem exists_digitChar_of_isDigit {c : Char} (h : c.isDigit = true) : ∃ n < 10, c = Nat.digitChar n := by
  have hrange : 48 ≤ c.toNat ∧ c.toNat ≤ 57 := Char.isDigit_iff_toNat.mp h
  refine ⟨c.toNat - 48, by omega, Char.toNat_inj.mp ?_⟩
  rw [Nat.toNat_digitChar_of_lt_ten (by omega)]
  omega

/-- A pair of plain digits is how its value is written. -/
theorem padded_digitsValue {s : List Char} (h : IsPair Char.isDigit s) :
    Calendar.padded 2 (Text.digitsValue s) = s := by
  have hall : ∀ m < 10, ∀ n < 10, Calendar.padded 2 (Text.digitsValue [Nat.digitChar m, Nat.digitChar n]) =
      [Nat.digitChar m, Nat.digitChar n] := by decide
  obtain ⟨hlength, hdigits⟩ := h
  obtain ⟨a, b, rfl⟩ := List.length_eq_two.mp hlength
  obtain ⟨m, hm, rfl⟩ := exists_digitChar_of_isDigit (hdigits a (by simp))
  obtain ⟨n, hn, rfl⟩ := exists_digitChar_of_isDigit (hdigits b (by simp))
  exact hall m hm n hn

/-- What has the form of a time of day is one if its digits are plain and its parts are small
enough. -/
theorem isTimeOfDay_append_iff {hour minute : List Char} (hlength : hour.length = 2) :
    IsTimeOfDay (hour ++ ':' :: minute) ↔ IsPair Char.isDigit hour ∧ IsPair Char.isDigit minute ∧
      Text.digitsValue hour < 24 ∧ Text.digitsValue minute < 60 := by
  constructor
  · rintro ⟨h, m, hh, hm, heq⟩
    have hpair := isPair_padded (n := h) (by omega)
    obtain ⟨rfl, hminute⟩ := List.append_inj heq (hlength.trans hpair.1.symm)
    cases hminute
    rw [digitsValue_padded, digitsValue_padded]
    exact ⟨hpair, isPair_padded (by omega), hh, hm⟩
  · rintro ⟨hhour, hminute, hh, hm⟩
    exact ⟨_, _, hh, hm, by rw [padded_digitsValue hhour, padded_digitsValue hminute]⟩

theorem IsTimeOfDay.hasClockForm {s : List Char} (h : IsTimeOfDay s) : HasClockForm Char.isDigit s := by
  obtain ⟨hour, minute, hh, hm, rfl⟩ := h
  exact ⟨_, _, isPair_padded (by omega), isPair_padded (by omega), rfl⟩

namespace Catalogue

theorem timeOfDay_accepts_iff {s : String} :
    timeOfDay.accepts s = true ↔ HasClockForm Text.isDecimalDigit s.toList := by
  have hpair : ∀ w, w ∈ timeOfDay.twoDigits.language ↔ IsPair Text.isDecimalDigit w := by
    intro w
    rw [timeOfDay.twoDigits, ← Node.exactly, language_exactly, language_digit, mem_single_pow_iff]
    rfl
  refine (Node.isMatch_anchored_iff [timeOfDay.twoDigits, .char ':', timeOfDay.twoDigits] rfl s.toList).trans ?_
  rw [Node.isMatch_iff_mem_language rfl rfl]
  change s.toList ∈ timeOfDay.twoDigits.language * ((Node.char ':').language * timeOfDay.twoDigits.language) ↔ _
  constructor
  · rintro ⟨hour, hhour, _, hcolon, heq⟩
    obtain ⟨minute, hminute, rfl⟩ := mem_char_mul_iff.mp hcolon
    exact ⟨hour, minute, (hpair _).mp hhour, (hpair _).mp hminute, heq.symm⟩
  · rintro ⟨hour, minute, hhour, hminute, heq⟩
    have hcolon := (mem_char_mul_iff (d := ':')).mpr ⟨minute, (hpair _).mpr hminute, rfl⟩
    rw [heq]
    exact Language.append_mem_mul ((hpair _).mpr hhour) hcolon

/-- The rules of both schemas for the times of a schedule differ in nothing but whether a time is
required. -/
theorem exists_time_rule {s : Schema} (hs : s = createSchedule ∨ s = updateSchedule) {field : String}
    (hf : field = "time_start" ∨ field = "time_end") : ∃ rule, s.rule? field = some rule ∧
      rule.name = field ∧ rule.checks = [string, plain (.matching timeOfDay)] ∧ rule.condition = none := by
  rcases hs with rfl | rfl <;> rcases hf with rfl | rfl <;> exact ⟨_, rfl, rfl, rfl, rfl⟩

/-- What a schedule has recorded as a time is a text of the form of a time of day. -/
theorem exists_text_of_validated {o : Options} {s : Schema} (hs : s = createSchedule ∨ s = updateSchedule)
    {field : String} (hf : field = "time_start" ∨ field = "time_end") {d r : Entries}
    (h : s.validate o (.record d) = .ok (.valid r)) {v : Value} (hv : r.get? field = some v) (hn : v ≠ .null) :
    ∃ t : String, v = .text t ∧ HasClockForm Text.isDecimalDigit t.toList := by
  obtain ⟨rule, hfind, rfl, hchecks, hcond⟩ := exists_time_rule hs hf
  have hm : s ∈ pagination :: schemas := by rcases hs with rfl | rfl <;> simp [schemas]
  have hsteady := isSteady_of_mem s hm
  have hrule : rule ∈ s.rules := List.mem_of_find?_eq_some hfind
  have hkeeps := Schema.keeps_validated hsteady h hrule (by simp [Rule.appliesTo, hcond])
  rw [hv] at hkeeps
  obtain ⟨-, hrules⟩ := Schema.isSteady_iff.mp (Schema.everywhere_iff.mp hsteady).1
  have hmatch : (Test.matching timeOfDay).accepts v = true :=
    hkeeps.accepts hn (hrules rule hrule).1 (Schema.settled_of_everywhere hsteady hrule)
      (m := none) (by rw [hchecks]; simp [plain])
  obtain ⟨t, rfl, ht⟩ := Test.accepts_matching_iff.mp hmatch
  exact ⟨t, rfl, timeOfDay_accepts_iff.mp ht⟩

/-- The rule for a time has nothing to report of a text of the form of a time of day, and records
it. -/
theorem exists_judged_time (o : Options) {s : Schema} (hs : s = createSchedule ∨ s = updateSchedule)
    {field : String} (hf : field = "time_start" ∨ field = "time_end") {d : Entries} {v : Value}
    (hv : d.get? field = some v) (hn : v ≠ .null) :
    ∃ rule part, s.rule? field = some rule ∧ Rule.judge o rule d = .ok part ∧
      (part.violations = [] ↔ ∃ t : String, v = .text t ∧ HasClockForm Text.isDecimalDigit t.toList) ∧
      (part.violations = [] → part.value = some v) := by
  obtain ⟨rule, hfind, rfl, hchecks, hcond⟩ := exists_time_rule hs hf
  have hanswers : ∀ c ∈ rule.checks, ∃ vs, c.violations o rule.name v = .ok vs := by
    rw [hchecks]
    simp only [List.forall_mem_cons, List.not_mem_nil, false_imp_iff, implies_true, and_true]
    exact ⟨Check.exists_violations_test ⟨_, rfl⟩, Check.exists_violations_test ⟨_, rfl⟩⟩
  have hinert : rule.checks.all (·.isInert) = true := by rw [hchecks]; rfl
  obtain ⟨part, hpart, hiff, hvalue⟩ :=
    Rule.judge_of_isInert hinert (by simp [Rule.appliesTo, hcond]) hv hn hanswers
  refine ⟨rule, part, hfind, hpart, hiff.trans ?_, hvalue⟩
  simp only [hchecks, string, plain, List.all_cons, List.all_nil, Bool.and_true, Bool.and_eq_true, Check.accepts,
    Test.accepts_matching_iff, timeOfDay_accepts_iff]
  refine and_iff_right_of_imp ?_
  rintro ⟨t, rfl, -⟩
  rfl

/-- **Times of schedules.**  What a schedule has recorded as a time is a text of two pairs of digits
with a colon between them, and it is a time of day exactly if the digits are plain, the hour is
below 24 and the minute is below 60.  The rule for a time has nothing to report of exactly the texts
of this form, all times of day among them, and records them as they are. -/
theorem scheduled_time (o : Options) {s : Schema} (hs : s = createSchedule ∨ s = updateSchedule) {field : String}
    (hf : field = "time_start" ∨ field = "time_end") :
    (∀ d r, s.validate o (.record d) = .ok (.valid r) → ∀ v, r.get? field = some v → v ≠ .null →
      ∃ (t : String) (hour minute : List Char), v = .text t ∧ t.toList = hour ++ ':' :: minute ∧
        IsPair Text.isDecimalDigit hour ∧ IsPair Text.isDecimalDigit minute ∧
        (IsTimeOfDay t.toList ↔ IsPair Char.isDigit hour ∧ IsPair Char.isDigit minute ∧
          Text.digitsValue hour < 24 ∧ Text.digitsValue minute < 60)) ∧
    ∀ d v, d.get? field = some v → v ≠ .null → ∃ rule part, s.rule? field = some rule ∧
      Rule.judge o rule d = .ok part ∧
      (part.violations = [] ↔ ∃ t : String, v = .text t ∧ HasClockForm Text.isDecimalDigit t.toList) ∧
      (∀ t : String, v = .text t → IsTimeOfDay t.toList → part.violations = []) ∧
      (part.violations = [] → part.value = some v) := by
  refine ⟨fun d r h v hv hn => ?_, fun d v hv hn => ?_⟩
  · obtain ⟨t, rfl, hour, minute, hhour, hminute, ht⟩ := exists_text_of_validated hs hf h hv hn
    refine ⟨t, hour, minute, rfl, ht, hhour, hminute, ?_⟩
    rw [ht]
    exact isTimeOfDay_append_iff hhour.1
  · obtain ⟨rule, part, hfind, hpart, hiff, hvalue⟩ := exists_judged_time o hs hf hv hn
    refine ⟨rule, part, hfind, hpart, hiff, fun t ht htime => ?_, hvalue⟩
    exact hiff.mpr ⟨t, ht, htime.hasClockForm.mono fun _ => Text.isDecimalDigit_of_isDigit⟩

/-- A class from half past eight, in digits of another script, to a quarter past nine. -/
def morningClass : Entries := [
  (.text "course_section_id", .text "123e4567-e89b-12d3-a456-426614174000"),
  (.text "weekday", .text "Monday"),
  (.text "time_start", .text "٠٨:٣٠"),
  (.text "time_end", .text "09:15")]

/-- The last minute of a day is recorded, with a line end behind it there is something to report. -/
theorem scheduled_time_morning :
    (∃ (t : String) (hour minute : List Char), Value.text "٠٨:٣٠" = .text t ∧ t.toList = hour ++ ':' :: minute ∧
      IsPair Text.isDecimalDigit hour ∧ IsPair Text.isDecimalDigit minute ∧
      (IsTimeOfDay t.toList ↔ IsPair Char.isDigit hour ∧ IsPair Char.isDigit minute ∧
        Text.digitsValue hour < 24 ∧ Text.digitsValue minute < 60)) ∧
    (∃ rule part, updateSchedule.rule? "time_end" = some rule ∧
      Rule.judge ⟨true, false⟩ rule [(.text "time_end", .text "23:59")] = .ok part ∧
      part.violations = [] ∧ part.value = some (.text "23:59")) ∧
    ∃ rule part, updateSchedule.rule? "time_end" = some rule ∧
      Rule.judge ⟨true, false⟩ rule [(.text "time_end", .text "23:59\n")] = .ok part ∧ part.violations ≠ [] := by
  have hstart : "time_start" = "time_start" ∨ "time_start" = "time_end" := .inl rfl
  have hend : "time_end" = "time_start" ∨ "time_end" = "time_end" := .inr rfl
  obtain ⟨hrecorded, -⟩ := scheduled_time {} (.inl rfl) hstart
  obtain ⟨-, hjudged⟩ := scheduled_time ⟨true, false⟩ (.inr rfl) hend
  have hvalid : createSchedule.validate {} (.record morningClass) = .ok (.valid morningClass) := by rfl
  obtain ⟨rule, part, hfind, hpart, -, htime, hvalue⟩ :=
    hjudged [(.text "time_end", .text "23:59")] (.text "23:59") rfl nofun
  obtain ⟨rule', part', hfind', hpart', hiff, -, -⟩ :=
    hjudged [(.text "time_end", .text "23:59\n")] (.text "23:59\n") rfl nofun
  have hnone : part.violations = [] := htime "23:59" rfl ⟨23, 59, by decide, by decide, by decide⟩
  refine ⟨hrecorded _ _ hvalid (.text "٠٨:٣٠") rfl nofun, ⟨rule, part, hfind, hpart, hnone, hvalue hnone⟩,
    rule', part', hfind', hpart', fun h => ?_⟩
  obtain ⟨t, ht, hour, minute, ⟨hh, -⟩, ⟨hm, -⟩, heq⟩ := hiff.mp h
  cases ht
  have hlength := congrArg List.length heq
  rw [List.length_append, List.length_cons, hh, hm] at hlength
  exact absurd hlength (by decide)

/-- A class that ends when no day has such a time. -/
def lateClass : Entries := [
  (.text "course_section_id", .text "123e4567-e89b-12d3-a456-426614174000"),
  (.text "weekday", .text "Monday"),
  (.text "time_start", .text "08:30"),
  (.text "time_end", .text "99:99")]

/-- The schedule records the class as it was sent. -/
theorem lateClass_recorded :
    createSchedule.validate {} (.record lateClass) = .ok (.valid lateClass) ∧
      lateClass.get? "time_end" = some (.text "99:99") ∧ ¬ IsTimeOfDay "99:99".toList := by
  refine ⟨by rfl, by rfl, fun h => ?_⟩
  have hform : IsTimeOfDay (['9', '9'] ++ ':' :: ['9', '9']) := h
  obtain ⟨-, -, hhour, -⟩ := (isTimeOfDay_append_iff rfl).mp hform
  exact absurd hhour (by decide)

end Catalogue

end Intake
