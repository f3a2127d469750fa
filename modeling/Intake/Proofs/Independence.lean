import Intake.Catalogue.Field
import Intake.Proofs.Chain
import Intake.Proofs.Contribution

/-!
# Proofs — Independence — every field by itself

What is wrong with a record is the report of each rule, in the order of the rules, and then one
violation for each entry that is not declared, in the order of the record
(`Schema.exists_reported_of_validate`).  A rule sees no more of the record than whether it applies
and what the value of its field is (`Rule.report_congr`), and reports at most one violation unless
it judges items (`Rule.length_report_le_one`).

So no rule has a part in what another one reports: what is wrong with a record under two lists of
rules together is what is wrong with it under the first and then under the second
(`Schema.validate_append`).
-/

namespace Intake

open Validation

/-! ### The report of a rule -/

/-- The violations that a rule contributes. -/
def Rule.report (o : Options) (rule : Rule) (r : Entries) : Except Fault (List Violation) :=
  Rule.judge o rule r >>= fun part => pure part.violations

theorem Rule.report_eq_ok_iff {o : Options} {rule : Rule} {r : Entries} {vs : List Violation} :
    rule.report o r = .ok vs ↔ ∃ part, rule.Judged o r part ∧ part.violations = vs := by
  simp only [report, bind_pure_eq_ok_iff, judge_eq_ok_iff]

/-- A rule reports nothing of a field that it does not apply to. -/
theorem Rule.report_of_not_appliesTo {o : Options} {rule : Rule} {r : Entries}
    (ha : rule.appliesTo r = false) : rule.report o r = .ok [] := by
  rw [report, judge_of_not_appliesTo ha]
  rfl

theorem Rule.report_of_missing {o : Options} {rule : Rule} {r : Entries}
    (ha : rule.appliesTo r = true) (hv : r.getD rule.name = .null) :
    rule.report o r = .ok (if rule.required then [missingField rule.name] else []) := by
  rw [report, judge_of_missing ha hv]
  cases hr : rule.required with
  | true => rw [absent_of_required hr]; rfl
  | false => rw [absent_of_not_required hr]; rfl

theorem Rule.report_of_present {o : Options} {rule : Rule} {r : Entries}
    (ha : rule.appliesTo r = true) (hv : r.getD rule.name ≠ .null) :
    rule.report o r = Check.chain o rule.name rule.checks (r.getD rule.name) >>= fun verdict =>
      pure (ofVerdict rule.name verdict).violations := by
  obtain ⟨v, hg, hd, hn⟩ := Entries.exists_of_getD_ne_null hv
  rw [hd, report, judge_of_present ha hg hn]
  cases Check.chain o rule.name rule.checks v <;> rfl

/-- A rule reports the same of two records to which it applies alike and which have the same value
in its field. -/
theorem Rule.report_congr {o : Options} {rule : Rule} {r t : Entries}
    (ha : rule.appliesTo r = rule.appliesTo t) (hv : r.getD rule.name = t.getD rule.name) :
    rule.report o r = rule.report o t := by
  cases happ : rule.appliesTo r with
  | false => rw [report_of_not_appliesTo happ, report_of_not_appliesTo (ha ▸ happ)]
  | true =>
      by_cases hn : r.getD rule.name = .null
      · rw [report_of_missing happ hn, report_of_missing (ha ▸ happ) (hv ▸ hn)]
      · rw [report_of_present happ hn, report_of_present (ha ▸ happ) (hv ▸ hn), hv]

/-- A test finds one thing wrong, if anything. -/
theorem Check.length_violations_test_le_one {o : Options} {field : String} {t : Test} {m : Option String}
    {v : Value} {vs : List Violation} (h : (Check.test t m).violations o field v = .ok vs) :
    vs.length ≤ 1 := by
  simp only [violations_test, bind_pure_eq_ok_iff] at h
  obtain ⟨found, -, rfl⟩ := h
  cases found with
  | none => exact Nat.zero_le _
  | some f => exact Nat.le_refl _

theorem Check.length_chain_failed_le_one {o : Options} {field : String} {checks : List Check}
    (hc : ∀ s m, Check.items s m ∉ checks) {v : Value} {vs : List Violation}
    (h : Check.chain o field checks v = .ok (.failed vs)) : vs.length ≤ 1 := by
  -- the chain ends at its first check that finds something, so only this one reports
  induction checks generalizing v with
  | nil =>
      rw [chain_nil] at h
      cases h
  | cons c checks ih =>
      rcases chain_cons_failed_iff.mp h with ⟨x, u, -, -, hv, -⟩ | ⟨u, -, h⟩
      · cases c with
        | test t m => exact length_violations_test_le_one hv
        | items s m => exact absurd (List.mem_cons_self ..) (hc s m)
      · exact ih (fun s m hm => hc s m (List.mem_cons_of_mem _ hm)) h

/-- A rule without a check of items reports one violation, if any. -/
theorem Rule.length_report_le_one {o : Options} {rule : Rule} (hc : ∀ s m, Check.items s m ∉ rule.checks)
    {r : Entries} {vs : List Violation} (h : rule.report o r = .ok vs) : vs.length ≤ 1 := by
  obtain ⟨part, hj, rfl⟩ := report_eq_ok_iff.mp h
  cases hj with
  | skipped => exact Nat.zero_le _
  | missing ha hv =>
      cases hr : rule.required with
      | true => rw [absent_of_required hr]; exact Nat.le_refl _
      | false => rw [absent_of_not_required hr]; exact Nat.zero_le _
  | passed => exact Nat.zero_le _
  | failed ha hv hn hchain => exact Check.length_chain_failed_le_one hc hchain

/-- The reports of rules, one after the other. -/
def Rule.Reports (o : Options) (rules : List Rule) (r : Entries) (reports : List (List Violation)) : Prop :=
  List.Forall₂ (fun rule vs => rule.report o r = .ok vs) rules reports

theorem Rule.AllJudged.reports {o : Options} {rules : List Rule} {r : Entries} {parts : List Contribution}
    (h : Rule.AllJudged o rules r parts) : Rule.Reports o rules r (parts.map (·.violations)) := by
  unfold Rule.Reports
  rw [List.forall₂_map_right_iff]
  exact List.Forall₂.imp (fun rule part hj => Rule.report_eq_ok_iff.mpr ⟨part, hj, rfl⟩) h

theorem Rule.Reports.exists_judged {o : Options} {rules : List Rule} {r : Entries}
    {reports : List (List Violation)} (h : Rule.Reports o rules r reports) :
    ∃ parts, Rule.AllJudged o rules r parts ∧ reports = parts.map (·.violations) := by
  unfold Rule.Reports at h
  induction h with
  | nil => exact ⟨[], .nil, rfl⟩
  | cons hr _ ih =>
      obtain ⟨part, hj, rfl⟩ := report_eq_ok_iff.mp hr
      obtain ⟨parts, hp, rfl⟩ := ih
      exact ⟨part :: parts, .cons hj hp, rfl⟩

/-! ### The report of what is not declared -/

/-- One violation for each entry that a schema does not declare, in order, if these are
forbidden. -/
def Schema.ReportsStrays (o : Options) (s : Schema) (r : Entries) (vs : List Violation) : Prop :=
  if o.forbidUnknown then
    List.Forall₂ (fun e w => ∃ name, e.1.display = .ok name ∧
      w = ⟨name, "whitelist", .unknownField, "property " ++ name ++ " should not exist"⟩) (strays s r) vs
  else vs = []

theorem strayKey_eq_ok_iff {key : Value} {w : Violation} :
    strayKey key = .ok w ↔ ∃ name, key.display = .ok name ∧
      w = ⟨name, "whitelist", .unknownField, "property " ++ name ++ " should not exist"⟩ := by
  simp only [strayKey, bind_pure_eq_ok_iff, eq_comm (a := w)]

theorem Schema.reportsStrays_iff {o : Options} {s : Schema} {r : Entries} {vs : List Violation} :
    s.ReportsStrays o r vs ↔ unknownReport o s r = .ok vs := by
  unfold ReportsStrays unknownReport
  split
  · rw [mapM_eq_ok_iff]
    simp only [strayKey_eq_ok_iff]
  · rw [Except.ok.injEq]
    exact eq_comm

/-- What more rules do not declare, fewer do not either. -/
theorem mem_strays_of_append {name : String} {rules more : List Rule} {r : Entries} {e : Value × Value}
    (h : e ∈ strays ⟨name, rules ++ more⟩ r) : e ∈ strays ⟨name, rules⟩ r := by
  obtain ⟨hm, hd⟩ := List.mem_filter.mp h
  refine List.mem_filter.mpr ⟨hm, ?_⟩
  obtain ⟨k, v⟩ := e
  cases k with
  | text n =>
      rw [Bool.not_eq_true', ← Bool.not_eq_true, Schema.declares_text] at hd ⊢
      intro hn
      refine hd ?_
      rw [Schema.fieldNames, List.map_append]
      exact List.mem_append_left _ hn
  | _ => rfl

theorem Schema.ReportsStrays.append {o : Options} {name : String} {rules : List Rule} {r : Entries}
    {vs : List Violation} (h : Schema.ReportsStrays o ⟨name, rules⟩ r vs) (more : List Rule) :
    ∃ ws, Schema.ReportsStrays o ⟨name, rules ++ more⟩ r ws := by
  unfold ReportsStrays at h ⊢
  by_cases ho : o.forbidUnknown = true
  · rw [if_pos ho] at h
    simp only [if_pos ho]
    refine exists_forall₂ fun e he => ?_
    obtain ⟨w, -, n, hn, hw⟩ := exists_right_of_mem_forall₂ h (mem_strays_of_append he)
    exact ⟨w, n, hn, hw⟩
  · simp only [if_neg ho, exists_eq]

/-! ### All of a record -/

/-- What is wrong with a record: the reports of the rules, then that of what is not declared. -/
def Schema.Reported (o : Options) (s : Schema) (r : Entries) (out : Outcome)
    (reports : List (List Violation)) : Prop :=
  Rule.Reports o s.rules r reports ∧
    ∃ unknown, s.ReportsStrays o r unknown ∧ out.violations = reports.flatten ++ unknown

theorem Schema.exists_reported_of_validate {o : Options} {s : Schema} {r : Entries} {out : Outcome}
    (h : s.validate o (.record r) = .ok out) : ∃ reports, s.Reported o r out reports := by
  obtain ⟨parts, unknown, hp, hu, rfl⟩ := validate_record_eq_ok_iff.mp h
  refine ⟨_, hp.reports, unknown, reportsStrays_iff.mpr hu, ?_⟩
  rw [Outcome.violations_ofViolations, List.flatMap_def]

/-- There is an outcome if every rule has a report and so has what is not declared. -/
theorem Schema.exists_validate_of_reports {o : Options} {s : Schema} {r : Entries}
    {reports : List (List Violation)} {unknown : List Violation} (hr : Rule.Reports o s.rules r reports)
    (hu : s.ReportsStrays o r unknown) :
    ∃ out, s.validate o (.record r) = .ok out ∧ s.Reported o r out reports := by
  obtain ⟨parts, hp, rfl⟩ := hr.exists_judged
  have hv := validate_record_eq_ok_iff.mpr ⟨parts, unknown, hp, reportsStrays_iff.mp hu, rfl⟩
  refine ⟨_, hv, hr, unknown, hu, ?_⟩
  rw [Outcome.violations_ofViolations, List.flatMap_def]

/-- A record is valid if no rule has anything to report of it, and neither have its other
entries. -/
theorem Schema.exists_valid_iff {o : Options} {s : Schema} {r : Entries} :
    (∃ t, s.validate o (.record r) = .ok (.valid t)) ↔
      (∀ rule ∈ s.rules, rule.report o r = .ok []) ∧ unknownReport o s r = .ok [] := by
  simp only [validate_record_eq_valid_iff, Rule.report_eq_ok_iff]
  constructor
  · rintro ⟨t, parts, hp, hn, hu, rfl⟩
    refine ⟨fun rule hrule => ?_, hu⟩
    obtain ⟨part, hpart, hj⟩ := hp.exists_of_mem hrule
    exact ⟨part, hj, hn part hpart⟩
  · rintro ⟨hall, hu⟩
    obtain ⟨parts, hparts⟩ := exists_forall₂ hall
    refine ⟨_, parts, hparts.imp fun _ _ h => h.1, fun part hpart => ?_, hu, rfl⟩
    obtain ⟨rule, -, -, hn⟩ := exists_left_of_mem_forall₂ hparts hpart
    exact hn

/-- Rules that come after others report what they report by themselves. -/
theorem Schema.validate_append {o : Options} {name : String} {rules more : List Rule} {r : Entries}
    {first second : Outcome} (h₁ : Schema.validate o ⟨name, rules⟩ (.record r) = .ok first)
    (h₂ : Schema.validate o ⟨name, more⟩ (.record r) = .ok second) :
    ∃ both reports reports', Schema.validate o ⟨name, rules ++ more⟩ (.record r) = .ok both ∧
      Schema.Reported o ⟨name, rules⟩ r first reports ∧
      Schema.Reported o ⟨name, more⟩ r second reports' ∧
      Schema.Reported o ⟨name, rules ++ more⟩ r both (reports ++ reports') := by
  obtain ⟨reports, hr, unknown, hu, he⟩ := exists_reported_of_validate h₁
  obtain ⟨reports', hr', unknown', hu', he'⟩ := exists_reported_of_validate h₂
  -- the only thing that two outcomes could still leave open is a key that cannot be shown
  obtain ⟨strays, hs⟩ := hu.append more
  have hall : Rule.Reports o (rules ++ more) r (reports ++ reports') := List.rel_append hr hr'
  obtain ⟨both, hboth, hreported⟩ := exists_validate_of_reports (s := ⟨name, rules ++ more⟩) hall hs
  exact ⟨both, reports, reports', hboth, ⟨hr, unknown, hu, he⟩, ⟨hr', unknown', hu', he'⟩, hreported⟩

/-- **Fields by themselves.**  What is wrong with a record under two lists of rules is what is wrong
with it under the first and what is wrong with it under the second; a rule sees nothing of a record
but whether it applies and its own field; and only items make it report more than one violation. -/
theorem Schema.validate_fieldwise (o : Options) :
    (∀ name rules more r first second,
      Schema.validate o ⟨name, rules⟩ (.record r) = .ok first →
      Schema.validate o ⟨name, more⟩ (.record r) = .ok second →
      ∃ both reports reports', Schema.validate o ⟨name, rules ++ more⟩ (.record r) = .ok both ∧
        Schema.Reported o ⟨name, rules⟩ r first reports ∧
        Schema.Reported o ⟨name, more⟩ r second reports' ∧
        Schema.Reported o ⟨name, rules ++ more⟩ r both (reports ++ reports')) ∧
    (∀ rule : Rule, ∀ r t, rule.appliesTo r = rule.appliesTo t →
      r.getD rule.name = t.getD rule.name → rule.report o r = rule.report o t) ∧
    (∀ rule : Rule, ∀ r vs, (∀ s m, Check.items s m ∉ rule.checks) → rule.report o r = .ok vs →
      vs.length ≤ 1) := by
  refine ⟨?_, ?_, ?_⟩
  · intro name rules more r first second h₁ h₂
    exact validate_append h₁ h₂
  · intro rule r t ha hv
    exact Rule.report_congr ha hv
  · intro rule r vs hc h
    exact Rule.length_report_le_one hc h

def nameRule : Rule := Catalogue.required "name" [Catalogue.string, Catalogue.maxLength 5]

def ageRule : Rule := Catalogue.required "age" [Catalogue.integerFrom 0]

/-- A record in which both fields are wrong, and a third one is not declared. -/
def strangePerson : Entries := [(.text "shoe", .int 40), (.text "age", .int (-1)), (.text "name", .int 12)]

theorem Schema.validate_fieldwise_person :
    (∃ both reports reports',
      Schema.validate ⟨true, false⟩ ⟨"Person", [nameRule] ++ [ageRule]⟩ (.record strangePerson) = .ok both ∧
      Schema.Reported ⟨true, false⟩ ⟨"Person", [nameRule]⟩ strangePerson (.invalid [
        ⟨"name", "is_string", .typeMismatch, "must be a string"⟩,
        ⟨"shoe", "whitelist", .unknownField, "property shoe should not exist"⟩,
        ⟨"age", "whitelist", .unknownField, "property age should not exist"⟩]) reports ∧
      Schema.Reported ⟨true, false⟩ ⟨"Person", [ageRule]⟩ strangePerson (.invalid [
        ⟨"age", "min", .rangeViolation, "must not be less than 0"⟩,
        ⟨"shoe", "whitelist", .unknownField, "property shoe should not exist"⟩,
        ⟨"name", "whitelist", .unknownField, "property name should not exist"⟩]) reports' ∧
      Schema.Reported ⟨true, false⟩ ⟨"Person", [nameRule] ++ [ageRule]⟩ strangePerson both
        (reports ++ reports')) ∧
    nameRule.report ⟨true, false⟩ strangePerson = nameRule.report ⟨true, false⟩ [(.text "name", .int 12)] ∧
    [(⟨"name", "is_string", .typeMismatch, "must be a string"⟩ : Violation)].length ≤ 1 := by
  obtain ⟨happend, hcongr, hlength⟩ := Schema.validate_fieldwise ⟨true, false⟩
  refine ⟨happend "Person" [nameRule] [ageRule] strangePerson _ _ rfl rfl, ?_, ?_⟩
  · exact hcongr nameRule strangePerson [(.text "name", .int 12)] rfl rfl
  · refine hlength nameRule strangePerson _ (fun s m => ?_) rfl
    simp [nameRule, Catalogue.required, Catalogue.string, Catalogue.maxLength, Catalogue.plain]

end Intake
