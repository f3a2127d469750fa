import Intake.Proofs.Independence
import Intake.Proofs.Items
import Intake.Proofs.Nesting

/-!
# Proofs — Leniency — options that refuse less

Options are *eased* if they forbid no more than before and convert no less (`Options.EasedTo`).
Whatever is valid stays valid when the options are eased, and as the same validated record
(`Schema.staysValid`); a rule that reports nothing goes on reporting nothing (`Rule.Judged.eased`).

A test that accepts a value with no conversion has nothing to convert in it, since the tests that
convert texts accept none (`Test.convert_of_accepts_coerce`).  So a value passes a test under eased
options as before.  A check of items, which validates each item twice, passes a list only if each
item is valid the first time already (`Validation.valid_of_replaced`), so that induction on nesting
applies to both times.

Two ways of easing the options are of interest by themselves.  Conversion only helps
(`Schema.validate_converting`), and to forbid what is not declared only restricts
(`Schema.validate_forbidding`), which without checks of items adds the report of what is not
declared and nothing else.
-/

namespace Intake

open Validation

/-- Options that forbid no more than others and convert no less. -/
structure Options.EasedTo (o e : Options) : Prop where
  forbids  : e.forbidUnknown = true → o.forbidUnknown = true
  converts : o.implicitConversion = true → e.implicitConversion = true

theorem Options.easedTo_converting (forbid : Bool) : EasedTo ⟨forbid, false⟩ ⟨forbid, true⟩ where
  forbids h  := h
  converts h := by cases h

theorem Options.easedTo_allowing (convert : Bool) : EasedTo ⟨true, convert⟩ ⟨false, convert⟩ where
  forbids _  := rfl
  converts h := h

/-- What is valid under some options is valid under others, as the same validated record. -/
def Schema.StaysValid (o e : Options) (s : Schema) : Prop :=
  ∀ r t, s.validate o (.record r) = .ok (.valid t) → s.validate e (.record r) = .ok (.valid t)

variable {o e : Options}

/-! ### A check -/

/-- A test that accepts what it reads by itself leaves nothing to convert. -/
theorem Test.convert_of_accepts_coerce {t : Test} {v : Value} (h : t.accepts (t.coerce v) = true) :
    t.convert v = .ok v := by
  cases hl : t.leaves v with
  | true => exact convert_of_leaves hl
  | false =>
      -- a text that is left to convert is still a text, which none of these tests accepts
      obtain ⟨hr, s, rfl⟩ := exists_text_of_not_leaves hl
      cases t with
      | integer | number | boolean => cases h
      | date => rfl
      | _ => cases hr

namespace Check

theorem passes_test_iff {field : String} {t : Test} {m : Option String} {v w : Value} :
    (Check.test t m).Passes o field v w ↔
      ∃ u, (Check.test t m).prepare o v = .ok u ∧ t.coerce u = w ∧ t.accepts w = true := by
  simp only [Passes, coerce_test, Except.ok.injEq, violations_test_eq_nil_iff]

theorem Passes.eased_test (he : o.EasedTo e) {field : String} {t : Test} {m : Option String}
    {v w : Value} (h : (Check.test t m).Passes o field v w) : (Check.test t m).Passes e field v w := by
  obtain ⟨u, hu, hw, ha⟩ := passes_test_iff.mp h
  refine passes_test_iff.mpr ⟨u, ?_, hw, ha⟩
  cases ho : o.implicitConversion with
  | true =>
      have hc := he.converts ho
      rw [prepare, if_pos ho] at hu
      rwa [prepare, if_pos hc]
  | false =>
      -- only the eased options may convert, and there is nothing for them to do
      rw [prepare, if_neg (by simp [ho])] at hu
      cases hu
      have hc : t.convert v = .ok v := Test.convert_of_accepts_coerce (hw ▸ ha)
      unfold prepare
      split
      · exact hc
      · rfl

end Check

namespace Validation

/-- Items that are all valid have the same outcomes under eased options. -/
theorem ItemsJudged.eased {s : Schema} (hs : s.StaysValid o e) {items : List Value}
    {outs : List (Option Outcome)} (h : ItemsJudged (s.validate o) items outs)
    (hv : ∀ out ∈ outs, ∃ r, out = some (.valid r)) : ItemsJudged (s.validate e) items outs := by
  unfold ItemsJudged at h ⊢
  induction h with
  | nil => exact .nil
  | @cons item out _ _ ho _ ih =>
      obtain ⟨⟨t, rfl⟩, hrest⟩ := List.forall_mem_cons.mp hv
      obtain ⟨r, rfl, ht⟩ := itemOutcome_eq_valid_iff.mp ho
      exact .cons (itemOutcome_eq_valid_iff.mpr ⟨r, rfl, hs _ _ ht⟩) (ih hrest)

end Validation

namespace Check

theorem Passes.eased_items {s : Schema} (hs : s.StaysValid o e) {field : String} {m : Option String}
    {v w : Value} (h : (Check.items (some s) m).Passes o field v w) :
    (Check.items (some s) m).Passes e field v w := by
  cases hv : v.items? with
  | none =>
      -- what is no list is its own only item
      obtain rfl := passes_items_of_no_list hv h
      obtain ⟨-, -, -, hn⟩ := h
      obtain ⟨outs, ho, hvalid⟩ := violations_items_eq_nil_iff.mp hn
      exact ⟨w, prepare_items .., coerce_items_of_no_list hv,
        violations_items_eq_nil_iff.mpr ⟨outs, ho.eased hs hvalid, hvalid⟩⟩
  | some items =>
      obtain ⟨firsts, seconds, h₁, rfl, h₂, hvalid⟩ := (passes_items_iff hv).mp h
      have hfirsts := valid_of_replaced h₁ h₂ hvalid
      exact (passes_items_iff hv).mpr
        ⟨firsts, seconds, h₁.eased hs hfirsts, rfl, h₂.eased hs hvalid, hvalid⟩

/-- What a check makes of a value that it lets pass, it makes of it under eased options. -/
theorem Passes.eased (he : o.EasedTo e) {field : String} {c : Check}
    (hs : ∀ t, c.nested? = some t → t.StaysValid o e) {v w : Value} (h : c.Passes o field v w) :
    c.Passes e field v w := by
  rcases c with ⟨t, m⟩ | ⟨_ | s, m⟩
  · exact h.eased_test he
  · obtain rfl := h.eq_of_items_none
    exact passes_items_none ..
  · exact h.eased_items (hs s rfl)

theorem chain_eased (he : o.EasedTo e) {field : String} {checks : List Check}
    (hs : ∀ c ∈ checks, ∀ t, c.nested? = some t → t.StaysValid o e) {v w : Value}
    (h : Check.chain o field checks v = .ok (.passed w)) :
    Check.chain e field checks v = .ok (.passed w) := by
  induction checks generalizing v with
  | nil =>
      rw [chain_nil] at h ⊢
      exact h
  | cons c checks ih =>
      obtain ⟨hc, hchecks⟩ := List.forall_mem_cons.mp hs
      obtain ⟨u, hu, h⟩ := chain_cons_passed_iff.mp h
      exact chain_cons_passed_iff.mpr ⟨u, hu.eased he hc, ih hchecks h⟩

end Check

/-! ### A rule and a schema -/

/-- A rule that reports nothing makes the same contribution under eased options. -/
theorem Rule.Judged.eased (he : o.EasedTo e) {rule : Rule}
    (hs : ∀ c ∈ rule.checks, ∀ t, c.nested? = some t → t.StaysValid o e) {r : Entries}
    {part : Contribution} (h : rule.Judged o r part) (hn : part.violations = []) :
    rule.Judged e r part := by
  cases h with
  | skipped ha => exact .skipped ha
  | missing ha hv => exact .missing ha hv
  | passed ha hv hnull hc => exact .passed ha hv hnull (Check.chain_eased he hs hc)
  | failed _ _ _ hc => exact absurd hn (Check.ne_nil_of_chain_failed hc)

theorem Validation.unknownReport_eased (he : o.EasedTo e) {s : Schema} {r : Entries}
    (h : unknownReport o s r = .ok []) : unknownReport e s r = .ok [] := by
  unfold unknownReport at h ⊢
  split
  · rename_i hf
    rwa [if_pos (he.forbids hf)] at h
  · rfl

theorem Schema.staysValid_of_nested (he : o.EasedTo e) {s : Schema}
    (hs : ∀ t ∈ s.nested, t.StaysValid o e) : s.StaysValid o e := by
  intro r t h
  obtain ⟨parts, hp, hn, hu, rfl⟩ := validate_record_eq_valid_iff.mp h
  refine validate_record_eq_valid_iff.mpr ⟨parts, ?_, hn, unknownReport_eased he hu, rfl⟩
  exact hp.imp fun _ hr part hpart hj => hj.eased he (forall_nested_of_rule hs hr) (hn part hpart)

/-- What is valid stays valid when the options are eased. -/
theorem Schema.staysValid (he : o.EasedTo e) (s : Schema) : s.StaysValid o e := by
  induction s using Schema.nesting_induction with
  | step s ih => exact staysValid_of_nested he ih

/-- A rule that reports nothing reports nothing under eased options. -/
theorem Rule.report_eased (he : o.EasedTo e) {rule : Rule} {r : Entries}
    (h : rule.report o r = .ok []) : rule.report e r = .ok [] := by
  obtain ⟨part, hj, hn⟩ := report_eq_ok_iff.mp h
  exact report_eq_ok_iff.mpr ⟨part, hj.eased he (fun _ _ t _ => t.staysValid he) hn, hn⟩

theorem Rule.Reports.eased (he : o.EasedTo e) {rules : List Rule} {r : Entries}
    {reports reports' : List (List Violation)} (h : Rule.Reports o rules r reports)
    (h' : Rule.Reports e rules r reports') :
    List.Forall₂ (fun vs vs' => vs = [] → vs' = []) reports reports' := by
  unfold Rule.Reports at h h'
  induction h generalizing reports' with
  | nil =>
      cases h'
      exact .nil
  | cons hvs _ ih =>
      obtain ⟨vs', rest, hvs', hrest, rfl⟩ := List.forall₂_cons_left_iff.mp h'
      refine .cons (fun hnil => ?_) (ih hrest)
      rw [hnil] at hvs
      rw [report_eased he hvs] at hvs'
      exact (Except.ok.inj hvs').symm

/-- **Conversion only helps.**  What is valid without conversion is valid with it, as the same
validated record, and a rule that has nothing to report without conversion has nothing to report
with it. -/
theorem Schema.validate_converting (s : Schema) (forbid : Bool) (d : Entries) :
    (∀ r, s.validate ⟨forbid, false⟩ (.record d) = .ok (.valid r) →
      s.validate ⟨forbid, true⟩ (.record d) = .ok (.valid r)) ∧
    (∀ plain converted, s.validate ⟨forbid, false⟩ (.record d) = .ok plain →
      s.validate ⟨forbid, true⟩ (.record d) = .ok converted →
      ∃ reports reports', s.Reported ⟨forbid, false⟩ d plain reports ∧
        s.Reported ⟨forbid, true⟩ d converted reports' ∧
        List.Forall₂ (fun vs vs' => vs = [] → vs' = []) reports reports') := by
  have he : Options.EasedTo ⟨forbid, false⟩ ⟨forbid, true⟩ := Options.easedTo_converting forbid
  refine ⟨fun r h => s.staysValid he d r h, fun plain converted h₁ h₂ => ?_⟩
  obtain ⟨reports, hr⟩ := exists_reported_of_validate h₁
  obtain ⟨reports', hr'⟩ := exists_reported_of_validate h₂
  exact ⟨reports, reports', hr, hr', hr.1.eased he hr'.1⟩

def visit : Schema := ⟨"Visit", [
  Catalogue.required "on" [Catalogue.date],
  Catalogue.defaulting "guests" [Catalogue.integerFrom 1] (.int 1)]⟩

def tour : Schema := ⟨"Tour", [
  Catalogue.required "open" [Catalogue.boolean],
  Catalogue.optional "page" [Catalogue.integerFrom 1],
  Catalogue.optional "visits" [Catalogue.plain (.array none), .items (some visit) none]]⟩

/-- A tour with one visit, to which a date is left to read and a number of guests to fill in. -/
def plainTour : Entries := [
  (.text "open", .bool true),
  (.text "visits", .list [.record [(.text "on", .text "2024-03-01")]])]

/-- A tour in which numbers are written out, one of them out of bounds. -/
def writtenTour : Entries := [
  (.text "visits", .list [.record [(.text "on", .text "2024-03-01"), (.text "guests", .text "2")]]),
  (.text "page", .text "0"),
  (.text "open", .bool true)]

theorem Schema.validate_converting_tour :
    tour.validate ⟨true, true⟩ (.record plainTour) = .ok (.valid [
      (.text "open", .bool true),
      (.text "visits", .list [.record [
        (.text "on", .moment ⟨⟨2024, 3, 1, by decide⟩, .midnight, none⟩), (.text "guests", .int 1)]])]) ∧
    ∃ reports reports',
      tour.Reported ⟨true, false⟩ writtenTour (.invalid [
        ⟨"page", "is_int", .typeMismatch, "must be an integer number"⟩,
        ⟨"visits[0].guests", "is_int", .typeMismatch, "must be an integer number"⟩]) reports ∧
      tour.Reported ⟨true, true⟩ writtenTour (.invalid [
        ⟨"page", "min", .rangeViolation, "must not be less than 1"⟩]) reports' ∧
      List.Forall₂ (fun vs vs' => vs = [] → vs' = []) reports reports' := by
  refine ⟨?_, ?_⟩
  · exact (Schema.validate_converting tour true plainTour).1 _ rfl
  · exact (Schema.validate_converting tour true writtenTour).2 _ _ rfl rfl

/-! ### What is not declared -/

/-- A chain of tests sees nothing of the options but whether it is to convert. -/
theorem Check.chain_congr_of_tests (hc : o.implicitConversion = e.implicitConversion) {field : String}
    {checks : List Check} (ht : ∀ s m, Check.items s m ∉ checks) (v : Value) :
    Check.chain o field checks v = Check.chain e field checks v := by
  induction checks generalizing v with
  | nil => rw [chain_nil, chain_nil]
  | cons c checks ih =>
      cases c with
      | items s m => exact absurd (List.mem_cons_self ..) (ht s m)
      | test t m =>
          have hrest := ih fun s m hm => ht s m (List.mem_cons_of_mem _ hm)
          simp only [chain_cons, prepare, hc, coerce_test, violations_test, hrest]

theorem Rule.judge_congr_of_tests (hc : o.implicitConversion = e.implicitConversion) {rule : Rule}
    (ht : ∀ s m, Check.items s m ∉ rule.checks) (r : Entries) :
    Rule.judge o rule r = Rule.judge e rule r := by
  cases ha : rule.appliesTo r with
  | false => rw [judge_of_not_appliesTo ha, judge_of_not_appliesTo ha]
  | true =>
      by_cases hv : r.getD rule.name = .null
      · rw [judge_of_missing ha hv, judge_of_missing ha hv]
      · obtain ⟨v, hg, -, hn⟩ := Entries.exists_of_getD_ne_null hv
        rw [judge_of_present ha hg hn, judge_of_present ha hg hn, Check.chain_congr_of_tests hc ht]

theorem Rule.AllJudged.eq_of_tests (hc : o.implicitConversion = e.implicitConversion) {rules : List Rule}
    (ht : ∀ rule ∈ rules, ∀ s m, Check.items s m ∉ rule.checks) {r : Entries}
    {parts parts' : List Contribution} (h : Rule.AllJudged o rules r parts)
    (h' : Rule.AllJudged e rules r parts') : parts = parts' := by
  unfold Rule.AllJudged at h h'
  induction h generalizing parts' with
  | nil =>
      cases h'
      rfl
  | cons hj _ ih =>
      obtain ⟨hrule, hrules⟩ := List.forall_mem_cons.mp ht
      obtain ⟨part', rest, hj', hrest, rfl⟩ := List.forall₂_cons_left_iff.mp h'
      rw [← judge_eq_ok_iff, judge_congr_of_tests hc hrule, judge_eq_ok_iff.mpr hj'] at hj
      rw [Except.ok.inj hj, ih hrules hrest]

/-- **To forbid what is not declared only restricts.**  What is valid where it is forbidden is valid
where it is not, as the same validated record; and as long as no check looks at items, forbidding it
adds one violation for each entry that is not declared, in the order of the record and after all
others. -/
theorem Schema.validate_forbidding (s : Schema) (convert : Bool) (d : Entries) :
    (∀ r, s.validate ⟨true, convert⟩ (.record d) = .ok (.valid r) →
      s.validate ⟨false, convert⟩ (.record d) = .ok (.valid r)) ∧
    (∀ forbidding allowing, (∀ rule ∈ s.rules, ∀ t m, Check.items t m ∉ rule.checks) →
      s.validate ⟨true, convert⟩ (.record d) = .ok forbidding →
      s.validate ⟨false, convert⟩ (.record d) = .ok allowing →
      ∃ unknown, s.ReportsStrays ⟨true, convert⟩ d unknown ∧
        forbidding.violations = allowing.violations ++ unknown) := by
  have he : Options.EasedTo ⟨true, convert⟩ ⟨false, convert⟩ := Options.easedTo_allowing convert
  refine ⟨fun r h => s.staysValid he d r h, fun forbidding allowing ht h₁ h₂ => ?_⟩
  obtain ⟨parts, unknown, hp, hu, rfl⟩ := validate_record_eq_ok_iff.mp h₁
  obtain ⟨parts', none, hp', hn, rfl⟩ := validate_record_eq_ok_iff.mp h₂
  have hc : Options.implicitConversion ⟨true, convert⟩ = Options.implicitConversion ⟨false, convert⟩ := rfl
  obtain rfl : parts = parts' := hp.eq_of_tests hc ht hp'
  obtain rfl : none = [] := (Except.ok.inj hn).symm
  refine ⟨unknown, reportsStrays_iff.mpr hu, ?_⟩
  rw [Outcome.violations_ofViolations, Outcome.violations_ofViolations, List.append_nil]

/-- A visit with a field of no name, and one that is not declared. -/
def strangeVisit : Entries := [
  (.int 7, .null), (.text "guests", .int 0), (.text "with", .text "Ana"), (.text "on", .text "2024-03-01")]

theorem Schema.validate_forbidding_visit :
    tour.validate ⟨false, false⟩ (.record plainTour) = .ok (.valid [
      (.text "open", .bool true),
      (.text "visits", .list [.record [
        (.text "on", .moment ⟨⟨2024, 3, 1, by decide⟩, .midnight, none⟩), (.text "guests", .int 1)]])]) ∧
    ∃ unknown, visit.ReportsStrays ⟨true, false⟩ strangeVisit unknown ∧
      Outcome.violations (.invalid [
        ⟨"guests", "min", .rangeViolation, "must not be less than 1"⟩,
        ⟨"7", "whitelist", .unknownField, "property 7 should not exist"⟩,
        ⟨"with", "whitelist", .unknownField, "property with should not exist"⟩]) =
      Outcome.violations (.invalid [
        ⟨"guests", "min", .rangeViolation, "must not be less than 1"⟩]) ++ unknown := by
  refine ⟨?_, ?_⟩
  · exact (Schema.validate_forbidding tour false plainTour).1 _ rfl
  · refine (Schema.validate_forbidding visit false strangeVisit).2 _ _ ?_ rfl rfl
    simp [visit, Catalogue.required, Catalogue.defaulting, Catalogue.date, Catalogue.integerFrom,
      Catalogue.plain]

end Intake
