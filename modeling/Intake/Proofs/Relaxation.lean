import Intake.Proofs.Arrangement
import Intake.Proofs.Independence
import Intake.Schema.Algebra

/-!
# Proofs — Relaxation — what it changes that nothing is required

The partial schema of a schema has the same rules for the same fields, with the same checks and
conditions, but requires nothing and fills nothing in.  So a rule does something else in it only
where the rule applies and finds its field missing or null: then it reports nothing, and leaves the
field as it is (`Rule.Judged.asOptional`).

For a whole record this means that its violations under the partial schema are those under the
schema less one for each rule that misses a value (`Rule.misses`), and that the validated record has
the keys of the record and, under each key whose value is not null, the value that the schema has
validated (`Schema.validate_derivePartial`).
-/

namespace Intake

open Validation

/-! ### One rule -/

namespace Rule

variable {o : Options} {d : Entries}

/-- The rule requires a value that the record does not have. -/
def misses (rule : Rule) (d : Entries) : Bool :=
  rule.required && rule.appliesTo d && (d.getD rule.name).isNull

/-- The contribution that is made instead when the field of a rule need not be there. -/
def relaxed (rule : Rule) (d : Entries) (part : Contribution) : Contribution :=
  if rule.appliesTo d && (d.getD rule.name).isNull then
    { name := rule.name, value := d.get? rule.name }
  else part

theorem relaxed_of_missing {rule : Rule} (ha : rule.appliesTo d = true)
    (hv : d.getD rule.name = .null) (part : Contribution) :
    rule.relaxed d part = { name := rule.name, value := d.get? rule.name } := by
  simp [relaxed, ha, hv]

theorem relaxed_of_not_appliesTo {rule : Rule} (ha : rule.appliesTo d = false) (part : Contribution) :
    rule.relaxed d part = part := by
  simp [relaxed, ha]

theorem relaxed_of_present {rule : Rule} (hv : d.getD rule.name ≠ .null) (part : Contribution) :
    rule.relaxed d part = part := by
  have hnull : (d.getD rule.name).isNull = false := by simpa using hv
  simp [relaxed, hnull]

/-- Only a field that is missing or null makes a difference to a rule that requires nothing. -/
theorem Judged.asOptional {rule : Rule} {part : Contribution} (h : rule.Judged o d part) :
    rule.asOptional.Judged o d (rule.relaxed d part) := by
  cases h with
  | skipped ha =>
      rw [relaxed_of_not_appliesTo ha]
      exact @Judged.skipped o rule.asOptional d ha
  | missing ha hv =>
      rw [relaxed_of_missing ha hv]
      have habsent : absent rule.asOptional (d.has rule.name) =
          { name := rule.name, value := d.get? rule.name } :=
        @absent_eq_of_isNull rule.asOptional d rfl rfl hv
      rw [← habsent]
      exact @Judged.missing o rule.asOptional d ha hv
  | passed ha hv hn hc =>
      rw [relaxed_of_present (by rw [Entries.getD, hv]; exact hn)]
      exact @Judged.passed o rule.asOptional d ha _ _ hv hn hc
  | failed ha hv hn hc =>
      rw [relaxed_of_present (by rw [Entries.getD, hv]; exact hn)]
      exact @Judged.failed o rule.asOptional d ha _ _ hv hn hc

/-- What is not reported any more is that the value is missing. -/
theorem Judged.violations_relaxed {rule : Rule} {part : Contribution} (h : rule.Judged o d part) :
    (rule.relaxed d part).violations = if rule.misses d then [] else part.violations := by
  cases h with
  | skipped ha => simp [relaxed_of_not_appliesTo ha]
  | missing ha hv =>
      rw [relaxed_of_missing ha hv]
      cases hr : rule.required with
      | true => simp [misses, hr, ha, hv]
      | false => simp [misses, hr, absent_of_not_required hr]
  | passed ha hv hn | failed ha hv hn =>
      have hnull : d.getD rule.name ≠ .null := by rwa [Entries.getD, hv]
      have hmisses : rule.misses d = false := by simp [misses, hnull]
      rw [relaxed_of_present hnull, hmisses]
      rfl

theorem report_of_misses {rule : Rule} (h : rule.misses d = true) :
    rule.report o d = .ok [missingField rule.name] := by
  simp only [misses, Bool.and_eq_true] at h
  obtain ⟨⟨hr, ha⟩, hv⟩ := h
  rw [report_of_missing ha (Value.isNull_iff.mp hv), hr]
  rfl

theorem AllJudged.asOptional {rules : List Rule} {parts : List Contribution}
    (h : AllJudged o rules d parts) :
    AllJudged o (rules.map Rule.asOptional) d (List.zipWith (·.relaxed d) rules parts) := by
  unfold AllJudged at h ⊢
  rw [List.forall₂_map_left_iff]
  induction h with
  | nil => exact .nil
  | cons hj _ ih => exact .cons hj.asOptional ih

/-- The reports of rules less those of the values that they miss. -/
def reportsLessMissing (d : Entries) (rules : List Rule) (reports : List (List Violation)) :
    List (List Violation) :=
  List.zipWith (fun rule vs => if rule.misses d then [] else vs) rules reports

/-- Nothing is reported in another order, or in place of something else. -/
theorem reportsLessMissing_sublist (d : Entries) (rules : List Rule) (reports : List (List Violation)) :
    (reportsLessMissing d rules reports).flatten.Sublist reports.flatten := by
  induction rules generalizing reports with
  | nil => exact List.nil_sublist _
  | cons rule rules ih =>
      cases reports with
      | nil => exact List.nil_sublist _
      | cons vs reports =>
          refine List.Sublist.append ?_ (ih reports)
          dsimp only
          split
          · exact List.nil_sublist _
          · exact List.Sublist.refl _

theorem AllJudged.violations_relaxed {rules : List Rule} {parts : List Contribution}
    (h : AllJudged o rules d parts) :
    (List.zipWith (·.relaxed d) rules parts).flatMap (·.violations) =
      (reportsLessMissing d rules (parts.map (·.violations))).flatten := by
  unfold AllJudged at h
  induction h with
  | nil => rfl
  | cons hj _ ih =>
      rw [List.zipWith_cons_cons, List.flatMap_cons, hj.violations_relaxed, ih]
      rfl

/-- Only an applicable field that is missing or null can come to something else. -/
theorem Settles.get?_eq {rule : Rule} {p r : Entries} (hp : rule.asOptional.Settles o d p)
    (hr : rule.Settles o d r) {v : Value} (hv : d.get? rule.name = some v) (hn : v ≠ .null) :
    p.get? rule.name = r.get? rule.name := by
  cases ha : rule.appliesTo d with
  | false =>
      rw [hr.skipped ha]
      exact hp.skipped ha
  | true =>
      obtain ⟨w, hw, hl⟩ := hp.checked ha v hv hn
      obtain ⟨w', hw', hl'⟩ := hr.checked ha v hv hn
      rw [hw', ← hl.unique hl']
      exact hw

/-- A field that is null stays so. -/
theorem Settles.get?_eq_null {rule : Rule} {p : Entries} (hp : rule.asOptional.Settles o d p)
    (hv : d.get? rule.name = some .null) : p.get? rule.name = some .null := by
  cases ha : rule.appliesTo d with
  | false => rw [← hv]; exact hp.skipped ha
  | true =>
      rw [← hv]
      exact hp.missing ha (Entries.getD_eq_null_iff.mpr (.inr hv))

end Rule

/-! ### A schema -/

namespace Schema

variable {o : Options} {s : Schema} {name : Option String} {d : Entries}

theorem fieldNames_derivePartial (s : Schema) (name : Option String) :
    (s.derivePartial name).fieldNames = s.fieldNames := by
  simp only [derivePartial, fieldNames, List.map_map]
  rfl

theorem strays_derivePartial (s : Schema) (name : Option String) (r : Entries) :
    strays (s.derivePartial name) r = strays s r := by
  unfold strays declares
  rw [fieldNames_derivePartial]

theorem unknownReport_derivePartial (o : Options) (s : Schema) (name : Option String) (r : Entries) :
    unknownReport o (s.derivePartial name) r = unknownReport o s r := by
  unfold unknownReport
  rw [strays_derivePartial]

/-- There is an outcome under the partial schema wherever there is one under the schema. -/
theorem exists_validate_derivePartial {parts : List Contribution} {unknown : List Violation}
    (hp : Rule.AllJudged o s.rules d parts) (hu : unknownReport o s d = .ok unknown) :
    ∃ out, (s.derivePartial name).validate o (.record d) = .ok out ∧
      out.violations =
        (Rule.reportsLessMissing d s.rules (parts.map (·.violations))).flatten ++ unknown := by
  refine ⟨_, validate_record_eq_ok_iff.mpr ⟨_, unknown, hp.asOptional, ?_, rfl⟩, ?_⟩
  · rw [unknownReport_derivePartial, hu]
  · rw [Outcome.violations_ofViolations, hp.violations_relaxed]

/-- A validated record of a partial schema has the keys of the record, whatever the order. -/
theorem keys_validated_derivePartial (hs : s.fieldNames.Nodup) (hd : d.DistinctKeys) {p : Entries}
    (h : (s.derivePartial name).validate o (.record d) = .ok (.valid p)) : p.keys.Perm d.keys := by
  obtain ⟨front, rfl, hfront⟩ := keys_validated h
  have hkeys : front.keys = (s.declaredEntries d).keys := by
    rw [hfront, keys_declaredEntries]
    simp only [derivePartial, fieldNames, List.filter_map, List.map_map]
    congr 1
    refine List.filter_congr fun rule _ => ?_
    simp [Rule.leavesEntry, Rule.fillsIn, Rule.asOptional]
  rw [Entries.keys_append, hkeys, ← Entries.keys_append, strays_derivePartial]
  exact (perm_declaredEntries_append_strays hs hd).map Prod.fst

theorem asOptional_mem_derivePartial {rule : Rule} (hrule : rule ∈ s.rules) :
    rule.asOptional ∈ (s.derivePartial name).rules :=
  List.mem_map_of_mem hrule

/-- What the partial schema makes of a valid record. -/
theorem validated_derivePartial (hs : s.fieldNames.Nodup) (hd : d.DistinctKeys) {r p : Entries}
    (h : s.validate o (.record d) = .ok (.valid r))
    (hp : (s.derivePartial name).validate o (.record d) = .ok (.valid p)) {k v : Value} (hm : (k, v) ∈ d) :
    (v = .null → (k, .null) ∈ p) ∧ (v ≠ .null → ∀ w, (k, w) ∈ p ↔ (k, w) ∈ r) := by
  have hs' : (s.derivePartial name).fieldNames.Nodup := by rwa [fieldNames_derivePartial]
  cases hk : s.declares k with
  | false =>
      have hk' : (s.derivePartial name).declares k = false := by
        rw [← hk]
        unfold declares
        rw [fieldNames_derivePartial]
      refine ⟨fun hv => (mem_validated_iff hp hk').mpr (hv ▸ hm), fun _ w => ?_⟩
      rw [mem_validated_iff hp hk', mem_validated_iff h hk]
  | true =>
      obtain ⟨field, hfield, rfl⟩ := exists_name_of_declares hk
      obtain ⟨rule, hrule, rfl⟩ := List.mem_map.mp hfield
      have hget := Entries.get?_of_mem hd hm
      have hsettled := settles_of_mem hs' hp (asOptional_mem_derivePartial hrule)
      refine ⟨fun hv => Entries.mem_of_get? (hsettled.get?_eq_null (hv ▸ hget)), fun hv w => ?_⟩
      rw [← Entries.get?_eq_some_iff (distinctKeys_validated hs' hd hp),
        ← Entries.get?_eq_some_iff (distinctKeys_validated hs hd h),
        hsettled.get?_eq (settles_of_mem hs h hrule) hget hv]

/-- How an outcome under the partial schema is related to the one under the schema. -/
structure Relaxation (o : Options) (s : Schema) (d : Entries) (out out' : Outcome) : Prop where
  /-- The violations are the same and in the same order, without what rules report that miss a
  value. -/
  violations : ∃ reports unknown, Rule.Reports o s.rules d reports ∧ s.ReportsStrays o d unknown ∧
    out.violations = reports.flatten ++ unknown ∧
    out'.violations = (Rule.reportsLessMissing d s.rules reports).flatten ++ unknown
  /-- A rule that misses a value reports that it does, and nothing else. -/
  missing : ∀ rule ∈ s.rules, rule.misses d = true → rule.report o d = .ok [missingField rule.name]
  /-- What is valid is valid with the same keys, null as null and the rest as it has been
  validated. -/
  validated : ∀ r, out = .valid r → ∃ p, out' = .valid p ∧ p.keys.Perm d.keys ∧
    ∀ k v, (k, v) ∈ d → (v = .null → (k, .null) ∈ p) ∧ (v ≠ .null → ∀ w, (k, w) ∈ p ↔ (k, w) ∈ r)

/-- **Nothing required.**  Wherever a schema gives an outcome, so does its partial schema, and it
reports the same except that values are missing. -/
theorem validate_derivePartial (hs : s.fieldNames.Nodup) (hd : d.DistinctKeys) {out : Outcome}
    (h : s.validate o (.record d) = .ok out) (name : Option String) :
    ∃ out', (s.derivePartial name).validate o (.record d) = .ok out' ∧ s.Relaxation o d out out' := by
  obtain ⟨parts, unknown, hp, hu, hout⟩ := validate_record_eq_ok_iff.mp h
  have hviolations : out.violations = (parts.map (·.violations)).flatten ++ unknown := by
    rw [hout, Outcome.violations_ofViolations, List.flatMap_def]
  obtain ⟨out', h', hless⟩ := exists_validate_derivePartial hp hu
  refine ⟨out', h', ⟨_, unknown, hp.reports, reportsStrays_iff.mpr hu, hviolations, hless⟩, ?_, ?_⟩
  · intro rule _ hmisses
    exact Rule.report_of_misses hmisses
  · rintro r rfl
    obtain ⟨hreports, hunknown⟩ := List.append_eq_nil_iff.mp hviolations.symm
    have hnil : out'.violations = [] := by
      have hsub := Rule.reportsLessMissing_sublist d s.rules (parts.map (·.violations))
      rw [hreports, List.sublist_nil] at hsub
      rw [hless, hsub, hunknown]
      rfl
    cases out' with
    | invalid vs => exact absurd hnil (violations_ne_nil h')
    | valid p =>
        refine ⟨p, rfl, keys_validated_derivePartial hs hd h', fun k v hm => ?_⟩
        exact validated_derivePartial hs hd h h' hm

end Schema

/-- A gift comes with a card, and of every article at least one is ordered. -/
def order : Schema := ⟨"Order", [
  Catalogue.required "customer" [Catalogue.string],
  Catalogue.defaulting "priority" [Catalogue.integerFrom 1] (.int 1),
  Catalogue.onlyIf (.truthy "gift") (Catalogue.required "card" [Catalogue.string]),
  Catalogue.required "lines" [Catalogue.plain (.array (some 1)),
    .items (some ⟨"Line", [
      Catalogue.required "article" [Catalogue.string],
      Catalogue.defaulting "count" [Catalogue.integerFrom 1] (.int 1)]⟩) none]]⟩

/-- An order without a customer, of a gift without a card, with a line that names no article. -/
def brokenOrder : Entries := [
  (.text "gift", .bool true),
  (.text "lines", .list [.record [(.text "count", .int 0)], .int 3]),
  (.text "priority", .null)]

def plainOrder : Entries := [
  (.int 7, .null),
  (.text "lines", .list [.record [(.text "article", .text "lamp")]]),
  (.text "priority", .null),
  (.text "customer", .text "Ana")]

theorem Schema.validate_derivePartial_order :
    (∃ out, (order.derivePartial none).validate ⟨true, false⟩ (.record brokenOrder) = .ok out ∧
      order.Relaxation ⟨true, false⟩ brokenOrder (.invalid [
        missingField "customer",
        missingField "card",
        missingField "lines[0].article",
        ⟨"lines[0].count", "min", .rangeViolation, "must not be less than 1"⟩,
        ⟨"lines[1]", "validate_nested", .typeMismatch, "nested item must be an object"⟩,
        ⟨"gift", "whitelist", .unknownField, "property gift should not exist"⟩]) out) ∧
    (∃ out, (order.derivePartial (some "OrderChange")).validate {} (.record plainOrder) = .ok out ∧
      order.Relaxation {} plainOrder (.valid [
        (.text "customer", .text "Ana"),
        (.text "priority", .int 1),
        (.text "lines", .list [.record [(.text "article", .text "lamp"), (.text "count", .int 1)]]),
        (.int 7, .null)]) out) := by
  refine ⟨?_, ?_⟩
  · exact Schema.validate_derivePartial (by decide) (by decide) (by rfl) none
  · exact Schema.validate_derivePartial (by decide) (by decide) (by rfl) (some "OrderChange")

end Intake
