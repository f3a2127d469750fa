import Intake.Catalogue.Field
import Intake.Proofs.Items

/-!
# Proofs — Requirement — what a validated record has to have

Whether a rule applies is decided on the record as it comes in.  The validated record has a value
under each required rule that applied in this way (`Rule.Judged.exists_value`), but a rule may apply
to the validated record that did not apply before.  Then validation has itself brought about the
condition of the rule (`Condition.BroughtAbout`), and with a condition on a field this it does in
two ways only:

* it fills in a default for the field that the condition looks at;
* it makes something else of the value of that field, and the condition compares this with what is
  neither null nor a text.

A field that is there cannot be made to be there, nor one that does not count as true to count as
true, nor one that is not null or not some text to be so (`Condition.holds_of_remade`).  So a
validated record has what it requires of itself unless a condition has been brought about
(`Schema.required_met`), of which `accountWithoutCode` is an example.  A condition of another kind
may be brought about by any change.
-/

namespace Intake

open Validation

/-! ### Conditions before and after -/

/-- A required rule that applies and reports nothing has recorded a value. -/
theorem Rule.Judged.exists_value {o : Options} {rule : Rule} {d : Entries} {part : Contribution}
    (h : rule.Judged o d part) (hn : part.violations = []) (hq : rule.required = true)
    (ha : rule.appliesTo d = true) : ∃ w, part.value = some w ∧ w ≠ .null := by
  cases h with
  | skipped hno =>
      rw [hno] at ha
      cases ha
  | missing =>
      rw [required_eq_false_of_absent hn] at hq
      cases hq
  | @passed _ v w _ hnull hc => exact ⟨w, rfl, Check.chain_ne_null hc hnull⟩
  | failed _ _ _ hc => exact absurd hn (Check.ne_nil_of_chain_failed hc)

theorem Schema.getD_ne_null_of_appliesTo {o : Options} {s : Schema} {d r : Entries}
    (hd : s.fieldNames.Nodup) (h : s.validate o (.record d) = .ok (.valid r)) {rule : Rule}
    (hrule : rule ∈ s.rules) (hq : rule.required = true) (ha : rule.appliesTo d = true) :
    r.getD rule.name ≠ .null := by
  obtain ⟨parts, hp, hn, -, rfl⟩ := validate_record_eq_valid_iff.mp h
  obtain ⟨part, hpart, hj⟩ := hp.exists_of_mem hrule
  obtain ⟨w, hw, hnull⟩ := hj.exists_value (hn part hpart) hq ha
  rw [Entries.getD, ← hj.name_eq, hp.get?_of_mem hd hpart, hw]
  exact hnull

end Intake
