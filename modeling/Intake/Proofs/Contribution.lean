import Intake.Proofs.Computation
import Intake.Proofs.Lookup

/-!
# Proofs — Contribution — what an outcome is made of

* `Rule.judge_eq_ok_iff`: a rule is passed over, finds its field missing, lets a value through its
  checks, or reports what they find; nothing else is possible, and each case says which part of the
  record it reads.
* `Schema.validate_record_eq_ok_iff`: the outcome for a record is put together from the
  contributions of the rules and the report of the entries that are not declared, and there is an
  outcome exactly when all of these have one.

Everything else about validation is derived from these two.
-/

namespace Intake

namespace Outcome

/-- The violations of an outcome, of which a valid one has none. -/
def violations : Outcome → List Violation
  | .valid _    => []
  | .invalid vs => vs

def record? : Outcome → Option Entries
  | .valid r   => some r
  | .invalid _ => none

/-- The record if nothing is wrong with it, otherwise what is. -/
def ofViolations (vs : List Violation) (r : Entries) : Outcome :=
  if vs.isEmpty then .valid r else .invalid vs

@[simp] theorem violations_ofViolations (vs : List Violation) (r : Entries) :
    (ofViolations vs r).violations = vs := by
  unfold ofViolations
  split
  · rename_i h
    exact (List.isEmpty_iff.mp h).symm
  · rfl

@[simp] theorem ofViolations_eq_valid_iff {vs : List Violation} {r t : Entries} :
    ofViolations vs r = .valid t ↔ vs = [] ∧ r = t := by
  cases vs <;> simp [ofViolations]

theorem ofViolations_eq_invalid_iff {vs ws : List Violation} {r : Entries} :
    ofViolations vs r = .invalid ws ↔ vs ≠ [] ∧ vs = ws := by
  cases vs <;> simp [ofViolations]

end Outcome

namespace Validation

/-- The violations of the entries that a schema does not declare, where they are forbidden. -/
def unknownReport (o : Options) (s : Schema) (r : Entries) : Except Fault (List Violation) :=
  if o.forbidUnknown then (strays s r).mapM fun e => strayKey e.1 else .ok []

/-- The entries that a validated record keeps without any rule. -/
def kept (o : Options) (s : Schema) (r : Entries) : Entries :=
  if o.forbidUnknown then [] else strays s r

theorem conclude_eq (o : Options) (s : Schema) (r : Entries) (parts : List Contribution) :
    conclude o s r parts = unknownReport o s r >>= fun unknown =>
      pure (.ofViolations (parts.flatMap (·.violations) ++ unknown) (recorded parts ++ kept o s r)) := by
  have hpure : ∀ vs : List Violation, ∀ t : Entries,
      (if vs.isEmpty then pure (.valid t) else pure (.invalid vs) : Except Fault Outcome) =
        pure (.ofViolations vs t) := fun vs t => by
    unfold Outcome.ofViolations
    split <;> rfl
  unfold conclude unknownReport kept
  cases o.forbidUnknown with
  | false => exact hpure _ _
  | true => exact congrArg (_ >>= ·) (funext fun unknown => hpure _ _)

/-- Where nothing is reported that is not declared, what is kept is all that is not declared. -/
theorem kept_eq_strays {o : Options} {s : Schema} {r : Entries} (h : unknownReport o s r = .ok []) :
    kept o s r = strays s r := by
  unfold unknownReport at h
  unfold kept
  split at h
  · rename_i ho
    rw [if_pos ho]
    exact (List.forall₂_nil_right_iff.mp (mapM_eq_ok_iff.mp h)).symm
  · rename_i ho
    rw [if_neg ho]

theorem unknownReport_eq_nil {s : Schema} {r : Entries} (h : strays s r = []) (o : Options) :
    unknownReport o s r = .ok [] := by
  unfold unknownReport
  rw [h]
  split <;> rfl

end Validation

open Validation

/-! ### One rule -/

/-- What a rule makes of a record, case by case. -/
inductive Rule.Judged (o : Options) (rule : Rule) (r : Entries) : Contribution → Prop where
  /-- The rule does not apply: the field is recorded as it is. -/
  | skipped (ha : rule.appliesTo r = false) :
      Judged o rule r { name := rule.name, value := r.get? rule.name }
  | missing (ha : rule.appliesTo r = true) (hv : r.getD rule.name = .null) :
      Judged o rule r (absent rule (r.has rule.name))
  | passed (ha : rule.appliesTo r = true) {v w : Value} (hv : r.get? rule.name = some v)
      (hn : v ≠ .null) (hc : Check.chain o rule.name rule.checks v = .ok (.passed w)) :
      Judged o rule r { name := rule.name, value := some w }
  | failed (ha : rule.appliesTo r = true) {v : Value} {vs : List Violation}
      (hv : r.get? rule.name = some v) (hn : v ≠ .null)
      (hc : Check.chain o rule.name rule.checks v = .ok (.failed vs)) :
      Judged o rule r { name := rule.name, violations := vs }

theorem Rule.judge_of_not_appliesTo {o : Options} {rule : Rule} {r : Entries}
    (ha : rule.appliesTo r = false) :
    Rule.judge o rule r = .ok { name := rule.name, value := r.get? rule.name } := by
  rw [judge_eq, ha]
  rfl

theorem Rule.judge_of_missing {o : Options} {rule : Rule} {r : Entries}
    (ha : rule.appliesTo r = true) (hv : r.getD rule.name = .null) :
    Rule.judge o rule r = .ok (absent rule (r.has rule.name)) := by
  rcases Entries.getD_eq_null_iff.mp hv with hv | hv <;> simp [judge_eq, ha, hv, Entries.has]

theorem Rule.judge_of_present {o : Options} {rule : Rule} {r : Entries} {v : Value}
    (ha : rule.appliesTo r = true) (hv : r.get? rule.name = some v) (hn : v ≠ .null) :
    Rule.judge o rule r =
      Check.chain o rule.name rule.checks v >>= fun c => pure (ofVerdict rule.name c) := by
  simp only [judge_eq, ha, if_pos, hv]

theorem Rule.judge_eq_ok_iff {o : Options} {rule : Rule} {r : Entries} {part : Contribution} :
    Rule.judge o rule r = .ok part ↔ rule.Judged o r part := by
  constructor
  · intro h
    cases ha : rule.appliesTo r with
    | false =>
        rw [judge_of_not_appliesTo ha] at h
        cases h
        exact .skipped ha
    | true =>
        by_cases hv : r.getD rule.name = .null
        · rw [judge_of_missing ha hv] at h
          cases h
          exact .missing ha hv
        · obtain ⟨v, hg, -, hn⟩ := Entries.exists_of_getD_ne_null hv
          rw [judge_of_present ha hg hn, bind_pure_eq_ok_iff] at h
          obtain ⟨c, hc, rfl⟩ := h
          cases c with
          | passed w => exact .passed ha hg hn hc
          | failed vs => exact .failed ha hg hn hc
  · rintro (ha | ⟨ha, hv⟩ | ⟨ha, hv, hn, hc⟩ | ⟨ha, hv, hn, hc⟩)
    · exact judge_of_not_appliesTo ha
    · exact judge_of_missing ha hv
    · rw [judge_of_present ha hv hn, hc]; rfl
    · rw [judge_of_present ha hv hn, hc]; rfl

namespace Validation

theorem absent_of_required {rule : Rule} (h : rule.required = true) (present : Bool) :
    absent rule present = { name := rule.name, violations := [missingField rule.name] } := by
  simp [absent, h]

/-- A field that need not be there has its default, or null if it is there as null. -/
theorem absent_of_not_required {rule : Rule} (h : rule.required = false) (present : Bool) :
    absent rule present = { name := rule.name, value :=
      if rule.default.isNull then if present then some .null else none else some rule.default } := by
  cases hd : rule.default.isNull <;> cases present <;> simp [absent, h, hd]

theorem required_eq_false_of_absent {rule : Rule} {present : Bool}
    (h : (absent rule present).violations = []) : rule.required = false := by
  cases hr : rule.required with
  | false => rfl
  | true =>
      rw [absent_of_required hr] at h
      cases h

/-- A missing field that nothing stands in for is recorded as it is. -/
theorem absent_eq_of_isNull {rule : Rule} {r : Entries} (h : rule.required = false)
    (hd : rule.default.isNull = true) (hv : r.getD rule.name = .null) :
    absent rule (r.has rule.name) = { name := rule.name, value := r.get? rule.name } := by
  rw [absent_of_not_required h, if_pos hd]
  rcases Entries.getD_eq_null_iff.mp hv with hv | hv <;> simp [Entries.has, hv]

theorem absent_value_of_isNull {rule : Rule} {r : Entries} (h : rule.required = false)
    (hd : rule.default.isNull = true) (hv : r.getD rule.name = .null) :
    (absent rule (r.has rule.name)).value = r.get? rule.name := by
  rw [absent_eq_of_isNull h hd hv]

@[simp] theorem absent_name (rule : Rule) (present : Bool) : (absent rule present).name = rule.name := by
  cases hr : rule.required with
  | false => rw [absent_of_not_required hr]
  | true => rw [absent_of_required hr]

end Validation

/-- A contribution is made under the name of its rule. -/
theorem Rule.Judged.name_eq {o : Options} {rule : Rule} {r : Entries} {part : Contribution}
    (h : rule.Judged o r part) : part.name = rule.name := by
  cases h with
  | missing => exact absent_name ..
  | skipped | passed | failed => rfl

/-! ### All rules -/

/-- Contributions that rules make to the outcome for one record. -/
def Rule.AllJudged (o : Options) (rules : List Rule) (r : Entries) (parts : List Contribution) : Prop :=
  List.Forall₂ (fun rule part => rule.Judged o r part) rules parts

theorem Rule.judgeAll_eq_ok_iff {o : Options} {rules : List Rule} {r : Entries}
    {parts : List Contribution} :
    Rule.judgeAll o rules r = .ok parts ↔ Rule.AllJudged o rules r parts := by
  simp only [judgeAll_eq_mapM, mapM_eq_ok_iff, judge_eq_ok_iff, AllJudged]

theorem Rule.AllJudged.names_eq {o : Options} {rules : List Rule} {r : Entries}
    {parts : List Contribution} (h : Rule.AllJudged o rules r parts) :
    parts.map (·.name) = rules.map (·.name) := by
  unfold AllJudged at h
  induction h with
  | nil => rfl
  | cons hp _ ih => rw [List.map_cons, List.map_cons, hp.name_eq, ih]

theorem Rule.AllJudged.exists_of_mem {o : Options} {rules : List Rule} {r : Entries}
    {parts : List Contribution} (h : Rule.AllJudged o rules r parts) {rule : Rule}
    (hr : rule ∈ rules) : ∃ part ∈ parts, rule.Judged o r part :=
  exists_right_of_mem_forall₂ h hr

theorem Rule.allJudged_singleton_iff {o : Options} {rule : Rule} {r : Entries}
    {parts : List Contribution} :
    Rule.AllJudged o [rule] r parts ↔ ∃ part, rule.Judged o r part ∧ parts = [part] := by
  simp [AllJudged, List.forall₂_cons_left_iff]

/-- Contributions are made to another record, changed in some way, if each rule makes its own so
changed. -/
theorem Rule.AllJudged.map {o e : Options} {rules : List Rule} {r t : Entries} {parts : List Contribution}
    (h : Rule.AllJudged o rules r parts) {g : Contribution → Contribution}
    (hi : ∀ rule ∈ rules, ∀ part ∈ parts, rule.Judged o r part → rule.Judged e t (g part)) :
    Rule.AllJudged e rules t (parts.map g) := by
  obtain ⟨hl, hz⟩ := List.forall₂_iff_zip.mp h
  refine List.forall₂_map_right_iff.mpr (List.forall₂_iff_zip.mpr ⟨hl, fun hm => ?_⟩)
  exact hi _ (List.of_mem_zip hm).1 _ (List.of_mem_zip hm).2 (hz hm)

/-- The same contributions are made to another record if each rule makes its own to it. -/
theorem Rule.AllJudged.imp {o e : Options} {rules : List Rule} {r t : Entries}
    {parts : List Contribution} (h : Rule.AllJudged o rules r parts)
    (hi : ∀ rule ∈ rules, ∀ part ∈ parts, rule.Judged o r part → rule.Judged e t part) :
    Rule.AllJudged e rules t parts := by
  have hmap := h.map (g := id) hi
  rwa [List.map_id] at hmap

/-- The record that contributions and the entries that are not declared make up. -/
theorem Rule.AllJudged.get?_of_mem {o : Options} {s : Schema} {r t : Entries}
    {parts : List Contribution} (h : Rule.AllJudged o s.rules r parts) (hd : s.fieldNames.Nodup)
    {part : Contribution} (hp : part ∈ parts) :
    (recorded parts ++ strays s t).get? part.name = part.value := by
  have hm : part.name ∈ s.fieldNames := by
    rw [Schema.fieldNames, ← h.names_eq]
    exact List.mem_map_of_mem hp
  rw [Entries.get?_append, get?_strays_of_mem hm, Option.or_none]
  refine get?_recorded ?_ hp
  rwa [h.names_eq]

theorem Rule.AllJudged.get?_of_not_mem {o : Options} {s : Schema} {r t : Entries}
    {parts : List Contribution} (h : Rule.AllJudged o s.rules r parts) {name : String}
    (hn : name ∉ s.fieldNames) : (recorded parts ++ strays s t).get? name = t.get? name := by
  rw [Entries.get?_append, get?_strays_of_not_mem hn, get?_recorded_of_not_mem, Option.none_or]
  rwa [h.names_eq]

theorem Schema.validate_record_eq_ok_iff {o : Options} {s : Schema} {r : Entries} {out : Outcome} :
    s.validate o (.record r) = .ok out ↔
      ∃ parts unknown, Rule.AllJudged o s.rules r parts ∧ unknownReport o s r = .ok unknown ∧
        out = .ofViolations (parts.flatMap (·.violations) ++ unknown) (recorded parts ++ kept o s r) := by
  simp only [validate_record, bind_eq_ok_iff, Rule.judgeAll_eq_ok_iff, conclude_eq, pure_eq_ok_iff]
  constructor
  · rintro ⟨parts, hp, unknown, hu, rfl⟩
    exact ⟨parts, unknown, hp, hu, rfl⟩
  · rintro ⟨parts, unknown, hp, hu, rfl⟩
    exact ⟨parts, hp, unknown, hu, rfl⟩

/-- A record is valid if no rule reports anything and neither do its other entries. -/
theorem Schema.validate_record_eq_valid_iff {o : Options} {s : Schema} {r t : Entries} :
    s.validate o (.record r) = .ok (.valid t) ↔
      ∃ parts, Rule.AllJudged o s.rules r parts ∧ (∀ p ∈ parts, p.violations = []) ∧
        unknownReport o s r = .ok [] ∧ t = recorded parts ++ strays s r := by
  rw [validate_record_eq_ok_iff]
  constructor
  · rintro ⟨parts, unknown, hp, hu, h⟩
    obtain ⟨hall, rfl⟩ := Outcome.ofViolations_eq_valid_iff.mp h.symm
    obtain ⟨hv, hn⟩ := List.append_eq_nil_iff.mp hall
    subst hn
    exact ⟨parts, hp, List.flatMap_eq_nil_iff.mp hv, hu, by rw [kept_eq_strays hu]⟩
  · rintro ⟨parts, hp, hv, hu, rfl⟩
    refine ⟨parts, [], hp, hu, (Outcome.ofViolations_eq_valid_iff.mpr ⟨?_, ?_⟩).symm⟩
    · rw [List.append_nil, List.flatMap_eq_nil_iff]
      exact hv
    · rw [kept_eq_strays hu]

/-- A value that is valid is a record. -/
theorem Schema.exists_record_of_validate_eq_valid {o : Options} {s : Schema} {v : Value} {t : Entries}
    (h : s.validate o v = .ok (.valid t)) : ∃ r, v = .record r := by
  cases v with
  | record r => exact ⟨r, rfl⟩
  | _ => cases s; cases h

/-- An outcome that is not valid has something to report. -/
theorem Schema.violations_ne_nil {o : Options} {s : Schema} {v : Value} {vs : List Violation}
    (h : s.validate o v = .ok (.invalid vs)) : vs ≠ [] := by
  cases v with
  | record r =>
      obtain ⟨parts, unknown, -, -, he⟩ := validate_record_eq_ok_iff.mp h
      obtain ⟨hne, rfl⟩ := Outcome.ofViolations_eq_invalid_iff.mp he.symm
      exact hne
  | _ =>
      cases s
      cases h
      exact List.cons_ne_nil _ _

end Intake
