import Intake.Model
import Intake.Proofs.Requirement
import Intake.Proofs.Update
import Intake.Proofs.Wording

/-!
# Proofs — Typing — validated records and the model of their schema

The model of a schema is made from its rules, and sees less of them than validation: of the checks
the first that implies a type, and of a condition that there is one.

What a test accepts has the type that the test implies (`Test.admits_of_accepts`), also a test of
words if nothing but a text is shown as one of its words.  So under a steady schema the value of a
field is one that the model admits, whenever the rule of the field applied; and if it did not, the
value is the one that was there before (`Schema.admits_validated`).  All schemas of the catalogue
are of this kind (`Catalogue.validated_admitted`), and what they record for a field that is tested
for words is a text, and one of these words (`Catalogue.validated_worded`).

Conversely, the model asks for no field that is not in the validated record, and adds none to it but
where a rule did not apply that has a default (`Schema.validated_complete`).  This holds of all
schemas.
-/

namespace Intake

open Validation

/-! ### Values of a type -/

/-- Whether a value is of a type.  A truth value is no number, and a date is also a moment. -/
def FieldType.admits : FieldType → Value → Bool
  | .text,     v => v.text?.isSome
  | .integer,  v => match v with | .int _ => true | _ => false
  | .number,   v => v.number?.isSome
  | .boolean,  v => match v with | .bool _ => true | _ => false
  | .moment,   v => match v with | .date _ | .moment _ => true | _ => false
  | .list,     v => v.items?.isSome
  | .anything, _ => true

/-- Whether the model accepts a value for a field: null if the field need not be given, and values
of its type. -/
def ModelField.admits (f : ModelField) (v : Value) : Bool :=
  if v.isNull then !f.required else f.type.admits v

/-- A test that asks for no words but such as only a text is shown as. -/
def Test.isPlainlyWorded : Test → Bool
  | .oneOf words => words.words.all Text.isPlainWord
  | _            => true

def Check.isPlainlyWorded : Check → Bool
  | .test t _  => t.isPlainlyWorded
  | .items _ _ => true

def Schema.isPlainlyWorded (s : Schema) : Bool := s.rules.all fun rule => rule.checks.all (·.isPlainlyWorded)

theorem Test.require_eq_ok_none_iff {condition : Bool} {t : Test} {message : String} :
    require condition t message = .ok none ↔ condition = true := by
  cases condition <;> simp [require]

/-- A test of plain words accepts nothing but the texts of its words. -/
theorem Test.exists_word_of_accepts {words : WordSet} {v : Value} (hw : (oneOf words).isPlainlyWorded = true)
    (h : (oneOf words).accepts v = true) : ∃ w ∈ words.words, v = .text w := by
  obtain ⟨w, hdisplay, hword⟩ := bind_eq_ok_iff.mp (accepts_iff.mp h)
  have hmem : w ∈ words.words := List.contains_iff_mem.mp (require_eq_ok_none_iff.mp hword)
  exact ⟨w, hmem, Value.eq_text_of_display hdisplay (List.all_eq_true.mp hw w hmem)⟩

/-- What a test accepts is of the type that it implies. -/
theorem Test.admits_of_accepts {t : Test} {type : FieldType} {v : Value} (ht : t.fieldType? = some type)
    (hw : t.isPlainlyWorded = true) (h : t.accepts v = true) : type.admits v = true := by
  have hexamine := accepts_iff.mp h
  cases t with
  | oneOf words =>
      cases ht
      obtain ⟨w, -, rfl⟩ := exists_word_of_accepts hw h
      rfl
  | string =>
      cases ht
      exact require_eq_ok_none_iff.mp hexamine
  | uuid | email | matching =>
      cases ht
      exact Option.isSome_of_any (require_eq_ok_none_iff.mp hexamine)
  | integer | boolean | date =>
      cases ht
      cases v <;> first | rfl | cases hexamine
  | number =>
      cases ht
      cases v <;> first | rfl | cases hexamine
  | array =>
      cases ht
      obtain ⟨items, hitems⟩ := exists_items_of_accepts h
      rw [FieldType.admits, hitems, Option.isSome_some]
  | maxLength | minLength | notEmpty | unspecified => cases ht

/-- A value that all tests of a rule accept is of the type of the field. -/
theorem Rule.admits_of_accepts {rule : Rule} (hw : rule.checks.all (·.isPlainlyWorded) = true) {v : Value}
    (h : ∀ t m, Check.test t m ∈ rule.checks → t.accepts v = true) : rule.fieldType.admits v = true := by
  unfold fieldType
  cases hf : rule.checks.findSome? Check.fieldType? with
  | none => rfl
  | some type =>
      obtain ⟨c, hc, htype⟩ := List.exists_of_findSome?_eq_some hf
      cases c with
      | test t m => exact Test.admits_of_accepts htype (List.all_eq_true.mp hw _ hc) (h t m hc)
      | items s m => cases htype

/-- What the rule of a field has nothing to change about is accepted by each of its tests. -/
theorem Rule.Keeps.accepts {o : Options} {rule : Rule} {v : Value} (h : rule.Keeps o (some v)) (hn : v ≠ .null)
    (ho : rule.isOrderly = true) (hs : ∀ c ∈ rule.checks, c.Settled o) {t : Test} {m : Option String}
    (hc : Check.test t m ∈ rule.checks) : t.accepts v = true :=
  (Check.forall_passes_end hs (rule.pairwise_undisturbed ho o) (h.checked v rfl hn) _ hc).accepts

/-- The model admits what the rule of the field has nothing to change about. -/
theorem Rule.Keeps.admits {o : Options} {rule : Rule} {v : Value} (h : rule.Keeps o (some v))
    (ho : rule.isOrderly = true) (hs : ∀ c ∈ rule.checks, c.Settled o)
    (hw : rule.checks.all (·.isPlainlyWorded) = true) : rule.modelField.admits v = true := by
  unfold ModelField.admits
  cases hv : v.isNull with
  | true =>
      obtain ⟨hopt, -⟩ := h.missing (Value.isNull_iff.mp hv)
      simp [modelField, hopt]
  | false =>
      rw [if_neg Bool.false_ne_true]
      exact admits_of_accepts hw fun t m hc => h.accepts (Value.isNull_eq_false_iff.mp hv) ho hs hc

namespace Schema

variable {o : Options} {s : Schema} {d r : Entries}

theorem exists_rule_of_mem_fields (hs : s.fieldNames.Nodup) {f : ModelField} (hf : f ∈ s.model.fields) :
    ∃ rule ∈ s.rules, s.rule? f.name = some rule ∧ rule.modelField = f := by
  obtain ⟨rule, hrule, rfl⟩ := List.mem_map.mp hf
  exact ⟨rule, hrule, rule?_of_mem hs hrule, rfl⟩

/-- **Validated records are typed.**  Where its rule applied, the value of a field is one that the
model admits; otherwise it is the value that was there. -/
theorem admits_validated (hs : s.everywhere isSteady = true) (hw : s.isPlainlyWorded = true)
    (h : s.validate o (.record d) = .ok (.valid r)) {f : ModelField} (hf : f ∈ s.model.fields) :
    ∃ rule, s.rule? f.name = some rule ∧ ∀ v, r.get? f.name = some v →
      if rule.appliesTo d then f.admits v = true else d.get? f.name = some v := by
  obtain ⟨hnames, hrules⟩ := isSteady_iff.mp (everywhere_iff.mp hs).1
  obtain ⟨rule, hrule, hfind, rfl⟩ := exists_rule_of_mem_fields hnames hf
  refine ⟨rule, hfind, fun v hv => ?_⟩
  cases ha : rule.appliesTo d with
  | true =>
      have hkeeps := keeps_validated hs h hrule ha
      rw [show r.get? rule.name = some v from hv] at hkeeps
      exact hkeeps.admits (hrules rule hrule).1 (settled_of_everywhere hs hrule)
        (List.all_eq_true.mp hw rule hrule)
  | false =>
      have hskipped := (settles_of_mem hnames h hrule).skipped ha
      rw [if_neg Bool.false_ne_true, ← hv]
      exact hskipped.symm

/-- **Validated words are words.**  Where its rule applied, the value of a field that is tested for
plain words is null or the text of one of them. -/
theorem worded_validated (hs : s.everywhere isSteady = true) (hw : s.isPlainlyWorded = true)
    (h : s.validate o (.record d) = .ok (.valid r)) {rule : Rule} (hrule : rule ∈ s.rules)
    (ha : rule.appliesTo d = true) {words : WordSet} {m : Option String}
    (hc : Check.test (.oneOf words) m ∈ rule.checks) {v : Value} (hv : r.get? rule.name = some v)
    (hn : v ≠ .null) : ∃ w ∈ words.words, v = .text w := by
  obtain ⟨-, hrules⟩ := isSteady_iff.mp (everywhere_iff.mp hs).1
  have hkeeps := keeps_validated hs h hrule ha
  rw [hv] at hkeeps
  have hplain := List.all_eq_true.mp (List.all_eq_true.mp hw rule hrule) _ hc
  exact Test.exists_word_of_accepts hplain
    (hkeeps.accepts hn (hrules rule hrule).1 (settled_of_everywhere hs hrule) hc)

end Schema

/-! ### The catalogue -/

namespace Catalogue

theorem isPlainlyWorded_of_mem : ∀ s ∈ pagination :: schemas, s.isPlainlyWorded = true := by
  decide +kernel

/-- **Validated requests are typed.**  Every value that a schema of the catalogue has recorded is
one that its model admits, but for the fields that are left out of account by their conditions. -/
theorem validated_admitted {o : Options} {s : Schema} (hs : s = pagination ∨ s ∈ registry.schemas)
    {d r : Entries} (h : s.validate o (.record d) = .ok (.valid r)) :
    ∀ f ∈ s.model.fields, ∃ rule, s.rule? f.name = some rule ∧ ∀ v, r.get? f.name = some v →
      if rule.appliesTo d then f.admits v = true else d.get? f.name = some v := by
  have hm : s ∈ pagination :: schemas := List.mem_cons.mpr hs
  exact fun f hf => Schema.admits_validated (isSteady_of_mem s hm) (isPlainlyWorded_of_mem s hm) h hf

/-- A teacher who was born on no date, which nobody looks at in a teacher. -/
def undatedTeacher : Entries := [
  (.text "email", .text "eva@uni.edu"),
  (.text "password", .text "Secret1"),
  (.text "firstName", .text "Eva"),
  (.text "lastName", .text "Mora"),
  (.text "role", .text "TEACHER"),
  (.text "birthDate", .text "not a date"),
  (.text "department", .null)]

theorem validated_admitted_teacher :
    createUser.validate {} (.record undatedTeacher) = .ok (.valid undatedTeacher) ∧
      ∀ f ∈ createUser.model.fields, ∃ rule, createUser.rule? f.name = some rule ∧
        ∀ v, undatedTeacher.get? f.name = some v →
          if rule.appliesTo undatedTeacher then f.admits v = true else undatedTeacher.get? f.name = some v := by
  have h : createUser.validate {} (.record undatedTeacher) = .ok (.valid undatedTeacher) := by rfl
  exact ⟨h, validated_admitted (.inr (by simp [registry, schemas])) h⟩

/-- The model does not accept the date of birth of the teacher. -/
theorem undatedTeacher_not_admitted :
    createUser.validate {} (.record undatedTeacher) = .ok (.valid undatedTeacher) ∧
      ∃ f ∈ createUser.model.fields, ∃ v, undatedTeacher.get? f.name = some v ∧ f.admits v = false := by
  refine ⟨by rfl, (onlyIf isStudent (optional "birthDate" [date])).modelField, ?_,
    .text "not a date", by rfl, by rfl⟩
  exact List.mem_map_of_mem (by simp [createUser])

/-- **Enumerated fields hold words.**  Whatever a schema of the catalogue has recorded for a field
that is tested for words, where its rule applied, is null or the text of one of them: no other value
is recorded, even if it is shown as one of them. -/
theorem validated_worded {o : Options} {s : Schema} (hs : s = pagination ∨ s ∈ registry.schemas)
    {d r : Entries} (h : s.validate o (.record d) = .ok (.valid r)) {rule : Rule} (hrule : rule ∈ s.rules)
    (ha : rule.appliesTo d = true) {words : WordSet} {m : Option String}
    (hc : Check.test (.oneOf words) m ∈ rule.checks) {v : Value} (hv : r.get? rule.name = some v)
    (hn : v ≠ .null) : ∃ w ∈ words.words, v = .text w := by
  have hm : s ∈ pagination :: schemas := List.mem_cons.mpr hs
  exact Schema.worded_validated (isSteady_of_mem s hm) (isPlainlyWorded_of_mem s hm) h hrule ha hc hv hn

/-- A page of canceled enrollments. -/
theorem validated_worded_canceled :
    listEnrollments.validate ⟨true, true⟩ (.record [(.text "state", .text "Canceled"), (.text "page", .text "2")]) =
        .ok (.valid [(.text "page", .int 2), (.text "limit", .int 10), (.text "state", .text "Canceled")]) ∧
      optional "state" [oneOf enrollmentStates] ∈ listEnrollments.rules ∧
      ∃ w ∈ (WordSet.ofList enrollmentStates).words, Value.text "Canceled" = .text w := by
  have h : listEnrollments.validate ⟨true, true⟩
      (.record [(.text "state", .text "Canceled"), (.text "page", .text "2")]) =
      .ok (.valid [(.text "page", .int 2), (.text "limit", .int 10), (.text "state", .text "Canceled")]) := by rfl
  have hrule : optional "state" [oneOf enrollmentStates] ∈ listEnrollments.rules := by
    rw [show listEnrollments.rules = pagination.rules ++ [optional "student_id" [uuid], optional "term_id" [uuid],
      optional "state" [oneOf enrollmentStates]] from rfl]
    simp
  exact ⟨h, hrule, validated_worded (.inr (by simp [registry, schemas])) h hrule rfl (List.mem_singleton_self _)
    rfl nofun⟩

end Catalogue

/-! ### Fields that are not in a validated record -/

namespace Schema

variable {o : Options} {s : Schema} {d r : Entries}

/-- A field is missing in a validated record if its rule did not apply and it was missing before, or
if nothing stands in for it. -/
theorem missing_validated (hs : s.fieldNames.Nodup) (h : s.validate o (.record d) = .ok (.valid r)) {rule : Rule}
    (hrule : rule ∈ s.rules) (hr : r.get? rule.name = none) :
    if rule.appliesTo d then rule.required = false ∧ rule.default = .null else d.get? rule.name = none := by
  have hsettles := settles_of_mem hs h hrule
  cases ha : rule.appliesTo d with
  | false =>
      rw [if_neg Bool.false_ne_true, ← hsettles.skipped ha]
      exact hr
  | true =>
      refine ⟨?_, ?_⟩
      · cases hq : rule.required with
        | false => rfl
        | true => exact absurd (Entries.getD_eq_null_iff.mpr (.inl hr)) (getD_ne_null_of_appliesTo hs h hrule hq ha)
      · by_cases hv : d.getD rule.name = .null
        · have hdefault := hsettles.missing ha hv
          rw [hr] at hdefault
          split at hdefault
          · rename_i hnull
            exact Value.isNull_iff.mp hnull
          · cases hdefault
        · obtain ⟨v, hg, -, hn⟩ := Entries.exists_of_getD_ne_null hv
          obtain ⟨w, hw, -⟩ := hsettles.checked ha v hg hn
          rw [hr] at hw
          cases hw

/-- **Validated records are complete.**  Each field that the model requires is in a validated record
and not null, and none that is missing there is required; such a field has no default in the model,
unless its rule did not apply. -/
theorem validated_complete (hs : s.fieldNames.Nodup) (h : s.validate o (.record d) = .ok (.valid r))
    {f : ModelField} (hf : f ∈ s.model.fields) :
    (f.required = true → r.getD f.name ≠ .null) ∧
    (r.get? f.name = none → f.required = false ∧
      (f.default = .null ∨ ∃ rule, s.rule? f.name = some rule ∧ rule.appliesTo d = false ∧
        d.get? f.name = none ∧ f.default = rule.default)) := by
  obtain ⟨rule, hrule, hfind, rfl⟩ := exists_rule_of_mem_fields hs hf
  have hmust : rule.modelField.required = true → rule.required = true ∧ rule.appliesTo d = true := by
    intro hq
    obtain ⟨hrequired, hcond⟩ := Bool.and_eq_true_iff.mp hq
    exact ⟨hrequired, by simp [Rule.appliesTo, Option.isNone_iff_eq_none.mp hcond]⟩
  refine ⟨fun hq => getD_ne_null_of_appliesTo hs h hrule (hmust hq).1 (hmust hq).2, fun hr => ?_⟩
  have hmissing := missing_validated hs h hrule hr
  have hopt : rule.modelField.required = false := by
    refine Bool.eq_false_iff.mpr fun hq => ?_
    obtain ⟨hrequired, ha⟩ := hmust hq
    rw [if_pos ha, hrequired] at hmissing
    cases hmissing.1
  have hdefault : rule.modelField.default = rule.default := if_neg (Bool.eq_false_iff.mp hopt)
  refine ⟨hopt, ?_⟩
  rw [hdefault]
  cases ha : rule.appliesTo d with
  | true =>
      rw [if_pos ha] at hmissing
      exact .inl hmissing.2
  | false =>
      rw [if_neg (Bool.eq_false_iff.mp ha)] at hmissing
      exact .inr ⟨rule, hfind, ha, hmissing, rfl⟩

end Schema

/-- Members have a discount. -/
def discountRule : Rule :=
  Catalogue.onlyIf (.present "member") (Catalogue.defaulting "discount" [Catalogue.integer] (.int 10))

def pass : Schema := ⟨"Pass", [
  Catalogue.required "code" [Catalogue.string],
  Catalogue.optional "member" [Catalogue.boolean],
  Catalogue.defaulting "zones" [Catalogue.integerFrom 1] (.int 1),
  discountRule]⟩

def issued : Entries := [(.text "code", .text "A7")]

def issuedPass : Entries := [(.text "code", .text "A7"), (.text "zones", .int 1)]

theorem Schema.validated_complete_pass :
    pass.fieldNames.Nodup ∧ pass.validate {} (.record issued) = .ok (.valid issuedPass) ∧
      ∀ f ∈ pass.model.fields, (f.required = true → issuedPass.getD f.name ≠ .null) ∧
        (issuedPass.get? f.name = none → f.required = false ∧
          (f.default = .null ∨ ∃ rule, pass.rule? f.name = some rule ∧ rule.appliesTo issued = false ∧
            issued.get? f.name = none ∧ f.default = rule.default)) := by
  have hd : pass.fieldNames.Nodup := by decide
  have h : pass.validate {} (.record issued) = .ok (.valid issuedPass) := by rfl
  exact ⟨hd, h, fun f hf => Schema.validated_complete hd h hf⟩

/-- Who is no member has no discount, but in the model. -/
theorem issuedPass_discounted :
    pass.fieldNames.Nodup ∧ pass.validate {} (.record issued) = .ok (.valid issuedPass) ∧
      ∃ f ∈ pass.model.fields, issuedPass.get? f.name = none ∧ f.default ≠ .null := by
  refine ⟨by decide, by rfl, discountRule.modelField, ?_, by rfl, nofun⟩
  exact List.mem_map_of_mem (by simp [pass])

end Intake
