import Intake.Catalogue
import Intake.Proofs.Merging
import Intake.Proofs.Relaxation
import Intake.Proofs.Update

/-!
# Proofs — Editing — updates in the catalogue

What the schemas of the catalogue create, their updates change.

An update of most kinds of record is the partial schema of what creates it, with an identifier,
which is not part of the record (`Schema.updates_update`).  None of these schemas has a condition,
so that a valid update of a valid record always makes a valid record, which validation has nothing
to change about (`Catalogue.validate_update`).

Users are different.  The fields of a role are checked only in records that have this role, and an
update is checked by itself.  Who becomes a student by an update need not have what is required of
students (`Catalogue.validate_promoted`), and an update that mentions no role may put anything into
the fields of one.  But an update that repeats the role, or touches neither the role nor its fields,
is safe; in general a patched user is valid exactly if the rules say so that have not seen the value
of their field (`Catalogue.validate_updateUser`).
-/

namespace Intake

open Validation

variable {o : Options} {d u r p : Entries}

/-! ### Updates with an identifier -/

namespace Schema

variable {base : Schema} {identifier : Rule}

theorem nodup_fieldNames_append (hd : base.fieldNames.Nodup) (hid : identifier.name ∉ base.fieldNames) :
    (base.fieldNames ++ [identifier.name]).Nodup := by
  rw [← List.concat_eq_append]
  exact hd.concat hid

theorem names_derivePartial_append (base : Schema) (name : Option String) (identifier : Rule) :
    ((base.derivePartial name).rules ++ [identifier]).map (·.name) = base.fieldNames ++ [identifier.name] := by
  rw [List.map_append, ← fieldNames, fieldNames_derivePartial]
  rfl

/-- The rule of the identifier comes behind the others and leaves them alone. -/
theorem rules_update (hd : base.fieldNames.Nodup) (hid : identifier.name ∉ base.fieldNames) (name : String) :
    (Catalogue.update name base identifier).rules =
      (base.derivePartial (some name)).rules ++ [identifier] := by
  refine mergeRules_of_nodup ?_
  rw [names_derivePartial_append]
  exact nodup_fieldNames_append hd hid

theorem updates_update (hs : base.everywhere isSteady = true) (hid : identifier.name ∉ base.fieldNames)
    (name : String) : (Catalogue.update name base identifier).Updates o base [identifier.name] := by
  have hd := nodup_of_everywhere hs
  have hnames : (Catalogue.update name base identifier).fieldNames = base.fieldNames ++ [identifier.name] := by
    rw [fieldNames, rules_update hd hid, names_derivePartial_append]
  refine ⟨fun rule hrule => ⟨rule.asOptional, ?_, ?_⟩, fun n hn => ?_, fun n hn hmem => ?_, ?_⟩
  · rw [rules_update hd hid]
    exact List.mem_append_left _ (asOptional_mem_derivePartial hrule)
  · exact asOptional_vouchesFor hs hrule
  · rw [hnames] at hn
    exact List.mem_append.mp hn
  · exact hid (List.mem_singleton.mp hmem ▸ hn)
  · rw [hnames]
    exact nodup_fieldNames_append hd hid

end Schema

namespace Catalogue

/-- What creates a record, and what updates it and has an identifier. -/
def updates : List (Schema × Schema) := [
  (createAcademicYear, updateAcademicYear), (createTerm, updateTerm), (createGrade, updateGrade),
  (createEnrollment, updateEnrollment), (createEnrollmentDetail, updateEnrollmentDetail),
  (createClassroom, updateClassroom), (createDegreeProgram, updateDegreeProgram),
  (createStudyPlan, updateStudyPlan), (createLevel, updateLevel), (createCourse, updateCourse),
  (createPrerequisite, updatePrerequisite), (createCourseSection, updateCourseSection),
  (createSchedule, updateSchedule)]

/-- The schemas with an identifier are the second ones of these pairs. -/
theorem has_id_iff_mem_updates :
    ∀ s ∈ schemas, "id" ∈ s.fieldNames ↔ s.name ∈ updates.map (·.2.name) := by
  decide +kernel

theorem exists_update_of_mem : ∀ pair ∈ updates, ∃ name, ∃ identifier ∈ [requiredId, optionalId],
    pair.2 = update name pair.1 identifier := by
  simp only [updates, List.forall_mem_cons, List.not_mem_nil, false_imp_iff, implies_true, and_true]
  and_intros
  any_goals exact ⟨_, requiredId, by simp, rfl⟩
  all_goals exact ⟨_, optionalId, by simp, rfl⟩

theorem created_of_mem_updates : ∀ pair ∈ updates, pair.1.everywhere Schema.isSteady = true ∧
    "id" ∉ pair.1.fieldNames ∧ (pair.1.rules.all fun rule => rule.condition.isNone) = true := by
  decide +kernel

/-- **Updates of records.**  A valid update overrides a valid record, except for the identifier, and
the record that comes of it is valid under the same options, and the same as a validated record. -/
theorem validate_update {create change : Schema} (hpair : (create, change) ∈ updates)
    (hd : d.DistinctKeys) (hu : u.DistinctKeys) (hr : create.validate o (.record d) = .ok (.valid r))
    (hp : change.validate o (.record u) = .ok (.valid p)) :
    ∃ m, create.validate o (.record (r.patchedBy p ["id"])) = .ok (.valid m) ∧ m.DistinctKeys ∧
      m.Perm (r.patchedBy p ["id"]) := by
  obtain ⟨hs, hid, hall⟩ := created_of_mem_updates _ hpair
  obtain ⟨name, identifier, hidentifier, hchange⟩ := exists_update_of_mem _ hpair
  have hname : identifier.name = "id" := by
    simp only [List.mem_cons, List.not_mem_nil, or_false] at hidentifier
    rcases hidentifier with rfl | rfl <;> rfl
  have ht : change.Updates o create ["id"] := by
    rw [← hname] at hid ⊢
    dsimp only at hchange
    rw [hchange]
    exact Schema.updates_update hs hid name
  refine Schema.validate_patchedBy hs ht hu hr hp hd fun rule hrule _ => ?_
  have hcond : rule.condition = none := Option.isNone_iff_eq_none.mp (List.all_eq_true.mp hall rule hrule)
  simp [Rule.hasSeen, Rule.appliesTo, hcond]

/-- A detail as it is sent, with a key that no schema declares. -/
def sentDetail : Entries := [
  (.text "attempts", .text "2"),
  (.text "closed_on", .text "2024-02-29"),
  (.text "final_grade", .int 70),
  (.int 7, .text "seven")]

def storedDetail : Entries := [
  (.text "course_state", .text "Enrolled"),
  (.text "final_grade", .int 70),
  (.text "attempts", .int 2),
  (.text "closed_on", .moment ⟨⟨2024, 2, 29, by decide⟩, .midnight, none⟩),
  (.int 7, .text "seven")]

def sentApproval : Entries := [
  (.bool true, .text "yes"),
  (.int 7, .text "eight"),
  (.text "attempts", .null),
  (.text "id", .text "123e4567-e89b-12d3-a456-426614174000"),
  (.text "final_grade", .text "85"),
  (.text "course_state", .text "Approved")]

def approval : Entries := [
  (.text "course_state", .text "Approved"),
  (.text "final_grade", .int 85),
  (.text "attempts", .null),
  (.text "id", .text "123e4567-e89b-12d3-a456-426614174000"),
  (.bool true, .text "yes"),
  (.int 7, .text "eight")]

def approvedDetail : Entries := [
  (.text "course_state", .text "Approved"),
  (.text "final_grade", .int 85),
  (.text "attempts", .int 2),
  (.text "closed_on", .moment ⟨⟨2024, 2, 29, by decide⟩, .midnight, none⟩),
  (.int 7, .text "eight"),
  (.bool true, .text "yes")]

theorem validate_update_approval : storedDetail.patchedBy approval ["id"] = approvedDetail ∧
    ∃ m, createEnrollmentDetail.validate ⟨false, true⟩ (.record approvedDetail) = .ok (.valid m) ∧
      m.DistinctKeys ∧ m.Perm approvedDetail := by
  have hr : createEnrollmentDetail.validate ⟨false, true⟩ (.record sentDetail) =
      .ok (.valid storedDetail) := by rfl
  have hp : updateEnrollmentDetail.validate ⟨false, true⟩ (.record sentApproval) =
      .ok (.valid approval) := by rfl
  have hpatched : storedDetail.patchedBy approval ["id"] = approvedDetail := by rfl
  refine ⟨hpatched, ?_⟩
  rw [← hpatched]
  exact validate_update (by simp [updates]) (by decide) (by decide) hr hp

/-! ### Updates of users -/

/-- The profile overrides what an update asks of the fields that it has. -/
theorem rules_updateUser : updateUser.rules =
    createUser.rules.map fun rule => (userProfile.rule? rule.name).getD rule.asOptional := by
  rfl

/-- A text of one character or more is not empty. -/
theorem accepts_notEmpty_of_minLength {v : Value} (h : (Test.minLength 1).accepts v = true) :
    Test.notEmpty.accepts v = true := by
  cases v with
  | text s =>
      have hne : s ≠ "" := by
        rintro rfl
        cases h
      simp [Test.accepts, Test.examine, Test.require, Value.text?, hne]
  | _ => cases h

theorem name_vouchesFor (name : String) : (optional name [string, minLength 1]).VouchesFor o
    (required name [string, minLength 1, notEmpty]) where
  name_eq := rfl
  condition_eq := rfl
  default_null := rfl
  passes v w h := by
    obtain ⟨x, hx, h⟩ := Check.chain_cons_passed_iff.mp h
    obtain ⟨y, hy, h⟩ := Check.chain_cons_passed_iff.mp h
    rw [Check.chain_nil] at h
    cases h
    -- neither check reads anything, so that it has been the same value all along
    obtain rfl := hy.eq_of_isInert rfl
    have hstring : Test.string.accepts w = true := hx.accepts
    have hlength : (Test.minLength 1).accepts w = true := hy.accepts
    refine Check.chain_of_accepts ?_
    simp only [required, List.all_cons, List.all_nil, Bool.and_true, Bool.and_eq_true]
    exact ⟨hstring, hlength, accepts_notEmpty_of_minLength hlength⟩

/-- Only of the names of a person does the update of a user ask less. -/
theorem updateUser_rule_cases : ∀ rule ∈ createUser.rules,
    (userProfile.rule? rule.name).getD rule.asOptional = rule.asOptional ∨
      ∃ name, rule = required name [string, minLength 1, notEmpty] ∧
        (userProfile.rule? rule.name).getD rule.asOptional = optional name [string, minLength 1] := by
  simp only [createUser, List.forall_mem_cons, List.not_mem_nil, false_imp_iff, implies_true, and_true]
  and_intros
  any_goals exact .inl rfl
  all_goals exact .inr ⟨_, rfl, rfl⟩

theorem createUser_everywhere_isSteady : createUser.everywhere Schema.isSteady = true :=
  isSteady_of_mem _ (by simp [schemas])

theorem updateUser_updates : updateUser.Updates o createUser [] := by
  have hnames : updateUser.fieldNames = createUser.fieldNames := by rfl
  have hd := Schema.nodup_of_everywhere createUser_everywhere_isSteady
  refine ⟨fun rule hrule => ⟨_, rules_updateUser ▸ List.mem_map_of_mem hrule, ?_⟩, fun n hn => ?_,
    fun _ _ => List.not_mem_nil, hnames ▸ hd⟩
  · rcases updateUser_rule_cases rule hrule with heq | ⟨name, rfl, heq⟩
    · rw [heq]
      exact Schema.asOptional_vouchesFor createUser_everywhere_isSteady hrule
    · rw [heq]
      exact name_vouchesFor name
  · rw [hnames] at hn
    exact .inl hn

/-- Conditions look at nothing but the role, which both schemas record as it is. -/
theorem createUser_conditions : ∀ rule ∈ createUser.rules, (rule.condition.all fun c =>
    c.field? == some "role" && createUser.keepsField c && updateUser.keepsField c) = true := by
  decide +kernel

/-- The update repeats the role of a user, or has neither a role nor a field of one. -/
def KeepsRole (d u : Entries) : Prop :=
  u.get? "role" = d.get? "role" ∨
    (u.getD "role").isNull = true ∧
      ∀ rule ∈ createUser.rules, rule.condition.isSome = true → (u.getD rule.name).isNull = true

/-- No rule comes to apply to a field that it has not seen where the role is kept. -/
theorem hasSeen_of_keepsRole (hu : u.DistinctKeys) (hr : createUser.validate o (.record d) = .ok (.valid r))
    (hp : updateUser.validate o (.record u) = .ok (.valid p)) (hkeep : KeepsRole d u) {rule : Rule}
    (hrule : rule ∈ createUser.rules) (ha : rule.appliesTo (r.patchedBy p []) = true) :
    rule.hasSeen d u = true := by
  unfold Rule.hasSeen
  cases hcond : rule.condition with
  | none => simp [Rule.appliesTo, hcond]
  | some c =>
      have hc := createUser_conditions rule hrule
      rw [hcond, Option.all_some, Bool.and_eq_true, Bool.and_eq_true, beq_iff_eq] at hc
      obtain ⟨⟨hfield, hc⟩, hc'⟩ := hc
      rw [Schema.appliesTo_patchedBy createUser_everywhere_isSteady updateUser_updates hu hr hp hcond hc hc'
        hfield List.not_mem_nil] at ha
      rcases hkeep with hsame | ⟨hnull, hopen⟩
      · have heq : rule.appliesTo u = rule.appliesTo d := by
          simp only [Rule.appliesTo, hcond]
          exact Condition.holds_congr hfield hsame
        rw [heq, ite_self] at ha ⊢
        exact ha
      · rw [if_pos hnull] at ha
        rw [if_pos (hopen rule hrule (by rw [hcond]; rfl))]
        exact ha

/-- **Updates of users.**  A patched user is valid exactly if nothing is reported by the rules that
have not seen the value of their field; and it is, as it is, if the role is kept. -/
theorem validate_updateUser (hd : d.DistinctKeys) (hu : u.DistinctKeys)
    (hr : createUser.validate o (.record d) = .ok (.valid r))
    (hp : updateUser.validate o (.record u) = .ok (.valid p)) :
    ((∃ m, createUser.validate o (.record (r.patchedBy p [])) = .ok (.valid m)) ↔
      ∀ rule ∈ createUser.rules, rule.appliesTo (r.patchedBy p []) = true → rule.hasSeen d u = false →
        rule.report o (r.patchedBy p []) = .ok []) ∧
    (KeepsRole d u → ∃ m, createUser.validate o (.record (r.patchedBy p [])) = .ok (.valid m) ∧
      m.DistinctKeys ∧ m.Perm (r.patchedBy p [])) := by
  refine ⟨?_, fun hkeep => ?_⟩
  · exact Schema.exists_valid_patchedBy_iff createUser_everywhere_isSteady updateUser_updates hu hr hp
  · exact Schema.validate_patchedBy createUser_everywhere_isSteady updateUser_updates hu hr hp hd
      fun rule hrule ha => hasSeen_of_keepsRole hu hr hp hkeep hrule ha

def admin : Entries := [
  (.text "email", .text "ana@uni.edu"),
  (.text "password", .text "Secret1"),
  (.text "firstName", .text "Ana"),
  (.text "lastName", .text "Ruiz"),
  (.text "role", .text "ADMIN")]

/-- Who becomes a student needs a study plan. -/
def enrolment : Entries := [
  (.text "role", .text "STUDENT"),
  (.text "studyPlanId", .text "123e4567-e89b-12d3-a456-426614174000")]

/-- A teacher with a study plan that nobody looks at. -/
def teacher : Entries := [
  (.text "email", .text "eva@uni.edu"),
  (.text "password", .text "Secret1"),
  (.text "firstName", .text "Eva"),
  (.text "lastName", .text "Mora"),
  (.text "role", .text "TEACHER"),
  (.text "studyPlanId", .int 5),
  (.text "teacherBirthDate", .moment ⟨⟨1980, 5, 1, by decide⟩, .midnight, none⟩)]

def newName : Entries := [(.text "lastName", .text "Mora Ruiz"), (.text "department", .null)]

theorem validate_updateUser_enrolment :
    (∃ m, createUser.validate {} (.record (admin.patchedBy enrolment [])) = .ok (.valid m)) ∧
    ∃ m, createUser.validate ⟨true, false⟩ (.record (teacher.patchedBy newName [])) = .ok (.valid m) ∧
      m.DistinctKeys ∧ m.Perm (teacher.patchedBy newName []) := by
  refine ⟨?_, ?_⟩
  · have hpatched := @validate_updateUser {} admin enrolment admin enrolment (by decide) (by decide)
      (by rfl) (by rfl)
    refine hpatched.1.mpr ?_
    simp only [createUser, List.forall_mem_cons, List.not_mem_nil, false_imp_iff, implies_true, and_true]
    and_intros
    all_goals
      intros
      rfl
  · have hpatched := @validate_updateUser ⟨true, false⟩ teacher newName teacher newName (by decide)
      (by decide) (by rfl) (by rfl)
    refine hpatched.2 (.inr ⟨rfl, ?_⟩)
    decide +kernel

def promotion : Entries := [(.text "role", .text "STUDENT")]

/-- An admin who becomes a student by a valid update is no valid user without a study plan. -/
theorem validate_promoted : admin.DistinctKeys ∧ promotion.DistinctKeys ∧
    createUser.validate {} (.record admin) = .ok (.valid admin) ∧
    updateUser.validate {} (.record promotion) = .ok (.valid promotion) ∧
    createUser.validate {} (.record (admin.patchedBy promotion [])) =
      .ok (.invalid [missingField "studyPlanId"]) :=
  ⟨by decide, by decide, rfl, rfl, rfl⟩

end Catalogue

end Intake
