import Intake.Catalogue.Field

/-!
# Catalogue — Enrollment — enrollments, their details and grades

Details may be sent one at a time or as a list of items.
-/

namespace Intake.Catalogue

def enrollmentStates : List String := ["Active", "Canceled"]

def enrollmentOrigins : List String := ["Regular", "Extra"]

def courseStates : List String := ["Enrolled", "Approved", "Failed", "Withdrawn"]

def createEnrollment : Schema := ⟨"CreateEnrollmentDto", [
  optional "student_id" [uuid],
  optional "student_code" [string],
  optional "term_id" [uuid],
  optional "term_name" [string],
  required "enrolled_on" [date],
  defaulting "state" [oneOf enrollmentStates] (.text "Active"),
  defaulting "origin" [oneOf enrollmentOrigins] (.text "Regular"),
  optional "note" [string]]⟩

def updateEnrollment : Schema := update "UpdateEnrollmentDto" createEnrollment requiredId

def listEnrollments : Schema := listing "ListEnrollmentsDto" [
  optional "student_id" [uuid],
  optional "term_id" [uuid],
  optional "state" [oneOf enrollmentStates]]

def createEnrollmentDetail : Schema := ⟨"CreateEnrollmentDetailDto", [
  optional "enrollment_id" [uuid],
  optional "student_code" [string],
  optional "term_name" [string],
  optional "course_section_id" [uuid],
  optional "course_code" [string],
  optional "group_label" [string],
  optional "degree_program_code" [string],
  optional "study_plan_version" [string],
  defaulting "course_state" [oneOf courseStates] (.text "Enrolled"),
  optional "final_grade" [plain (.number (some (.int 0)) (some (.int 100)) none)],
  defaulting "attempts" [numberFrom 1] (.int 1),
  optional "closed_on" [date],
  optional "remark" [string]]⟩

def createEnrollmentDetailBatch : Schema := ⟨"CreateEnrollmentDetailBatchDto", [
  required "items" [plain (.array (some 1)), .items (some createEnrollmentDetail) none]]⟩

def updateEnrollmentDetail : Schema := update "UpdateEnrollmentDetailDto" createEnrollmentDetail requiredId

def listEnrollmentDetails : Schema := listing "ListEnrollmentDetailsDto" [
  optional "enrollment_id" [uuid],
  optional "course_section_id" [uuid]]

def createGrade : Schema := ⟨"CreateGradeDto", [
  required "course_section_id" [uuid],
  required "student_id" [uuid],
  optional "final_grade" [plain (.number (some (.int 0)) (some (.int 100)) (some 2))]]⟩

def updateGrade : Schema := update "UpdateGradeDto" createGrade requiredId

def listGrades : Schema := listing "ListGradesDto" [
  optional "student_id" [uuid],
  optional "course_section_id" [uuid]]

end Intake.Catalogue
