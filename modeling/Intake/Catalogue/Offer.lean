import Intake.Catalogue.Field

/-!
# Catalogue — Offer — what is taught

Degree programs, study plans, levels, courses and their prerequisites.
-/

namespace Intake.Catalogue

def statuses : List String := ["Active", "Inactive"]

def modalities : List String := ["Onsite", "Online", "Hybrid"]

def prerequisiteKinds : List String := ["required", "optional"]

def createDegreeProgram : Schema := ⟨"CreateDegreeProgramDto", [
  required "name" [string, minLength 3, maxLength 120],
  required "code" [string, minLength 2, maxLength 20],
  required "degree_title" [string, minLength 3, maxLength 120],
  required "modality" [string, oneOf modalities],
  required "status" [string, oneOf statuses]]⟩

def updateDegreeProgram : Schema := update "UpdateDegreeProgramDto" createDegreeProgram requiredId

def listDegreePrograms : Schema := listing "ListDegreeProgramsDto" [
  optional "status" [oneOf statuses]]

def createStudyPlan : Schema := ⟨"CreateStudyPlanDto", [
  optional "degree_program_id" [uuid],
  optional "degree_program_code" [string],
  required "version" [string, maxLength 20],
  optional "is_current" [boolean],
  required "valid_from" [date],
  optional "valid_to" [date],
  optional "resolution" [string, maxLength 50]]⟩

def updateStudyPlan : Schema := update "UpdateStudyPlanDto" createStudyPlan requiredId

def listStudyPlans : Schema := listing "ListStudyPlansDto" [
  optional "degree_program_id" [uuid],
  optional "degree_program_code" [string],
  optional "is_current" [boolean]]

def createLevel : Schema := ⟨"CreateLevelDto", [
  required "name" [string, maxLength 50],
  required "order" [integerFrom 1]]⟩

def updateLevel : Schema := update "UpdateLevelDto" createLevel requiredId

def createCourse : Schema := ⟨"CreateCourseDto", [
  optional "study_plan_id" [uuid],
  optional "level_id" [uuid],
  optional "degree_program_code" [string],
  optional "study_plan_version" [string],
  optional "level_order" [integer],
  required "code" [string, maxLength 20],
  required "name" [string, maxLength 120],
  required "credits" [numberFrom 0],
  required "hours_theory" [integerFrom 0],
  required "hours_practice" [integerFrom 0],
  required "status" [string, oneOf statuses]]⟩

def updateCourse : Schema := update "UpdateCourseDto" createCourse requiredId

def listCourses : Schema := listing "ListCoursesDto" [
  optional "study_plan_id" [uuid],
  optional "level_id" [uuid]]

def createPrerequisite : Schema := ⟨"CreatePrerequisiteDto", [
  required "main_course_id" [uuid],
  required "required_course_id" [uuid],
  defaulting "kind" [oneOf prerequisiteKinds] (.text "required")]⟩

def updatePrerequisite : Schema := update "UpdatePrerequisiteDto" createPrerequisite requiredId

def listPrerequisites : Schema := listing "ListPrerequisitesDto" [
  optional "main_course_id" [uuid],
  optional "required_course_id" [uuid]]

end Intake.Catalogue
