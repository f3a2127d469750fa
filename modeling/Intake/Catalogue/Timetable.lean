import Intake.Catalogue.Field

/-!
# Catalogue — Timetable — where and when courses are taught

Classrooms, course sections and their schedules.
-/

namespace Intake.Catalogue

def createClassroom : Schema := ⟨"CreateClassroomDto", [
  required "building" [string, notEmpty, maxLength 50],
  required "code" [string, notEmpty, maxLength 50],
  required "capacity" [integerFrom 1],
  optional "available" [boolean],
  optional "resources" [string, maxLength 255]]⟩

def updateClassroom : Schema := update "UpdateClassroomDto" createClassroom requiredId

def listClassrooms : Schema := listing "ListClassroomsDto" [
  optional "building" [string, maxLength 50],
  optional "min_capacity" [integerFrom 1],
  optional "available" [boolean]]

/-- Two digits, a colon and two digits. -/
def timeOfDay : Pattern where
  source := "^\\d\x7b2\x7d:\\d\x7b2\x7d$"
  node   := .sequence [.anchor .start, twoDigits, .char ':', twoDigits, .anchor .lineEnd]
where
  twoDigits : Pattern.Node := .repeated 2 (some 2) .greedy (.ofCategory .digit false)

example : (Pattern.Node.read timeOfDay.source.toList).toOption = some timeOfDay.node := by decide +kernel

def createCourseSection : Schema := ⟨"CreateCourseSectionDto", [
  optional "course_id" [uuid],
  optional "term_id" [uuid],
  required "classroom_id" [uuid],
  required "teacher_id" [uuid],
  optional "degree_program_code" [string],
  optional "study_plan_version" [string],
  optional "course_code" [string],
  optional "term_name" [string],
  optional "teacher_email" [string],
  required "group_label" [string, maxLength 10],
  required "modality" [string, maxLength 20],
  required "shift" [string, maxLength 20],
  required "quota_max" [integerFrom 1],
  optional "quota_available" [integerFrom 0],
  optional "status" [string]]⟩

def updateCourseSection : Schema := update "UpdateCourseSectionDto" createCourseSection optionalId

def listCourseSections : Schema := listing "ListCourseSectionsDto" [
  optional "course_id" [uuid],
  optional "term_id" [uuid],
  optional "teacher_id" [uuid],
  optional "status" [string]]

def createSchedule : Schema := ⟨"CreateScheduleDto", [
  required "course_section_id" [uuid],
  optional "classroom_id" [uuid],
  required "weekday" [string, maxLength 10],
  required "time_start" [string, plain (.matching timeOfDay)],
  required "time_end" [string, plain (.matching timeOfDay)],
  optional "date_start" [date],
  optional "date_end" [date]]⟩

def updateSchedule : Schema := update "UpdateScheduleDto" createSchedule optionalId

def listSchedules : Schema := listing "ListSchedulesDto" [
  optional "course_section_id" [uuid],
  optional "classroom_id" [uuid],
  optional "weekday" [string]]

end Intake.Catalogue
