import Intake.Catalogue.Enrollment
import Intake.Catalogue.Offer
import Intake.Catalogue.Timetable
import Intake.Catalogue.User
import Intake.Catalogue.Year
import Intake.Registry

/-!
# Catalogue — the schemas of academic administration

All schemas of requests in the order in which they are registered.  The schema of a page is not
registered.
-/

namespace Intake.Catalogue

def schemas : List Schema := [
  createAcademicYear, updateAcademicYear, listAcademicYears, createTerm, updateTerm, listTerms,
  createGrade, updateGrade, listGrades,
  createUser, updateUser,
  createEnrollment, updateEnrollment, listEnrollments,
  createEnrollmentDetail, createEnrollmentDetailBatch, updateEnrollmentDetail, listEnrollmentDetails,
  createClassroom, updateClassroom, listClassrooms,
  createDegreeProgram, updateDegreeProgram, listDegreePrograms,
  createStudyPlan, updateStudyPlan, listStudyPlans,
  createLevel, updateLevel,
  createCourse, updateCourse, listCourses,
  createPrerequisite, updatePrerequisite, listPrerequisites,
  createCourseSection, updateCourseSection, listCourseSections,
  createSchedule, updateSchedule, listSchedules]

def registry : Registry := ⟨schemas, by decide +kernel⟩

end Intake.Catalogue
