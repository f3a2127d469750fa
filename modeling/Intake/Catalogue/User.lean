import Intake.Catalogue.Field

/-!
# Catalogue — User — users and their roles

The fields of students and of teachers apply only to records with that role.
-/

namespace Intake.Catalogue

def roles : List String := ["ADMIN", "STUDENT", "TEACHER"]

/-- An upper-case letter, a lower-case letter, and a digit or a character that no word has; not a
point in front, and one line only. -/
def password : Pattern where
  source := "(?:(?=.*\\d)|(?=.*\\W+))(?![.\\n])(?=.*[A-Z])(?=.*[a-z]).*$"
  node   := .sequence [
    .alt (.look false (.seq anything (.ofCategory .digit false)))
      (.look false (.seq anything (.repeated 1 none .greedy (.ofCategory .word true)))),
    .look true (.set false [.range 0x2E 0x2E, .range 0x0A 0x0A]),
    .look false (.seq anything (.set false [.range 0x41 0x5A])),
    .look false (.seq anything (.set false [.range 0x61 0x7A])),
    anything,
    .anchor .lineEnd]
where
  anything : Pattern.Node := .repeated 0 none .greedy .any

example : (Pattern.Node.read password.source.toList).toOption = some password.node := by decide +kernel

def passwordMessage : String := "password must contain an uppercase letter, a lowercase letter and a number"

def isStudent : Condition := .equals "role" (.text "STUDENT")

def isTeacher : Condition := .equals "role" (.text "TEACHER")

def createUser : Schema := ⟨"CreateUserDto", [
  required "email" [plain .email, notEmpty],
  required "password" [string, minLength 6, maxLength 50, .test (.matching password) (some passwordMessage)],
  required "firstName" [string, minLength 1, notEmpty],
  required "lastName" [string, minLength 1, notEmpty],
  required "role" [oneOf roles, notEmpty],
  optional "phone" [string],
  onlyIf isStudent (optional "studentCode" [string]),
  onlyIf isStudent (required "studyPlanId" [uuid, notEmpty]),
  onlyIf isStudent (optional "nationalId" [string]),
  onlyIf isStudent (optional "birthDate" [date]),
  onlyIf isTeacher (optional "teacherCode" [string]),
  onlyIf isTeacher (optional "teacherNationalId" [string]),
  onlyIf isTeacher (optional "teacherBirthDate" [date]),
  onlyIf isTeacher (optional "department" [string])]⟩

/-- The fields of an update that ask for less than those of a new user. -/
def userProfile : Schema := ⟨"UpdateUserProfile", [
  optional "firstName" [string, minLength 1],
  optional "lastName" [string, minLength 1],
  optional "phone" [string]]⟩

def updateUser : Schema := .compose "UpdateUserDto" [createUser.derivePartial none, userProfile]

end Intake.Catalogue
