import Intake.Catalogue.Field

/-!
# Catalogue — Year — academic years and their terms
-/

namespace Intake.Catalogue

def firstYear : Int := 2000

def termStatuses : List String := ["planned", "active", "finished", "pending", "completed"]

def createAcademicYear : Schema := ⟨"CreateAcademicYearDto", [
  required "year" [integerFrom firstYear],
  required "name" [string, notEmpty, minLength 3],
  required "start_date" [date],
  required "end_date" [date]]⟩

def updateAcademicYear : Schema := update "UpdateAcademicYearDto" createAcademicYear requiredId

def listAcademicYears : Schema := listing "ListAcademicYearDto" [
  optional "year" [integerFrom firstYear]]

def createTerm : Schema := ⟨"CreateTermDto", [
  optional "academic_year_id" [uuid],
  optional "year" [integerFrom firstYear],
  required "name" [string, notEmpty, minLength 3],
  required "start_date" [date],
  required "end_date" [date],
  required "status" [oneOf termStatuses]]⟩

def updateTerm : Schema := update "UpdateTermDto" createTerm requiredId

def listTerms : Schema := listing "ListTermDto" [
  optional "academic_year_id" [uuid],
  optional "status" [oneOf termStatuses]]

end Intake.Catalogue
