import Intake.Answer
import Intake.Calendar.Date
import Intake.Calendar.IsoReader
import Intake.Calendar.IsoWriter
import Intake.Calendar.Moment
import Intake.Catalogue
import Intake.Catalogue.Enrollment
import Intake.Catalogue.Field
import Intake.Catalogue.Offer
import Intake.Catalogue.Timetable
import Intake.Catalogue.User
import Intake.Catalogue.Year
import Intake.Command
import Intake.Context
import Intake.Definition
import Intake.Effect
import Intake.Failure
import Intake.Fault
import Intake.Model
import Intake.Number
import Intake.Number.Binary64
import Intake.Number.Decimal
import Intake.Number.Integer
import Intake.Number.Shortest
import Intake.Number.Written
import Intake.Options
import Intake.Pattern
import Intake.Pattern.Fault
import Intake.Pattern.Match
import Intake.Pattern.Node
import Intake.Pattern.Reader
import Intake.Pattern.Standard
import Intake.Registry
import Intake.Schema
import Intake.Schema.Algebra
import Intake.Schema.Equality
import Intake.Schema.Parameters
import Intake.Session
import Intake.Test
import Intake.Test.Convert
import Intake.Test.Examine
import Intake.Text.Blank
import Intake.Text.DecimalDigit
import Intake.Text.Hidden
import Intake.Text.Quoted
import Intake.Text.Units
import Intake.Text.WordCharacter
import Intake.Validation
import Intake.Value
import Intake.Value.Equality
import Intake.Value.Shown
import Intake.Violation
import Intake.WordSet
import Intake.Proofs.Computation
import Intake.Proofs.Contribution
import Intake.Proofs.Remaking
import Intake.Proofs.Chain
import Intake.Proofs.Nesting
import Intake.Proofs.Items
import Intake.Proofs.Lasting
import Intake.Proofs.Leniency
import Intake.Proofs.Requirement
import Intake.Proofs.Writing
import Intake.Proofs.Spelling
import Intake.Proofs.Numeral
import Intake.Proofs.Answer
import Intake.Proofs.Batch
import Intake.Proofs.Bulk
import Intake.Proofs.Independence
import Intake.Proofs.Mapping
import Intake.Proofs.Arrangement
import Intake.Proofs.Relaxation
import Intake.Proofs.Patch
import Intake.Proofs.Merging
import Intake.Proofs.Update
import Intake.Proofs.Editing
import Intake.Proofs.Omission
import Intake.Proofs.Query
import Intake.Proofs.Page
import Intake.Proofs.Dating
import Intake.Proofs.Wording
import Intake.Proofs.Typing
import Intake.Proofs.ReadBack
import Intake.Proofs.Reading
import Intake.Proofs.Blocks
import Intake.Proofs.Registration
import Intake.Proofs.Language
import Intake.Proofs.Format
import Intake.Proofs.Standard
import Intake.Proofs.Clock
import Intake.Proofs.Normalisation
import Intake.Proofs.Provenance
import Intake.Proofs.Magnitude
import Intake.Proofs.Whole
