import Intake.Text.Quoted

/-!
# Pattern — Fault — why a text is no pattern

Each fault has a place in the pattern; a pattern of several lines is told the line and column of the
place as well.
-/

namespace Intake.Pattern

inductive Problem where
  | unterminatedGroup
  | unbalancedParenthesis
  | unterminatedSet
  | badRange (low high : List Char)
  | nothingToRepeat
  | multipleRepeat
  | reversedBounds
  | trailingBackslash
  | badEscape (escape : List Char)
  | incompleteEscape (escape : List Char)
  | octalTooLarge (escape : List Char)
  | missingGroupName
  | unterminatedGroupName (closing : Char)
  | badGroupName (name : List Char)
  | repeatedGroupName (name : List Char) (index before : Nat)
  | unknownGroupName (name : List Char)
  | unterminatedComment
  | unexpectedEnd
  | unknownExtension (extension : List Char)
  | unknownGroup (index : Nat)
  | openGroup
deriving DecidableEq, Repr

def Problem.message : Problem → String
  | .unterminatedGroup      => "missing ), unterminated subpattern"
  | .unbalancedParenthesis  => "unbalanced parenthesis"
  | .unterminatedSet        => "unterminated character set"
  | .badRange low high      => "bad character range " ++ String.ofList (low ++ '-' :: high)
  | .nothingToRepeat        => "nothing to repeat"
  | .multipleRepeat         => "multiple repeat"
  | .reversedBounds         => "min repeat greater than max repeat"
  | .trailingBackslash      => "bad escape (end of pattern)"
  | .badEscape e            => "bad escape " ++ String.ofList e
  | .incompleteEscape e     => "incomplete escape " ++ String.ofList e
  | .octalTooLarge e        => "octal escape value " ++ String.ofList e ++ " outside of range 0-0o377"
  | .missingGroupName       => "missing group name"
  | .unterminatedGroupName c => "missing " ++ String.singleton c ++ ", unterminated name"
  | .badGroupName name      => "bad character in group name " ++ Text.quoted (String.ofList name)
  | .repeatedGroupName name i j =>
    "redefinition of group name " ++ Text.quoted (String.ofList name) ++ " as group " ++ toString i
      ++ "; was group " ++ toString j
  | .unknownGroupName name  => "unknown group name " ++ Text.quoted (String.ofList name)
  | .unterminatedComment    => "missing ), unterminated comment"
  | .unexpectedEnd          => "unexpected end of pattern"
  | .unknownExtension e     => "unknown extension " ++ String.ofList e
  | .unknownGroup i         => "invalid group reference " ++ toString i
  | .openGroup              => "cannot refer to an open group"

structure Fault where
  problem  : Problem
  position : Nat
deriving DecidableEq, Repr

/-- The line of a position, counted from one, and the column in it. -/
def lineAndColumn (source : List Char) (position : Nat) : Nat × Nat :=
  let before := source.take position
  (before.count '\n' + 1, (before.reverse.takeWhile (· != '\n')).length + 1)

def Fault.message (f : Fault) (source : List Char) : String :=
  let (line, column) := lineAndColumn source f.position
  f.problem.message ++ " at position " ++ toString f.position
    ++ (if '\n' ∈ source then " (line " ++ toString line ++ ", column " ++ toString column ++ ")" else "")

end Intake.Pattern
