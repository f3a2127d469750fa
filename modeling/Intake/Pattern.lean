import Intake.Pattern.Match
import Intake.Pattern.Reader

/-!
# Pattern — a regular expression with its source

Two patterns are the same if their sources are.  A pattern accepts a text that it matches from its
start to its end.
-/

namespace Intake

structure Pattern where
  source : String
  node   : Pattern.Node

namespace Pattern

def compile (source : String) : Except Fault Pattern := do
  return ⟨source, ← Node.read source.toList⟩

def accepts (p : Pattern) (text : String) : Bool := p.node.isMatch text.toList

example : ((compile "a{2,3}|[^b-d]\\1").toOption.map (·.node)).isNone = true := by decide +kernel
example : ((compile "(a|b)*\\1").toOption.map (·.node)) = some
    (.seq (.repeated 0 none .greedy (.group 1 (.alt (.char 'a') (.char 'b')))) (.reference 1)) := by
  decide +kernel

end Pattern

end Intake
