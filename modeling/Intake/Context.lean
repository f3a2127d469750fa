import Intake.Options

/-!
# Context — the options in effect

The options in effect are kept in a variable, which has a default as long as it has not been set.
Setting it gives a token, and the token puts back what the setting has replaced.
-/

namespace Intake

/-- What the variable has been set to, if it has been set. -/
structure Context where
  setting : Option Options := none

/-- What a setting has replaced. -/
structure Token where
  replaced : Option Options

namespace Context

/-- The options in effect. -/
def options (x : Context) : Options := x.setting.getD {}

def set (x : Context) (o : Options) : Token × Context := (⟨x.setting⟩, ⟨some o⟩)

/-- A token takes no notice of what has been set since. -/
def reset (_ : Context) (t : Token) : Context := ⟨t.replaced⟩

end Context

end Intake
