import Intake.Schema

/-!
# Schema — Equality — when two schemas are the same

Two schemas are the same if their names are and their rules, in order.  The condition of a rule is
not compared; everything else is, numbers by value and patterns by source.
-/

namespace Intake

/-- Two bounds are the same if both are missing or they are the same number. -/
def sameBound : Option Number → Option Number → Bool
  | none,   none   => true
  | some a, some b => a.sameAs b
  | _,      _      => false

/-- The tests without parameters. -/
def Test.isPlain : Test → Bool
  | .string | .boolean | .uuid | .date | .notEmpty | .email | .unspecified => true
  | _                                                                      => false

def Test.sameAs : Test → Test → Bool
  | .integer a b,  .integer c d  => sameBound a c && sameBound b d
  | .number a b m, .number c d n => sameBound a c && sameBound b d && m == n
  | .oneOf ws,     .oneOf vs     => decide (ws = vs)
  | .maxLength m,  .maxLength n  => m == n
  | .minLength m,  .minLength n  => m == n
  | .matching p,   .matching q   => p.source == q.source
  | .array m,      .array n      => m == n
  | t,             u             => t.isPlain && u.isPlain && t.name == u.name

mutual

def Schema.sameAs : Schema → Schema → Bool
  | ⟨n, rs⟩, ⟨m, ss⟩ => n == m && Rule.sameList rs ss

def Rule.sameAs : Rule → Rule → Bool
  | ⟨n, cs, q, d, _⟩, ⟨m, ds, r, e, _⟩ => n == m && Check.sameList cs ds && q == r && d.sameAs e

def Rule.sameList : List Rule → List Rule → Bool
  | [],      []      => true
  | r :: rs, s :: ss => r.sameAs s && Rule.sameList rs ss
  | _,       _       => false

def Check.sameAs : Check → Check → Bool
  | .test t m,         .test u n         => t.sameAs u && m == n
  | .items none m,     .items none n     => m == n
  | .items (some s) m, .items (some t) n => s.sameAs t && m == n
  | _,                 _                 => false

def Check.sameList : List Check → List Check → Bool
  | [],      []      => true
  | c :: cs, d :: ds => c.sameAs d && Check.sameList cs ds
  | _,       _       => false

end

end Intake
