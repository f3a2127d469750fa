import Intake.Answer
import Intake.Command
import Intake.Context

/-!
# Effect — what is done in a session

A session has a scope, which holds its variables and its registry, the context of the options, and
what has been answered so far.  What is done in it may change it and may raise an exception, and
what has been changed before that stays changed.

A block sets the options and puts back those before them when it ends, no matter how
(`Effect.withOptions`).  Answers are collected and scopes are exchanged in the same way.
-/

namespace Intake

structure Session where
  scope   : Scope := {}
  context : Context := {}
  /-- What has been answered so far. -/
  answers : List Answer := []

namespace Session

/-- The options in effect. -/
def options (s : Session) : Options := s.context.options

def eval (s : Session) (e : SchemaExpr) : Except Failure Schema := e.eval s.scope

/-- The session in a block with these options. -/
def beneath (s : Session) (o : Options) : Session := { s with context := ⟨some o⟩ }

end Session

abbrev Effect := ExceptT Exception (StateM Session)

namespace Effect

variable {α β : Type}

instance : MonadLift (Except Failure) Effect where
  monadLift x := ExceptT.mk (pure (x.mapError .failure))

instance : MonadLift (Except Fault) Effect where
  monadLift x := ExceptT.mk (pure (x.mapError fun f => .failure (.fault f)))

def currentScope : Effect Scope := do return (← get).scope

def currentOptions : Effect Options := do return (← get).options

def setOptions (o : Options) : Effect Token :=
  modifyGet fun s =>
    let (t, x) := s.context.set o
    (t, { s with context := x })

def resetOptions (t : Token) : Effect Unit := modify fun s => { s with context := s.context.reset t }

/-- What is done in a block with options of its own; those that are not mentioned are off. -/
def withOptions (forbidUnknown implicitConversion : Option Bool) (body : Effect α) : Effect α := do
  let token ← setOptions (.mentioning forbidUnknown implicitConversion)
  try body
  finally resetOptions token

def answer (a : Answer) : Effect Unit := modify fun s => { s with answers := s.answers ++ [a] }

/-- What is answered on the way, as far as it goes; a failure is the last answer. -/
def collected (body : Effect Unit) : Effect (List Answer) := do
  let before ← modifyGet fun s => (s.answers, { s with answers := [] })
  tryCatch body fun
    | .failure f    => answer (.failed f)
    | .interruption => pure ()
  modifyGet fun s => (s.answers, { s with answers := before })

/-- What is done with variables and a registry of its own. -/
def apart (body : Effect α) : Effect α := do
  let before ← modifyGet fun s => (s.scope, { s with scope := {} })
  try body
  finally modify fun s => { s with scope := before }

/-- A fault as a result. -/
def captured (body : Effect α) : Effect (Except Fault α) :=
  tryCatch (do return .ok (← body)) fun
    | .failure (.fault f) => pure (.error f)
    | e                   => throw e

/-! ### Runs -/

theorem run_bind (x : Effect α) (f : α → Effect β) (s : Session) :
    (x >>= f).run s =
      match x.run s with
      | (.ok a, t)    => (f a).run t
      | (.error e, t) => (.error e, t) := by
  simp only [bind, ExceptT.bind, ExceptT.bindCont, StateT.bind, ExceptT.mk, ExceptT.run]
  rcases x s with ⟨_ | _, t⟩ <;> rfl

theorem run_currentScope_bind (f : Scope → Effect α) (s : Session) :
    (currentScope >>= f).run s = (f s.scope).run s :=
  rfl

theorem run_tryCatch (x : Effect α) (handler : Exception → Effect α) (s : Session) :
    (tryCatch x handler).run s =
      match x.run s with
      | (.ok a, t)    => (.ok a, t)
      | (.error e, t) => (handler e).run t := by
  simp only [tryCatch, tryCatchThe, MonadExceptOf.tryCatch, ExceptT.tryCatch, bind, StateT.bind,
    ExceptT.mk, ExceptT.run]
  rcases x s with ⟨_ | _, t⟩ <;> rfl

/-- What is to be done finally is done no matter how the rest has ended, which is how all ends. -/
theorem run_tryFinally (x : Effect α) (change : Session → Session) (s : Session) :
    (tryFinally x (modify change)).run s = ((x.run s).1, change (x.run s).2) := by
  simp only [tryFinally, MonadFinally.tryFinally', Functor.map, ExceptT.map, bind, StateT.bind,
    ExceptT.mk, ExceptT.run]
  rcases x s with ⟨_ | _, t⟩ <;> rfl

theorem run_withOptions (forbid convert : Option Bool) (body : Effect α) (s : Session) :
    (withOptions forbid convert body).run s =
      ((body.run (s.beneath (.mentioning forbid convert))).1,
        { (body.run (s.beneath (.mentioning forbid convert))).2 with context := s.context }) := by
  rw [withOptions, run_bind]
  exact run_tryFinally body _ _

theorem run_apart (body : Effect α) (s : Session) :
    (apart body).run s =
      ((body.run { s with scope := {} }).1,
        { (body.run { s with scope := {} }).2 with scope := s.scope }) := by
  rw [apart, run_bind]
  exact run_tryFinally body _ _

theorem run_collected (body : Effect Unit) (s : Session) :
    (collected body).run s =
      match body.run { s with answers := [] } with
      | (.error (.failure f), t) => (.ok (t.answers ++ [.failed f]), { t with answers := s.answers })
      | (_, t)                   => (.ok t.answers, { t with answers := s.answers }) := by
  rw [collected, run_bind]
  refine (run_bind _ _ _).trans ?_
  rw [run_tryCatch]
  rcases body.run { s with answers := [] } with ⟨(_ | _) | _, t⟩ <;> rfl

theorem run_captured (body : Effect α) (s : Session) :
    (captured body).run s =
      match body.run s with
      | (.ok a, t)                       => (.ok (.ok a), t)
      | (.error (.failure (.fault f)), t) => (.ok (.error f), t)
      | (.error e, t)                    => (.error e, t) := by
  rw [captured, run_tryCatch, run_bind]
  rcases body.run s with ⟨(f | _) | _, t⟩
  · cases f <;> rfl
  · rfl
  · rfl

end Effect

end Intake
