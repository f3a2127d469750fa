import Intake.Proofs.Items
import Intake.Proofs.Reading

/-!
# Proofs — Blocks — which options are in effect where

The options in effect are one variable, which the blocks of a program set and put back.  Which of
them a command sees can be told without a variable, from where the command stands in the text: those
of the innermost block around it, and nothing else of what is around it.  `Command.course` runs
commands in this way, with the options handed down from a block to its steps, and it is what a
session does (`Command.run_perform`, `Command.run_performAll`).

A block gives back the options that it has found, no matter what is done in it and whether it is
left by an exception (`Effect.run_withOptions`).  A validation reads the options in effect, at
whatever depth (`Schema.computes_validate`).  All of this together is
`Command.options_follow_blocks`.
-/

namespace Intake

open Effect Validation

/-- How far commands get: what they answer and register, what they leave, and how they end. -/
structure Course where
  answers    : List Answer := []
  registered : List Schema := []
  ending     : Except Exception Unit := .ok ()
  scope      : Scope

theorem Check.coerce_items_iff {o : Options} {t : Schema} {m : Option String} {v w : Value} :
    (Check.items (some t) m).coerce o v = .ok w ↔
      v.items? = none ∧ v = w ∨
        ∃ items outs, v.items? = some items ∧ ItemsJudged (t.validate o) items outs ∧
          w = .list (List.zipWith replacement items outs) := by
  cases hv : v.items? with
  | none => simp [Check.coerce_items_of_no_list hv]
  | some items => simp [Check.coerce_items_eq_ok_iff hv]

namespace Course

/-- The second after the first, and how the second ends. -/
def andThen (x y : Course) : Course :=
  { y with answers := x.answers ++ y.answers, registered := x.registered ++ y.registered }

/-- The answers as a report has them, which ends with the failure if there is one. -/
def reported (x : Course) : List Answer :=
  match x.ending with
  | .error (.failure f) => x.answers ++ [.failed f]
  | _                   => x.answers

/-- A session after it, with the options that were in effect before. -/
def after (x : Course) (s : Session) : Session := { s with scope := x.scope, answers := s.answers ++ x.answers }

def outcome (x : Course) (s : Session) : Except Exception Unit × Session := (x.ending, x.after s)

/-- What is raised at once has changed nothing. -/
theorem outcome_error (e : Exception) (s : Session) :
    ({ ending := .error e, scope := s.scope } : Course).outcome s = (.error e, s) := by
  simp only [outcome, after, List.append_nil]

theorem after_andThen (x y : Course) (s : Session) : (x.andThen y).after s = y.after (x.after s) := by
  simp only [after, andThen, List.append_assoc]

theorem outcome_andThen (x y : Course) (s : Session) : (x.andThen y).outcome s = y.outcome (x.after s) :=
  congrArg (y.ending, ·) (after_andThen x y s)

theorem run_collected {x : Course} {body : Effect Unit} {s : Session}
    (h : body.run { s with answers := [] } = x.outcome { s with answers := [] }) :
    (collected body).run s = (.ok x.reported, { s with scope := x.scope }) := by
  rw [Effect.run_collected, h]
  obtain ⟨answers, registered, (f | _) | ⟨⟩, scope⟩ := x <;> rfl

end Course

namespace Command

/-! ### Options by where a command stands -/

mutual

/-- The course of a command where these are the options of the block around it. -/
def course (o : Options) : Command → Scope → Course
  | .query q, scope =>
    match (q.answer.run { scope, context := ⟨some o⟩ }).1 with
    | .ok a    => { answers := [a], scope }
    | .error e => { ending := .error e, scope }
  | .bind name e, scope =>
    match e.eval scope with
    | .ok schema =>
      { answers := [.bound schema], scope := { scope with bindings := (name, schema) :: scope.bindings } }
    | .error f   => { ending := .error (.failure f), scope }
  | .register e, scope =>
    match e.eval scope with
    | .ok schema =>
      match scope.registry.register? schema with
      | some r =>
        { answers := [.registered schema.name], registered := [schema], scope := { scope with registry := r } }
      | none   => { ending := .error (.failure (.definition (.alreadyRegistered schema.name))), scope }
    | .error f   => { ending := .error (.failure f), scope }
  | .registerOther v, scope => { ending := .error (.failure (.definition (.notASchema v.typeName))), scope }
  | .within forbid convert cs, scope => courseAll ⟨forbid.getD false, convert.getD false⟩ cs scope
  | .raise e, scope => { ending := .error e, scope }
  | .attempt cs handler, scope =>
    let x := courseAll o cs scope
    match x.ending with
    | .error (.failure f) =>
      (x.andThen { answers := [.failed f], scope := x.scope }).andThen (courseAll o handler x.scope)
    | _                   => x
  | .report cs, scope =>
    let x := courseAll o cs scope
    { answers := [.block x.reported o], registered := x.registered, scope := x.scope }
  | .program cs, scope => { answers := [.script (courseAll o cs {}).reported], scope }

/-- The course of commands in order, up to what is raised. -/
def courseAll (o : Options) : List Command → Scope → Course
  | [],      scope => { scope }
  | c :: cs, scope =>
    let x := course o c scope
    match x.ending with
    | .ok ()   => x.andThen (courseAll o cs x.scope)
    | .error _ => x

end

/-! ### What a session does -/

theorem run_query (q : Query) (s : Session) :
    (perform (.query q)).run s = (course s.options (.query q) s.scope).outcome s := by
  rw [perform, run_bind, q.isReading_answer s, course, Session.bare]
  cases (q.answer.run { scope := s.scope, context := ⟨some s.options⟩ }).1 with
  | ok a => rfl
  | error e => exact (Course.outcome_error e s).symm

theorem run_bindVariable (name : String) (e : SchemaExpr) (s : Session) :
    (bindVariable name e).run s = (course s.options (.bind name e) s.scope).outcome s := by
  rw [bindVariable, run_bind, run_eval, course]
  cases e.eval s.scope with
  | ok schema => rfl
  | error f => exact (Course.outcome_error _ s).symm

theorem run_registerSchema (e : SchemaExpr) (s : Session) :
    (registerSchema e).run s = (course s.options (.register e) s.scope).outcome s := by
  rw [registerSchema, run_bind, run_eval, course]
  cases e.eval s.scope with
  | ok schema =>
      refine (run_currentScope_bind _ s).trans ?_
      dsimp only
      cases s.scope.registry.register? schema with
      | some r => rfl
      | none => exact (Course.outcome_error _ s).symm
  | error f => exact (Course.outcome_error _ s).symm

mutual

/-- **A command in a session** takes the course that the options in effect and the scope
determine. -/
theorem run_perform (c : Command) (s : Session) :
    (perform c).run s = (course s.options c s.scope).outcome s := by
  cases c with
  | query q => exact run_query q s
  | bind name e => exact run_bindVariable name e s
  | register e => exact run_registerSchema e s
  | registerOther v => exact (Course.outcome_error _ s).symm
  | within forbid convert cs =>
      -- the session beneath has the options of the block, and the context is put back after it
      rw [perform, run_withOptions, run_performAll cs]
      rfl
  | raise e => exact (Course.outcome_error e s).symm
  | attempt cs handler =>
      rw [perform, run_tryCatch, run_performAll cs, course]
      generalize courseAll s.options cs s.scope = x
      obtain ⟨answers, registered, (f | _) | ⟨⟩, scope⟩ := x
      · -- the handler goes on from where the failure was raised, under the options out here
        rw [Course.outcome_andThen, Course.after_andThen]
        exact run_performAll handler _
      · rfl
      · rfl
  | report cs =>
      have h : (performAll cs).run { s with answers := [] } =
          (courseAll s.options cs s.scope).outcome { s with answers := [] } := run_performAll cs _
      rw [perform, run_bind, Course.run_collected h]
      rfl
  | program cs =>
      have h : (performAll cs).run { s with scope := {}, answers := [] } =
          (courseAll s.options cs {}).outcome { s with scope := {}, answers := [] } := run_performAll cs _
      rw [perform, run_bind, run_apart, Course.run_collected h]
      rfl

theorem run_performAll (cs : List Command) (s : Session) :
    (performAll cs).run s = (courseAll s.options cs s.scope).outcome s := by
  cases cs with
  | nil => simp only [performAll, courseAll, Course.outcome, Course.after, List.append_nil]; rfl
  | cons c cs =>
      rw [performAll, run_bind, run_perform c, courseAll]
      generalize course s.options c s.scope = x
      obtain ⟨answers, registered, _ | ⟨⟩, scope⟩ := x
      · rfl
      · rw [Course.outcome_andThen]
        exact run_performAll cs _

end

theorem runAll_eq (cs : List Command) (s : Session) :
    runAll cs s =
      ((courseAll s.options (cs.map guarded) s.scope).answers,
        { s with scope := (courseAll s.options (cs.map guarded) s.scope).scope }) := by
  rw [runAll, run_performAll]
  rfl

/-! ### Options in every run -/

theorem run_validate (e : SchemaExpr) (data : Value) (s : Session) :
    (Query.validate e data).answer.run s =
      ((e.eval s.scope).mapError .failure >>= fun schema =>
        raised (schema.validate s.options data) >>= fun out => .ok (.outcome out), s) := by
  rw [Query.answer, run_bind, run_eval]
  cases e.eval s.scope with
  | error f => rfl
  | ok schema =>
      change (schema.validateWith currentOptions data >>= fun out => pure (Answer.outcome out)).run s =
        (raised (schema.validate s.options data) >>= fun out => .ok (Answer.outcome out), s)
      rw [run_bind, schema.computes_validate s data]
      cases schema.validate s.options data <;> rfl

/-- **Options follow the blocks of a program.**  Commands take the course that is read off the text,
each under the options of the innermost block around it.  Whatever is done in a block, and however
it ends, what is not mentioned is off in it, and after it the variable is what it was before.  A
record is validated under the options in effect, and so are the items in it, to any depth. -/
theorem options_follow_blocks (s : Session) :
    (∀ c, (perform c).run s = (course s.options c s.scope).outcome s) ∧
      (∀ cs, (performAll cs).run s = (courseAll s.options cs s.scope).outcome s) ∧
      (∀ (α : Type) (body : Effect α) forbid convert,
        let t := s.beneath ⟨forbid.getD false, convert.getD false⟩
        (withOptions forbid convert body).run s = ((body.run t).1, { (body.run t).2 with context := s.context })) ∧
      (∀ e data, (Query.validate e data).answer.run s =
        ((e.eval s.scope).mapError .failure >>= fun schema =>
          raised (schema.validate s.options data) >>= fun out => .ok (.outcome out), s)) ∧
      (∀ schema data, (Schema.validateWith currentOptions schema data).run s =
        (raised (schema.validate s.options data), s)) ∧
      (∀ schema message v w t,
        (Check.coerceWith currentOptions (.items (some schema) message) v).run s = (.ok w, t) ↔
          t = s ∧ (v.items? = none ∧ v = w ∨
            ∃ items outs, v.items? = some items ∧ ItemsJudged (schema.validate s.options) items outs ∧
              w = .list (List.zipWith replacement items outs))) ∧
      ∀ schema message field v vs t,
        (Check.violationsWith currentOptions field (.items (some schema) message) v).run s = (.ok vs, t) ↔
          t = s ∧ ∃ outs, ItemsJudged (schema.validate s.options) (v.items?.getD [v]) outs ∧
            vs = itemReports field outs 0 := by
  refine ⟨fun c => run_perform c s, fun cs => run_performAll cs s, ?_, ?_, ?_, ?_, ?_⟩
  · exact fun _ body forbid convert => run_withOptions forbid convert body s
  · exact fun e data => run_validate e data s
  · exact fun schema data => schema.computes_validate s data
  · intro schema message v w t
    rw [(Check.computes_coerce (fun t _ => t.computes_validate s) v).run_eq_ok_iff, Check.coerce_items_iff]
  · intro schema message field v vs t
    rw [(Check.computes_violations (fun t _ => t.computes_validate s) field v).run_eq_ok_iff,
      Check.violations_items_eq_ok_iff]

/-- What is raised in the inner of two blocks leaves both, and none of their options behind. -/
example :
    (runAll [.report [.within (some true) none
        [.within none (some true) [.query .options, .query (.unwrap (.define "Empty" []) .null), .query .options],
          .query .options]],
      .query .options] {}).1 =
      [.block [.options ⟨false, true⟩, .failed (.rejected [notAnObject])] {}, .options {}] :=
  rfl

/-- The inner of two blocks takes nothing from the outer, which has its options back after it. -/
example :
    (runAll [.block { forbidUnknown := true }
        [.block { implicitConversion := true } [.query .options, .interrupt, .query .options], .query .options],
      .query .options] {}).1 =
      [.block [.block [.options ⟨false, true⟩] ⟨true, false⟩, .options ⟨true, false⟩] ⟨false, false⟩,
        .options ⟨false, false⟩] :=
  rfl

end Command

end Intake
