import Intake.Proofs.Nesting
import Intake.Session

/-!
# Proofs — Reading — what is read of a session

A validation in a session asks for the options in effect wherever a record is validated, also where
that record is an item of another one.  It comes to what is computed without a session under these
options, and leaves the session as it was (`Schema.computes_validate`).

A query reads the scope and the options in effect, and nothing else of a session
(`Query.isReading_answer`).
-/

namespace Intake

open Validation

namespace Effect

variable {α β : Type} {s : Session}

/-- A fault as it is raised in a session. -/
def raised (e : Except Fault α) : Except Exception α := e.mapError fun f => .failure (.fault f)

/-- In this session the action is a computation that has no need of it. -/
def Computes (s : Session) (x : Effect α) (e : Except Fault α) : Prop := x.run s = (raised e, s)

theorem computes_pure (a : α) : Computes s (pure a) (pure a) := rfl

theorem computes_lift (e : Except Fault α) : Computes s (liftM e) e := rfl

theorem Computes.run_eq_ok_iff {x : Effect α} {e : Except Fault α} (h : Computes s x e) {a : α} {t : Session} :
    x.run s = (.ok a, t) ↔ t = s ∧ e = .ok a := by
  rw [h, Prod.mk.injEq, and_comm, eq_comm]
  refine and_congr_right fun _ => ?_
  cases e with
  | error f => exact ⟨nofun, nofun⟩
  | ok b => exact ⟨fun h => congrArg _ (Except.ok.inj h), fun h => congrArg _ (Except.ok.inj h)⟩

theorem Computes.bind {x : Effect α} {e : Except Fault α} {f : α → Effect β} {g : α → Except Fault β}
    (hx : Computes s x e) (hf : ∀ a, Computes s (f a) (g a)) : Computes s (x >>= f) (e >>= g) := by
  rw [Computes, run_bind, hx]
  cases e with
  | error => rfl
  | ok a => exact hf a

/-- What follows on asking for the options goes on with those in effect. -/
theorem Computes.reading {f : Options → Effect α} {e : Except Fault α}
    (h : Computes s (f s.options) e) : Computes s (currentOptions >>= f) e :=
  h

theorem computes_mapM {f : α → Effect β} {g : α → Except Fault β} {xs : List α}
    (h : ∀ a ∈ xs, Computes s (f a) (g a)) : Computes s (xs.mapM f) (xs.mapM g) := by
  induction xs with
  | nil => exact computes_pure []
  | cons a xs ih =>
      rw [List.mapM_cons, List.mapM_cons]
      exact (h a List.mem_cons_self).bind fun _ =>
        (ih fun b hb => h b (List.mem_cons_of_mem _ hb)).bind fun _ => computes_pure _

end Effect

open Effect

/-! ### Validations -/

section

variable {s : Session} {judge : Value → Effect Outcome} {judge' : Value → Except Fault Outcome}

theorem Validation.computes_replaceItem (h : ∀ v, Computes s (judge v) (judge' v)) (item : Value) :
    Computes s (replaceItem judge item) (replaceItem judge' item) := by
  cases item with
  | record r =>
      refine (h (.record r)).bind fun out => ?_
      cases out <;> exact computes_pure _
  | _ => exact computes_pure _

theorem Validation.computes_reportItem (h : ∀ v, Computes s (judge v) (judge' v)) (field : String)
    (item : Value × Nat) : Computes s (reportItem judge field item) (reportItem judge' field item) := by
  obtain ⟨item, i⟩ := item
  cases item with
  | record r =>
      refine (h (.record r)).bind fun out => ?_
      cases out <;> exact computes_pure _
  | _ => exact computes_pure _

end

/-- A schema is validated in a session as it is under the options in effect there. -/
def Schema.ReadsOptions (s : Session) (schema : Schema) : Prop :=
  ∀ v, Computes s (schema.validateWith currentOptions v) (schema.validate s.options v)

section

variable {s : Session} {c : Check}

theorem Check.computes_coerce (h : ∀ t, c.nested? = some t → t.ReadsOptions s) (v : Value) :
    Computes s (c.coerceWith currentOptions v) (c.coerce s.options v) := by
  rcases c with ⟨t, m⟩ | ⟨_ | schema, m⟩
  · exact computes_pure _
  · exact computes_pure _
  · rw [Check.coerce_items_some, Check.coerceWith]
    cases v.items? with
    | none => exact computes_pure _
    | some items =>
        exact (computes_mapM fun item _ => computes_replaceItem (h schema rfl) item).bind fun _ =>
          computes_pure _

theorem Check.computes_violations (h : ∀ t, c.nested? = some t → t.ReadsOptions s) (field : String)
    (v : Value) :
    Computes s (c.violationsWith currentOptions field v) (c.violations s.options field v) := by
  rcases c with ⟨t, m⟩ | ⟨_ | schema, m⟩
  · exact (computes_lift _).bind fun _ => computes_pure _
  · exact computes_pure _
  · exact (computes_mapM fun item _ => computes_reportItem (h schema rfl) field item).bind fun _ =>
      computes_pure _

theorem Check.computes_chain {checks : List Check}
    (h : ∀ c ∈ checks, ∀ t, c.nested? = some t → t.ReadsOptions s) (field : String) (v : Value) :
    Computes s (Check.chainWith currentOptions s.options field checks v)
      (Check.chain s.options field checks v) := by
  induction checks generalizing v with
  | nil => exact computes_pure _
  | cons c checks ih =>
      have hc := h c List.mem_cons_self
      refine (computes_lift _).bind fun v => (computes_coerce hc v).bind fun v =>
        (computes_violations hc field v).bind fun ws => ?_
      cases ws with
      | nil => exact ih (fun c' hc' => h c' (List.mem_cons_of_mem _ hc')) v
      | cons => exact computes_pure _

theorem Rule.computes_judge {rule : Rule}
    (h : ∀ c ∈ rule.checks, ∀ t, c.nested? = some t → t.ReadsOptions s) (r : Entries) :
    Computes s (rule.judgeWith currentOptions s.options r) (rule.judge s.options r) := by
  obtain ⟨name, checks, required, default, condition⟩ := rule
  rw [Rule.judge_eq, Rule.judgeWith]
  split
  · cases r.get? name with
    | none => exact computes_pure _
    | some v =>
        cases v with
        | null => exact computes_pure _
        | _ => exact (Check.computes_chain h name _).bind fun _ => computes_pure _
  · exact computes_pure _

theorem Rule.computes_judgeAll {rules : List Rule}
    (h : ∀ rule ∈ rules, ∀ c ∈ rule.checks, ∀ t, c.nested? = some t → t.ReadsOptions s) (r : Entries) :
    Computes s (Rule.judgeAllWith currentOptions s.options rules r) (Rule.judgeAll s.options rules r) := by
  induction rules with
  | nil => exact computes_pure _
  | cons rule rules ih =>
      exact (computes_judge (h rule List.mem_cons_self) r).bind fun _ =>
        (ih fun rule' h' => h rule' (List.mem_cons_of_mem _ h')).bind fun _ => computes_pure _

end

/-- **A validation in a session**, at whatever depth, is one under the options in effect. -/
theorem Schema.computes_validate (s : Session) (schema : Schema) : schema.ReadsOptions s := by
  induction schema using Schema.nesting_induction with
  -- the session is the same wherever the options are asked for, as no part of a validation changes it
  | step schema ih =>
      intro v
      obtain ⟨name, rules⟩ := schema
      cases v with
      | record r =>
          rw [Schema.validate_record]
          refine Computes.reading ?_
          exact (Rule.computes_judgeAll (fun _ hr => Schema.forall_nested_of_rule ih hr) r).bind fun _ =>
            computes_lift _
      | _ => exact computes_pure _

theorem Check.computes_examine (s : Session) (c : Check) (v : Value) :
    Computes s (c.examineWith currentOptions v) (c.examineWith (.ok s.options) v) := by
  cases c with
  | test t m => exact (computes_lift _).bind fun _ => computes_pure _
  | items nested m =>
      exact (computes_violations (fun t _ => t.computes_validate s) "" v).bind fun _ => computes_pure _

/-! ### Queries -/

/-- Scope and options of a session, and nothing else of it. -/
def Session.bare (s : Session) : Session := { scope := s.scope, context := ⟨some s.options⟩ }

theorem Session.bare_bare (s : Session) : s.bare.bare = s.bare := rfl

namespace Effect

variable {α β : Type}

/-- The action leaves the session as it was, and nothing but scope and options matter to it. -/
def IsReading (x : Effect α) : Prop := ∀ s : Session, x.run s = ((x.run s.bare).1, s)

theorem isReading_pure (a : α) : IsReading (pure a) := fun _ => rfl

theorem isReading_throw (e : Exception) : IsReading (throw e : Effect α) := fun _ => rfl

theorem isReading_lift (e : Except Failure α) : IsReading (liftM e : Effect α) := fun _ => rfl

theorem isReading_currentScope : IsReading currentScope := fun _ => rfl

theorem isReading_currentOptions : IsReading currentOptions := fun _ => rfl

theorem isReading_of_computes {x : Effect α} {f : Options → Except Fault α}
    (h : ∀ s, Computes s x (f s.options)) : IsReading x := by
  intro s
  rw [h s, h s.bare]
  rfl

theorem IsReading.bind {x : Effect α} {f : α → Effect β} (hx : IsReading x) (hf : ∀ a, IsReading (f a)) :
    IsReading (x >>= f) := by
  intro s
  rw [run_bind, run_bind, hx s, hx s.bare, s.bare_bare]
  cases (x.run s.bare).1 with
  | error => rfl
  | ok a => exact hf a s

theorem IsReading.captured {x : Effect α} (hx : IsReading x) : IsReading (captured x) := by
  intro s
  rw [run_captured, run_captured, hx s, hx s.bare, s.bare_bare]
  rcases (x.run s.bare).1 with (f | _) | _
  · cases f <;> rfl
  · rfl
  · rfl

theorem run_eval (e : SchemaExpr) (s : Session) : (eval e).run s = ((e.eval s.scope).mapError .failure, s) := rfl

theorem isReading_eval (e : SchemaExpr) : IsReading (eval e) :=
  isReading_currentScope.bind fun scope => isReading_lift (e.eval scope)

theorem isReading_validate (schema : Schema) (v : Value) : IsReading (schema.validateWith currentOptions v) :=
  isReading_of_computes (f := (schema.validate · v)) fun s => schema.computes_validate s v

end Effect

namespace Query

theorem isReading_probeCheck (c : Check) (field : String) (v : Value) : IsReading (probeCheck c field v) := by
  have hfinding := isReading_of_computes (f := fun o => c.examineWith (.ok o) v) fun s =>
    c.computes_examine s v
  have hcoerced := isReading_of_computes (f := (c.coerce · v)) fun s =>
    Check.computes_coerce (fun t _ => t.computes_validate s) v
  have hviolations := isReading_of_computes (f := (c.violations · field v)) fun s =>
    Check.computes_violations (fun t _ => t.computes_validate s) field v
  exact hfinding.captured.bind fun _ => hcoerced.captured.bind fun _ => hviolations.captured.bind fun _ =>
    isReading_pure _

/-- A query does nothing but read. -/
theorem isReading_answer (q : Query) : IsReading q.answer := by
  cases q with
  | validate e data =>
      exact (isReading_eval e).bind fun schema => (isReading_validate schema data).bind fun _ => isReading_pure _
  | unwrap e data =>
      refine (isReading_eval e).bind fun schema => (isReading_validate schema data).bind fun out => ?_
      cases out with
      | valid r => exact isReading_pure _
      | invalid vs => exact isReading_throw _
  | probe c field v =>
      refine isReading_currentScope.bind fun scope => (isReading_lift (c.eval scope)).bind fun c => ?_
      cases c with
      | inl check => exact (isReading_probeCheck check field v).bind fun _ => isReading_pure _
      | inr other => exact isReading_lift _
  | describe e => exact (isReading_eval e).bind fun _ => isReading_pure _
  | inspect r data =>
      exact isReading_currentScope.bind fun scope => (isReading_lift (r.eval scope)).bind fun _ => isReading_pure _
  | lookup e name => exact (isReading_eval e).bind fun _ => isReading_pure _
  | compare a b => exact (isReading_eval a).bind fun _ => (isReading_eval b).bind fun _ => isReading_pure _
  | merge base overrides =>
      exact isReading_currentScope.bind fun scope => (isReading_lift _).bind fun _ =>
        isReading_currentScope.bind fun scope => (isReading_lift _).bind fun _ => isReading_pure _
  | compile e => exact (isReading_eval e).bind fun _ => isReading_pure _
  | catalogue => exact isReading_pure _
  | options => exact isReading_currentOptions.bind fun _ => isReading_pure _
  | registry candidates => exact isReading_currentScope.bind fun _ => isReading_pure _

end Query

end Intake
