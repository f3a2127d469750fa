import Intake.Proofs.Blocks

/-!
# Proofs — Registration — what a registry keeps

The registry of a session only grows, by the schema of each registration that succeeds
(`Command.course_registry`): these schemas in order, which are part of the course that commands take
(`Command.registeredAll`), are all that it holds.  Names stay unique, because the registration of a
name that is taken fails, and a command that fails changes nothing (`Command.run_of_failed`).  So a
lookup that has found a schema finds it ever after (`Command.eval_registered_runAll`).  All of this
together is `Command.registry_append_only`.
-/

namespace Intake

namespace Registry

variable {r r' : Registry} {s : Schema}

theorem register?_eq_none_iff : r.register? s = none ↔ s.name ∈ r.names := by
  simp [register?]

theorem register?_eq_some_iff :
    r.register? s = some r' ↔ s.name ∉ r.names ∧ r'.schemas = r.schemas ++ [s] := by
  obtain ⟨schemas, distinct⟩ := r'
  by_cases h : s.name ∈ r.names
  · simp [register?, h]
  · simp [register?, h, eq_comm]

theorem contains_iff {name : String} : r.contains name = true ↔ ∃ s ∈ r.schemas, s.name = name := by
  simp [contains, names]

end Registry

theorem found_eq (r : Registry) (name : String) :
    found r name = (r.schemas.find? (·.name == name)).elim (.error (.unknownSchema name)) .ok := by
  rw [found, Registry.get?]
  cases r.schemas.find? (·.name == name) <;> rfl

theorem found_eq_ok_iff {r : Registry} {name : String} {s : Schema} :
    found r name = .ok s ↔ r.schemas.find? (·.name == name) = some s := by
  rw [found_eq]
  cases r.schemas.find? (·.name == name) <;> simp

/-- The registry of a session consists of these schemas, in all views of it. -/
structure Session.HasRegistered (t : Session) (schemas : List Schema) : Prop where
  iteration : t.scope.registry.schemas = schemas
  names     : t.scope.registry.names = schemas.map (·.name)
  distinct  : (schemas.map (·.name)).Nodup
  size      : t.scope.registry.size = schemas.length
  contains  : ∀ name, t.scope.registry.contains name = true ↔ ∃ s ∈ schemas, s.name = name
  /-- The schema of the first with a name, and none under any other name. -/
  lookup    : ∀ name, t.eval (.registered name) =
    (schemas.find? (·.name == name)).elim (.error (.unknownSchema name)) .ok

theorem Session.hasRegistered_iff {t : Session} {schemas : List Schema} :
    t.HasRegistered schemas ↔ t.scope.registry.schemas = schemas := by
  refine ⟨fun h => h.iteration, ?_⟩
  rintro rfl
  exact ⟨rfl, rfl, t.scope.registry.distinct, rfl, fun _ => Registry.contains_iff, found_eq _⟩

namespace Command

/-! ### Registrations -/

/-- The schemas that commands register, each an attempt of its own, up to an interruption. -/
def registeredAll (cs : List Command) (s : Session) : List Schema :=
  (courseAll s.options (cs.map guarded) s.scope).registered

mutual

/-- A command appends to the registry what it registers, and changes nothing else of it. -/
theorem course_registry (o : Options) (c : Command) (scope : Scope) :
    (course o c scope).scope.registry.schemas = scope.registry.schemas ++ (course o c scope).registered := by
  cases c with
  | query q =>
      rw [course]
      split <;> exact (List.append_nil _).symm
  | bind name e =>
      rw [course]
      split <;> exact (List.append_nil _).symm
  | register e =>
      rw [course]
      split
      · split
        · exact (Registry.register?_eq_some_iff.mp ‹_›).2
        · exact (List.append_nil _).symm
      · exact (List.append_nil _).symm
  | within forbid convert cs => exact courseAll_registry _ cs scope
  | attempt cs handler =>
      have hcs := courseAll_registry o cs scope
      rw [course]
      split
      · simp only [Course.andThen, List.append_nil, courseAll_registry o handler, hcs, List.append_assoc]
      · exact hcs
  | report cs => exact courseAll_registry o cs scope
  | registerOther | raise | program => exact (List.append_nil _).symm

theorem courseAll_registry (o : Options) (cs : List Command) (scope : Scope) :
    (courseAll o cs scope).scope.registry.schemas =
      scope.registry.schemas ++ (courseAll o cs scope).registered := by
  cases cs with
  | nil => exact (List.append_nil _).symm
  | cons c cs =>
      have hc := course_registry o c scope
      rw [courseAll]
      split
      · simp only [Course.andThen, courseAll_registry o cs, hc, List.append_assoc]
      · exact hc

end

theorem runAll_registry (cs : List Command) (s : Session) :
    (runAll cs s).2.scope.registry.schemas = s.scope.registry.schemas ++ registeredAll cs s := by
  rw [runAll_eq]
  exact courseAll_registry _ _ _

theorem run_register (e : SchemaExpr) (s : Session) :
    run (.register e) s =
      match s.eval e with
      | .ok schema =>
        match s.scope.registry.register? schema with
        | some r => (.registered schema.name, { s with scope.registry := r })
        | none   => (.failed (.definition (.alreadyRegistered schema.name)), s)
      | .error f   => (.failed f, s) := by
  rw [run, runAll_eq]
  simp only [List.map_cons, List.map_nil, guarded, courseAll, course, Session.eval]
  cases e.eval s.scope with
  | error f => rfl
  | ok schema =>
      dsimp only
      cases s.scope.registry.register? schema <;> rfl

/-! ### What fails -/

end Command

/-- Nothing but failures has been answered. -/
def Course.IsFailing (x : Course) : Prop := ∀ a ∈ x.answers, ∃ f, a = .failed f

theorem Course.IsFailing.of_andThen {x y : Course} (h : (x.andThen y).IsFailing) : x.IsFailing ∧ y.IsFailing :=
  ⟨fun a ha => h a (List.mem_append_left _ ha), fun a ha => h a (List.mem_append_right _ ha)⟩

namespace Command

mutual

/-- Commands that answer with failures only leave the scope as it was. -/
theorem course_scope_of_isFailing (o : Options) (c : Command) {scope : Scope}
    (h : (course o c scope).IsFailing) : (course o c scope).scope = scope := by
  cases c with
  | query q =>
      rw [course]
      split <;> rfl
  | bind name e =>
      rw [course] at h ⊢
      split at h
      · obtain ⟨_, hf⟩ := h _ List.mem_cons_self
        cases hf
      · rfl
  | register e =>
      rw [course] at h ⊢
      split at h
      · split at h
        · obtain ⟨_, hf⟩ := h _ List.mem_cons_self
          cases hf
        · rfl
      · rfl
  | within forbid convert cs => exact courseAll_scope_of_isFailing _ cs h
  | attempt cs handler =>
      rw [course] at h ⊢
      split at h
      · obtain ⟨hx, hy⟩ := h.of_andThen
        exact (courseAll_scope_of_isFailing o handler hy).trans
          (courseAll_scope_of_isFailing o cs hx.of_andThen.1)
      · exact courseAll_scope_of_isFailing o cs h
  | report cs =>
      obtain ⟨_, hf⟩ := h _ List.mem_cons_self
      cases hf
  | registerOther | raise | program => rfl

theorem courseAll_scope_of_isFailing (o : Options) (cs : List Command) {scope : Scope}
    (h : (courseAll o cs scope).IsFailing) : (courseAll o cs scope).scope = scope := by
  cases cs with
  | nil => rfl
  | cons c cs =>
      rw [courseAll] at h ⊢
      split at h
      · obtain ⟨hx, hy⟩ := h.of_andThen
        exact (courseAll_scope_of_isFailing o cs hy).trans (course_scope_of_isFailing o c hx)
      · exact course_scope_of_isFailing o c h

end

/-- A command that fails leaves the session as it was. -/
theorem run_of_failed (c : Command) {s : Session} {f : Failure} (h : (c.run s).1 = .failed f) :
    (c.run s).2 = s := by
  rw [run] at h ⊢
  split at h
  · rename_i a t hr
    subst h
    rw [runAll_eq, Prod.mk.injEq] at hr
    obtain ⟨ha, rfl⟩ := hr
    have hfailing : (courseAll s.options ([c].map guarded) s.scope).IsFailing := by
      rw [Course.IsFailing, ha]
      exact fun a ha => ⟨f, List.mem_singleton.mp ha⟩
    rw [courseAll_scope_of_isFailing _ _ hfailing]
  · cases h

end Command

open Command

theorem Session.HasRegistered.runAll {s : Session} {before : List Schema} (h : s.HasRegistered before)
    (steps : List Command) : (runAll steps s).2.HasRegistered (before ++ registeredAll steps s) :=
  hasRegistered_iff.mpr (by rw [runAll_registry, h.iteration])

namespace Command

/-- A schema that is found is found ever after. -/
theorem eval_registered_runAll {t : Session} {name : String} {schema : Schema}
    (h : t.eval (.registered name) = .ok schema) (more : List Command) :
    (runAll more t).2.eval (.registered name) = .ok schema := by
  refine found_eq_ok_iff.mpr ?_
  rw [runAll_registry, List.find?_append, found_eq_ok_iff.mp h, Option.some_or]

/-! ### The registry in every run -/

/-- **A registry is an append-only map.**  After any run in a session whose registry was empty, it
consists of the schemas that the registrations before have put there.  Of the registrations that may
follow those fail that are of no schema, or of a name that is taken, and what fails changes nothing;
any other is the next of them.  Whatever follows, a schema that is found by its name is found ever
after. -/
theorem registry_append_only (s : Session) (hs : s.scope.registry = .empty) (steps : List Command) :
    let t : Session := (runAll steps s).2
    let done : List Schema := registeredAll steps s
    t.HasRegistered done ∧
      (∀ v, run (.registerOther v) t = (.failed (.definition (.notASchema v.typeName)), t)) ∧
      (∀ e schema, t.eval e = .ok schema → schema.name ∈ done.map (·.name) →
        run (.register e) t = (.failed (.definition (.alreadyRegistered schema.name)), t)) ∧
      (∀ e schema, t.eval e = .ok schema → schema.name ∉ done.map (·.name) →
        ∃ u, run (.register e) t = (.registered schema.name, u) ∧ u.HasRegistered (done ++ [schema])) ∧
      (∀ c f, (run c t).1 = .failed f → (run c t).2 = t) ∧
      ∀ more name schema, t.eval (.registered name) = .ok schema →
        (runAll more t).2.eval (.registered name) = .ok schema := by
  intro t done
  have hfresh : s.HasRegistered [] := Session.hasRegistered_iff.mpr (congrArg Registry.schemas hs)
  have ht : t.HasRegistered done := hfresh.runAll steps
  refine ⟨ht, fun _ => rfl, ?_, ?_, fun c _ => run_of_failed c, fun more _ _ h => eval_registered_runAll h more⟩
  · intro e schema he hname
    rw [← ht.iteration] at hname
    simp only [run_register, he, Registry.register?_eq_none_iff.mpr hname]
  · intro e schema he hname
    rw [← ht.iteration] at hname
    cases hr : t.scope.registry.register? schema with
    | none => exact absurd (Registry.register?_eq_none_iff.mp hr) hname
    | some r =>
        have hschemas := (Registry.register?_eq_some_iff.mp hr).2.trans (congrArg (· ++ [schema]) ht.iteration)
        refine ⟨{ t with scope.registry := r }, ?_, Session.hasRegistered_iff.mpr hschemas⟩
        simp only [run_register, he, hr]

/-- Registrations under two names, one of which is asked for twice. -/
def contested : List Command :=
  [.register (.define "A" []), .registerOther .null, .query (.describe (.registered "B")),
    .block {} [.register (.define "B" []), .interrupt, .register (.define "C" [])],
    .register (.renamed (.registered "B") "A")]

theorem registry_append_only_contested :
    ({} : Session).scope.registry = .empty ∧
      (runAll contested {}).2.HasRegistered [⟨"A", []⟩, ⟨"B", []⟩] ∧
      (runAll contested {}).2.eval (.define "A" [.rule (.rule (.text "x") [] true .null none)]) =
        .ok ⟨"A", [⟨"x", [], true, .null, none⟩]⟩ ∧
      run (.register (.define "A" [.rule (.rule (.text "x") [] true .null none)])) (runAll contested {}).2 =
        (.failed (.definition (.alreadyRegistered "A")), (runAll contested {}).2) ∧
      (∃ u, run (.register (.define "C" [])) (runAll contested {}).2 = (.registered "C", u) ∧
        u.HasRegistered [⟨"A", []⟩, ⟨"B", []⟩, ⟨"C", []⟩]) ∧
      (run (.bind "a" (.registered "C")) (runAll contested {}).2).1 = .failed (.unknownSchema "C") ∧
      (run (.bind "a" (.registered "C")) (runAll contested {}).2).2 = (runAll contested {}).2 ∧
      (runAll contested (runAll contested {}).2).2.eval (.registered "A") = .ok ⟨"A", []⟩ := by
  obtain ⟨held, -, taken, fresh, failed, kept⟩ := registry_append_only {} rfl contested
  refine ⟨rfl, held, rfl, ?_, ?_, rfl, failed _ _ rfl, kept contested _ _ rfl⟩
  · exact taken _ ⟨"A", [⟨"x", [], true, .null, none⟩]⟩ rfl (by decide)
  · exact fresh _ ⟨"C", []⟩ rfl (by decide)

end Command

end Intake
