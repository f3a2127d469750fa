import Intake.Schema

/-!
# Proofs — Nesting — schemas within schemas

A check of items nests a schema, whose checks may nest further ones.  A property of schemas that
follows from the same property of the schemas nested directly in one holds of all schemas
(`Schema.nesting_induction`), and a test can be asked of a schema and of everything nested in it, to
any depth (`Schema.everywhere`).
-/

namespace Intake

/-- The schema that a check asks of items. -/
def Check.nested? : Check → Option Schema
  | .test _ _  => none
  | .items s _ => s

/-- The schemas that the checks of a schema nest directly. -/
def Schema.nested (s : Schema) : List Schema := s.rules.flatMap fun rule => rule.checks.filterMap Check.nested?

theorem Schema.mem_nested_iff {s t : Schema} :
    t ∈ s.nested ↔ ∃ rule ∈ s.rules, ∃ c ∈ rule.checks, c.nested? = some t := by
  simp [nested]

/-- What holds of all nested schemas holds of those that the checks of one rule nest. -/
theorem Schema.forall_nested_of_rule {s : Schema} {P : Schema → Prop} (h : ∀ t ∈ s.nested, P t)
    {rule : Rule} (hr : rule ∈ s.rules) : ∀ c ∈ rule.checks, ∀ t, c.nested? = some t → P t :=
  fun c hc t ht => h t (mem_nested_iff.mpr ⟨rule, hr, c, hc, ht⟩)

/-- **Induction on nesting.** -/
theorem Schema.nesting_induction {P : Schema → Prop} (step : ∀ s, (∀ t ∈ s.nested, P t) → P s)
    (s : Schema) : P s :=
  -- what is to hold of checks, rules, schemas, optional schemas, lists of checks and of rules, in order
  @Schema.rec (fun c => ∀ t, c.nested? = some t → P t)
    (fun rule => ∀ c ∈ rule.checks, ∀ t, c.nested? = some t → P t)
    P
    (fun nested => ∀ t, nested = some t → P t)
    (fun checks => ∀ c ∈ checks, ∀ t, c.nested? = some t → P t)
    (fun rules => ∀ rule ∈ rules, ∀ c ∈ rule.checks, ∀ t, c.nested? = some t → P t)
    (fun _ _ _ h => by cases h)
    (fun _ _ ih => ih)
    (fun _ _ _ _ _ ih => ih)
    (fun _ _ ih => step _ fun _ ht => by
      obtain ⟨rule, hr, c, hc, hn⟩ := mem_nested_iff.mp ht
      exact ih rule hr c hc _ hn)
    (fun _ h => by cases h)
    (fun _ ih _ h => by cases h; exact ih)
    (fun _ h => by cases h)
    (fun _ _ ih₁ ih₂ _ hc => by
      rcases List.mem_cons.mp hc with rfl | hc
      · exact ih₁
      · exact ih₂ _ hc)
    (fun _ h => by cases h)
    (fun _ _ ih₁ ih₂ _ hr => by
      rcases List.mem_cons.mp hr with rfl | hr
      · exact ih₁
      · exact ih₂ _ hr)
    s

mutual

/-- Whether a schema and all schemas nested in it, to any depth, pass a test. -/
def Schema.everywhere (p : Schema → Bool) : Schema → Bool
  | ⟨name, rules⟩ => p ⟨name, rules⟩ && Rule.nestEverywhere p rules

def Rule.nestEverywhere (p : Schema → Bool) : List Rule → Bool
  | []                           => true
  | ⟨_, checks, _, _, _⟩ :: rules => Check.nestEverywhere p checks && Rule.nestEverywhere p rules

def Check.nestEverywhere (p : Schema → Bool) : List Check → Bool
  | []                         => true
  | .test _ _ :: checks         => Check.nestEverywhere p checks
  | .items none _ :: checks     => Check.nestEverywhere p checks
  | .items (some s) _ :: checks => s.everywhere p && Check.nestEverywhere p checks

end

theorem Check.nestEverywhere_iff {p : Schema → Bool} {checks : List Check} :
    Check.nestEverywhere p checks = true ↔ ∀ c ∈ checks, ∀ t, c.nested? = some t → t.everywhere p = true := by
  induction checks with
  | nil => simp [nestEverywhere]
  | cons c checks ih =>
      rcases c with ⟨t, m⟩ | ⟨_ | s, m⟩ <;> simp [nestEverywhere, nested?, ih]

theorem Rule.nestEverywhere_iff {p : Schema → Bool} {rules : List Rule} :
    Rule.nestEverywhere p rules = true ↔
      ∀ rule ∈ rules, ∀ c ∈ rule.checks, ∀ t, c.nested? = some t → t.everywhere p = true := by
  induction rules with
  | nil => simp [nestEverywhere]
  | cons rule rules ih =>
      cases rule
      simp [nestEverywhere, Check.nestEverywhere_iff, ih]

theorem Schema.everywhere_iff {p : Schema → Bool} {s : Schema} :
    s.everywhere p = true ↔ p s = true ∧ ∀ t ∈ s.nested, t.everywhere p = true := by
  cases s
  simp only [everywhere, Bool.and_eq_true, Rule.nestEverywhere_iff, mem_nested_iff]
  constructor
  · rintro ⟨hp, h⟩
    exact ⟨hp, fun t ⟨rule, hr, c, hc, hn⟩ => h rule hr c hc t hn⟩
  · rintro ⟨hp, h⟩
    exact ⟨hp, fun rule hr c hc t hn => h t ⟨rule, hr, c, hc, hn⟩⟩

end Intake
