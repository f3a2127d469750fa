import Intake.Proofs.Remaking
import Intake.Validation

/-!
# Proofs — Chain — values on their way through checks

A check lets a value pass as another one (`Check.Passes`): it makes something of the value and finds
nothing wrong with that.  A chain passes a value as the last of a sequence of values, each of which
the next check has made of the one before (`Check.chain_cons_passed_iff`).

What comes out of a chain goes through it again unchanged (`Check.chain_passed_again`) if every
check is *settled*, that is, passes unchanged whatever it has let pass before, and no check is
*disturbed* by a later one, that is, refuses what the later one has made of a value that it had
accepted.  Tests are settled (`Check.settled_test`).
-/

namespace Intake

/-- What a check makes of a value if it finds nothing wrong with it, otherwise what it finds. -/
def Verdict.ofViolations : List Violation → Value → Verdict
  | [],      v => .passed v
  | w :: ws, _ => .failed (w :: ws)

namespace Check

/-- A check makes a value out of another and finds nothing wrong with it. -/
def Passes (o : Options) (field : String) (c : Check) (v w : Value) : Prop :=
  ∃ u, c.prepare o v = .ok u ∧ c.coerce o u = .ok w ∧ c.violations o field w = .ok []

theorem chain_cons_passed_iff {o : Options} {field : String} {c : Check} {checks : List Check}
    {v w : Value} :
    Check.chain o field (c :: checks) v = .ok (.passed w) ↔
      ∃ u, c.Passes o field v u ∧ Check.chain o field checks u = .ok (.passed w) := by
  simp only [chain_cons, bind_eq_ok_iff, Passes]
  constructor
  · rintro ⟨x, hx, u, hu, vs, hv, h⟩
    cases vs with
    | nil => exact ⟨u, ⟨x, hx, hu, hv⟩, h⟩
    | cons w ws => cases h
  · rintro ⟨u, ⟨x, hx, hu, hv⟩, h⟩
    exact ⟨x, hx, u, hu, [], hv, h⟩

theorem chain_singleton_passed_iff {o : Options} {field : String} {c : Check} {v w : Value} :
    Check.chain o field [c] v = .ok (.passed w) ↔ c.Passes o field v w := by
  rw [chain_cons_passed_iff]
  simp only [chain_nil, Except.ok.injEq, Verdict.passed.injEq, exists_eq_right]

/-- The violations of a chain are those of the check that stopped it, on the value that it saw. -/
theorem chain_cons_failed_iff {o : Options} {field : String} {c : Check} {checks : List Check}
    {v : Value} {vs : List Violation} :
    Check.chain o field (c :: checks) v = .ok (.failed vs) ↔
      (∃ x u, c.prepare o v = .ok x ∧ c.coerce o x = .ok u ∧ c.violations o field u = .ok vs ∧ vs ≠ []) ∨
        ∃ u, c.Passes o field v u ∧ Check.chain o field checks u = .ok (.failed vs) := by
  simp only [chain_cons, bind_eq_ok_iff, Passes]
  constructor
  · rintro ⟨x, hx, u, hu, ws, hv, h⟩
    cases ws with
    | nil => exact .inr ⟨u, ⟨x, hx, hu, hv⟩, h⟩
    | cons w ws =>
        cases h
        exact .inl ⟨x, u, hx, hu, hv, List.cons_ne_nil _ _⟩
  · rintro (⟨x, u, hx, hu, hv, hne⟩ | ⟨u, ⟨x, hx, hu, hv⟩, h⟩)
    · refine ⟨x, hx, u, hu, vs, hv, ?_⟩
      cases vs with
      | nil => exact absurd rfl hne
      | cons w ws => rfl
    · exact ⟨x, hx, u, hu, [], hv, h⟩

/-- The verdict of a chain of one check. -/
theorem chain_singleton_eq_ok_iff {o : Options} {field : String} {c : Check} {v : Value}
    {verdict : Verdict} :
    Check.chain o field [c] v = .ok verdict ↔
      ∃ x u vs, c.prepare o v = .ok x ∧ c.coerce o x = .ok u ∧ c.violations o field u = .ok vs ∧
        verdict = .ofViolations vs u := by
  simp only [chain_cons, bind_eq_ok_iff]
  constructor
  · rintro ⟨x, hx, u, hu, vs, hv, h⟩
    refine ⟨x, u, vs, hx, hu, hv, ?_⟩
    cases vs <;> cases h <;> rfl
  · rintro ⟨x, u, vs, hx, hu, hv, rfl⟩
    refine ⟨x, hx, u, hu, vs, hv, ?_⟩
    cases vs <;> rfl

/-- A check that passes a value leaves the verdict to the checks behind it. -/
theorem Passes.chain_cons {o : Options} {field : String} {c : Check} {v u : Value}
    (h : c.Passes o field v u) (checks : List Check) :
    Check.chain o field (c :: checks) v = Check.chain o field checks u := by
  obtain ⟨x, hx, hu, hv⟩ := h
  simp only [Check.chain_cons, hx, hu, hv, ok_bind]

/-- A chain fails only where a check finds something. -/
theorem ne_nil_of_chain_failed {o : Options} {field : String} {checks : List Check} {v : Value}
    {vs : List Violation} (h : Check.chain o field checks v = .ok (.failed vs)) : vs ≠ [] := by
  induction checks generalizing v with
  | nil =>
      rw [chain_nil] at h
      cases h
  | cons c checks ih =>
      rcases chain_cons_failed_iff.mp h with ⟨-, -, -, -, -, hne⟩ | ⟨u, -, h⟩
      · exact hne
      · exact ih h

/-- What all checks of a chain preserve, the chain preserves. -/
theorem chain_passed_induction {o : Options} {field : String} {P : Value → Prop} {checks : List Check}
    {v w : Value} (step : ∀ c ∈ checks, ∀ x y, c.Passes o field x y → P x → P y)
    (h : Check.chain o field checks v = .ok (.passed w)) (hv : P v) : P w := by
  induction checks generalizing v with
  | nil =>
      rw [chain_nil] at h
      cases h
      exact hv
  | cons c checks ih =>
      obtain ⟨u, hu, h⟩ := chain_cons_passed_iff.mp h
      exact ih (fun d hd => step d (List.mem_cons_of_mem _ hd)) h (step c (List.mem_cons_self ..) _ _ hu hv)

/-! ### One test as a check -/

theorem violations_test_eq_nil_iff {o : Options} {field : String} {t : Test} {m : Option String}
    {v : Value} : (Check.test t m).violations o field v = .ok [] ↔ t.accepts v = true := by
  simp only [violations_test, bind_pure_eq_ok_iff, Test.accepts_iff, Option.toList_eq_nil_iff,
    Option.map_eq_none_iff, exists_eq_right]

theorem prepare_test_of_leaves {o : Options} {t : Test} {m : Option String} {v : Value}
    (h : t.leaves v = true) : (Check.test t m).prepare o v = .ok v := by
  unfold prepare
  split
  · exact Test.convert_of_leaves h
  · rfl

/-- A test lets a value pass as it is exactly if it accepts the value. -/
theorem passes_test_self {o : Options} {field : String} {t : Test} {m : Option String} {v : Value}
    (h : t.accepts v = true) : (Check.test t m).Passes o field v v := by
  have hl := Test.leaves_of_accepts h
  refine ⟨v, prepare_test_of_leaves hl, ?_, violations_test_eq_nil_iff.mpr h⟩
  rw [coerce_test, Test.coerce_of_leaves hl]

/-- A test that finds something wrong with a value as it is ends the chain there. -/
theorem chain_test_of_finding {o : Options} {field : String} {t : Test} {m : Option String} {v : Value}
    {f : Finding} (hl : t.leaves v = true) (h : t.examine v = .ok (some f)) (checks : List Check) :
    Check.chain o field (.test t m :: checks) v = .ok (.failed [(f.withMessage m).at field]) := by
  refine chain_cons_failed_iff.mpr (.inl ⟨v, v, prepare_test_of_leaves hl, ?_, ?_, List.cons_ne_nil _ _⟩)
  · rw [coerce_test, Test.coerce_of_leaves hl]
  · simp only [violations_test, h, ok_bind]
    rfl

theorem chain_test_of_error {o : Options} {field : String} {t : Test} {m : Option String} {v : Value}
    {f : Fault} (hl : t.leaves v = true) (h : t.examine v = .error f) (checks : List Check) :
    Check.chain o field (.test t m :: checks) v = .error f := by
  simp only [chain_cons, prepare_test_of_leaves hl, ok_bind, coerce_test, Test.coerce_of_leaves hl,
    violations_test, h]
  rfl

theorem Passes.accepts {o : Options} {field : String} {t : Test} {m : Option String} {v w : Value}
    (h : (Check.test t m).Passes o field v w) : t.accepts w = true := by
  obtain ⟨-, -, -, hw⟩ := h
  exact violations_test_eq_nil_iff.mp hw

/-- A test that reads nothing lets every value pass as it is, if at all. -/
theorem Passes.eq_of_leaves {o : Options} {field : String} {t : Test} {m : Option String}
    {v w : Value} (h : (Check.test t m).Passes o field v w) (hl : t.leaves v = true) : w = v := by
  obtain ⟨u, hu, hw, -⟩ := h
  rw [prepare_test_of_leaves hl] at hu
  cases hu
  rw [coerce_test, Test.coerce_of_leaves hl] at hw
  cases hw
  rfl

theorem Passes.remade_of_test {o : Options} {field : String} {t : Test} {m : Option String}
    {v w : Value} (h : (Check.test t m).Passes o field v w) : v.Remade w := by
  obtain ⟨u, hu, hw, -⟩ := h
  rw [coerce_test] at hw
  cases hw
  refine Value.Remade.trans ?_ (Test.coerce_remade t u)
  unfold prepare at hu
  split at hu
  · exact Test.convert_remade hu
  · cases hu
    exact .same _

/-! ### Going through again -/

/-- A check that passes unchanged what it has once let pass. -/
def Settled (o : Options) (c : Check) : Prop :=
  ∀ field v w, c.Passes o field v w → c.Passes o field w w

theorem settled_test (o : Options) (t : Test) (m : Option String) : (Check.test t m).Settled o :=
  fun _ _ _ h => passes_test_self h.accepts

/-- A check still passes what a later one has made of a value that it passes. -/
def Undisturbed (o : Options) (c d : Check) : Prop :=
  ∀ field v w, c.Passes o field v v → d.Passes o field v w → c.Passes o field w w

/-- A check that no check of a chain disturbs passes what comes out of it. -/
theorem passes_end {o : Options} {field : String} {c : Check} {checks : List Check} {v w : Value}
    (hc : ∀ d ∈ checks, c.Undisturbed o d) (hv : c.Passes o field v v)
    (h : Check.chain o field checks v = .ok (.passed w)) : c.Passes o field w w :=
  -- along the chain, the value under way is one that the check passes, but not its first one
  chain_passed_induction (P := fun x => c.Passes o field x x)
    (fun d hd x y hp hx => hc d hd field x y hx hp) h hv

/-- What comes out of a chain is passed by each of its checks. -/
theorem forall_passes_end {o : Options} {field : String} {checks : List Check} {v w : Value}
    (hs : ∀ c ∈ checks, c.Settled o) (hd : checks.Pairwise (Undisturbed o))
    (h : Check.chain o field checks v = .ok (.passed w)) : ∀ c ∈ checks, c.Passes o field w w := by
  induction checks generalizing v with
  | nil => exact nofun
  | cons c checks ih =>
      obtain ⟨u, hu, h⟩ := chain_cons_passed_iff.mp h
      obtain ⟨hc, hd⟩ := List.pairwise_cons.mp hd
      obtain ⟨hsettled, hrest⟩ := List.forall_mem_cons.mp hs
      exact List.forall_mem_cons.mpr ⟨passes_end hc (hsettled _ _ _ hu) h, ih hrest hd h⟩

theorem chain_of_forall_passes {o : Options} {field : String} {checks : List Check} {v : Value}
    (h : ∀ c ∈ checks, c.Passes o field v v) : Check.chain o field checks v = .ok (.passed v) := by
  induction checks with
  | nil => exact chain_nil ..
  | cons c checks ih =>
      obtain ⟨hc, hrest⟩ := List.forall_mem_cons.mp h
      exact chain_cons_passed_iff.mpr ⟨v, hc, ih hrest⟩

theorem chain_passed_again {o : Options} {field : String} {checks : List Check} {v w : Value}
    (hs : ∀ c ∈ checks, c.Settled o) (hd : checks.Pairwise (Undisturbed o))
    (h : Check.chain o field checks v = .ok (.passed w)) :
    Check.chain o field checks w = .ok (.passed w) :=
  chain_of_forall_passes (forall_passes_end hs hd h)

end Check

end Intake
