import Intake.Proofs.IsoText
import Intake.Proofs.Lasting

/-!
# Proofs — Dating — the moments of a record

A schema says which fields are dates, so that the moments of a record can be told from its other
values: they are held by the fields with a check of dates, and by such fields of the items of a list
(`Schema.moments`).  They can be replaced there and everything else left as it is (`Schema.redate`),
as by their ISO 8601 forms (`Schema.isoWritten`) or by what is read from these (`Schema.reread`).

A field is dated by its own rule (`Rule.redateField_of_mem`); what a schema does not declare and
what its conditions look at is left.  A record whose moments all stay as they are stays as it is
(`Schema.preserves`).
-/

namespace Intake

open Calendar (Moment)
open Validation

/-! ### Moments of a record -/

namespace Value

/-- A record is changed, any other value is left. -/
def onRecord (f : Entries → Entries) : Value → Value
  | .record r => .record (f r)
  | v         => v

/-- The items of a list that are records are changed. -/
def onItems (f : Entries → Entries) : Value → Value
  | .list items => .list (items.map (·.onRecord f))
  | v           => v

/-- The records among the items of a list. -/
def recordItems : Value → List Entries
  | .list items => items.filterMap fun
    | .record r => some r
    | _         => none
  | _           => []

end Value

/-- A moment is replaced where the test is one of dates. -/
def Test.redate (f : Moment → Value) : Test → Value → Value
  | .date, .moment m => f m
  | _,     v         => v

def Test.moments : Test → Value → List Moment
  | .date, .moment m => [m]
  | _,     _         => []

mutual

/-- A record with another value for every moment that a field of dates holds, also in items.  Which
rules apply is seen from the record itself, as conditions look at fields that have no moments. -/
def Schema.redate (f : Moment → Value) : Schema → Entries → Entries
  | ⟨_, rules⟩, r => r.map fun e => (e.1, Rule.redateField f rules r e.1 e.2)

/-- What becomes of the value under a key, by the first rule for the key if it applies to the
record. -/
def Rule.redateField (f : Moment → Value) : List Rule → Entries → Value → Value → Value
  | [], _, _, v => v
  | ⟨name, checks, required, default, condition⟩ :: rules, r, key, v =>
    if key.text? = some name then
      if Rule.appliesTo ⟨name, checks, required, default, condition⟩ r then Check.redateAll f checks v else v
    else Rule.redateField f rules r key v

def Check.redateAll (f : Moment → Value) : List Check → Value → Value
  | [],                         v => v
  | .test t _ :: checks,         v => Check.redateAll f checks (t.redate f v)
  | .items none _ :: checks,     v => Check.redateAll f checks v
  | .items (some s) _ :: checks, v => Check.redateAll f checks (v.onItems (s.redate f))

end

mutual

/-- The moments of a record. -/
def Schema.moments : Schema → Entries → List Moment
  | ⟨_, rules⟩, r => r.flatMap fun e => Rule.momentsOfField rules r e.1 e.2

def Rule.momentsOfField : List Rule → Entries → Value → Value → List Moment
  | [], _, _, _ => []
  | ⟨name, checks, required, default, condition⟩ :: rules, r, key, v =>
    if key.text? = some name then
      if Rule.appliesTo ⟨name, checks, required, default, condition⟩ r then Check.momentsOfAll checks v else []
    else Rule.momentsOfField rules r key v

def Check.momentsOfAll : List Check → Value → List Moment
  | [],                         _ => []
  | .test t _ :: checks,         v => t.moments v ++ Check.momentsOfAll checks v
  | .items none _ :: checks,     v => Check.momentsOfAll checks v
  | .items (some s) _ :: checks, v => v.recordItems.flatMap s.moments ++ Check.momentsOfAll checks v

end

/-- The text that a moment is written as. -/
def Calendar.Moment.isoText (m : Moment) : Value := .text (String.ofList m.iso)

/-- A record with its moments as texts. -/
def Schema.isoWritten (s : Schema) (r : Entries) : Entries := s.redate (·.isoText) r

/-- A record with the moments that are read where its own have been written. -/
def Schema.reread (s : Schema) (r : Entries) : Entries := s.redate (fun m => .moment m.reread) r

variable {f : Moment → Value}

/-! ### Values without moments -/

/-- A check that neither asks for a date nor has to do with items. -/
def Check.isUndated : Check → Bool
  | .test .date _ => false
  | .test _ _     => true
  | .items s _    => s.isNone

theorem Check.isUndated_of_isInert {c : Check} (h : c.isInert = true) : c.isUndated = true := by
  rcases c with ⟨_ | _, m⟩ | ⟨s, m⟩
  case test.date => cases h
  case items => exact h
  all_goals rfl

theorem Test.redate_null (t : Test) : t.redate f .null = .null := by
  cases t <;> rfl

namespace Check

theorem redateAll_null (checks : List Check) : Check.redateAll f checks .null = .null := by
  induction checks with
  | nil => rfl
  | cons c checks ih =>
      rcases c with ⟨t, m⟩ | ⟨_ | s, m⟩
      · rw [redateAll, Test.redate_null, ih]
      · exact ih
      · exact ih

theorem redateAll_ne_null (hf : ∀ m, f m ≠ .null) {checks : List Check} {v : Value} (hv : v ≠ .null) :
    Check.redateAll f checks v ≠ .null := by
  induction checks generalizing v with
  | nil => exact hv
  | cons c checks ih =>
      rcases c with ⟨t, m⟩ | ⟨_ | s, m⟩
      · refine ih fun he => ?_
        unfold Test.redate at he
        split at he
        · exact hf _ he
        · exact hv he
      · exact ih hv
      · refine ih fun he => ?_
        cases v <;> first | exact hv rfl | cases he

theorem redateAll_of_isUndated {checks : List Check} (h : checks.all (·.isUndated) = true) (v : Value) :
    Check.redateAll f checks v = v := by
  induction checks with
  | nil => rfl
  | cons c checks ih =>
      rw [List.all_cons, Bool.and_eq_true] at h
      rcases c with ⟨t, m⟩ | ⟨_ | s, m⟩
      · have ht : t.redate f v = v := by
          cases t with
          | date => cases h.1
          | _ => rfl
        rw [redateAll, ht, ih h.2]
      · exact ih h.2
      · cases h.1

end Check

namespace Rule

theorem redateField_cons_of_ne {rule : Rule} {key : Value} (h : key ≠ .text rule.name)
    (rules : List Rule) (r : Entries) (v : Value) :
    Rule.redateField f (rule :: rules) r key v = Rule.redateField f rules r key v := by
  cases rule
  exact if_neg (mt Value.text?_eq_some_iff.mp h)

theorem redateField_cons_self (rule : Rule) (rules : List Rule) (r : Entries) (v : Value) :
    Rule.redateField f (rule :: rules) r (.text rule.name) v =
      if rule.appliesTo r then Check.redateAll f rule.checks v else v := by
  cases rule
  exact if_pos rfl

/-- A field is dated by its rule. -/
theorem redateField_of_mem {rules : List Rule} (hd : (rules.map (·.name)).Nodup) {rule : Rule}
    (hr : rule ∈ rules) (r : Entries) (v : Value) :
    Rule.redateField f rules r (.text rule.name) v =
      if rule.appliesTo r then Check.redateAll f rule.checks v else v := by
  induction rules with
  | nil => cases hr
  | cons first rules ih =>
      obtain ⟨hfirst, hrest⟩ := List.nodup_cons.mp (List.map_cons .. ▸ hd)
      rcases List.mem_cons.mp hr with rfl | hr
      · exact redateField_cons_self ..
      · have hne : Value.text rule.name ≠ .text first.name := by
          intro h
          rw [← Value.text.inj h] at hfirst
          exact hfirst (List.mem_map_of_mem hr)
        rw [redateField_cons_of_ne hne, ih hrest hr]

theorem redateField_of_not_mem {rules : List Rule} {key : Value}
    (h : ∀ rule ∈ rules, key ≠ .text rule.name) (r : Entries) (v : Value) :
    Rule.redateField f rules r key v = v := by
  induction rules with
  | nil => rfl
  | cons first rules ih =>
      obtain ⟨hfirst, hrest⟩ := List.forall_mem_cons.mp h
      rw [redateField_cons_of_ne hfirst, ih hrest]

theorem redateField_null (rules : List Rule) (r : Entries) (key : Value) :
    Rule.redateField f rules r key .null = .null := by
  induction rules with
  | nil => rfl
  | cons first rules ih =>
      obtain ⟨name, checks, required, default, condition⟩ := first
      rw [redateField, Check.redateAll_null, ih, ite_self, ite_self]

end Rule

namespace Schema

variable {s : Schema} {r : Entries}

theorem redate_eq (s : Schema) (r : Entries) :
    s.redate f r = r.map fun e => (e.1, Rule.redateField f s.rules r e.1 e.2) := by
  cases s
  rfl

theorem redateField_of_not_declares {key : Value} (h : s.declares key = false) (v : Value) :
    Rule.redateField f s.rules r key v = v := by
  refine Rule.redateField_of_not_mem (fun rule hr hk => ?_) r v
  subst hk
  rw [declares_text.mpr (List.mem_map_of_mem hr)] at h
  cases h

/-- A field that is recorded as it is has no moments. -/
theorem redateField_of_isVerbatim {rules : List Rule} {name : String}
    (h : ∀ rule ∈ rules, rule.name = name → rule.isVerbatim = true) (v : Value) :
    Rule.redateField f rules r (.text name) v = v := by
  induction rules with
  | nil => rfl
  | cons rule rules ih =>
      obtain ⟨hrule, hrules⟩ := List.forall_mem_cons.mp h
      by_cases hname : rule.name = name
      · have hinert := List.all_eq_true.mp (Bool.and_eq_true _ _ ▸ hrule hname : _ ∧ _).2
        have hundated : rule.checks.all (·.isUndated) = true :=
          List.all_eq_true.mpr fun c hc => Check.isUndated_of_isInert (hinert c hc)
        rw [← hname, Rule.redateField_cons_self, Check.redateAll_of_isUndated hundated, ite_self]
      · rw [Rule.redateField_cons_of_ne fun he => hname (Value.text.inj he).symm, ih hrules]

theorem get?_redate (s : Schema) (r : Entries) (name : String) :
    (s.redate f r).get? name = (r.get? name).map (Rule.redateField f s.rules r (.text name)) := by
  rw [redate_eq]
  exact Entries.get?_map (Rule.redateField f s.rules r) r name

theorem get?_redate_of_mem (hd : s.fieldNames.Nodup) {rule : Rule} (hrule : rule ∈ s.rules) :
    (s.redate f r).get? rule.name = (r.get? rule.name).map fun v =>
      if rule.appliesTo r then Check.redateAll f rule.checks v else v := by
  rw [get?_redate]
  exact congrArg (Option.map · _) (funext fun v => Rule.redateField_of_mem hd hrule r v)

theorem get?_redate_of_not_appliesTo (hd : s.fieldNames.Nodup) {rule : Rule} (hrule : rule ∈ s.rules)
    (ha : rule.appliesTo r = false) : (s.redate f r).get? rule.name = r.get? rule.name := by
  simp [get?_redate_of_mem hd hrule, ha]

theorem get?_redate_of_null {name : String} (h : r.getD name = .null) :
    (s.redate f r).get? name = r.get? name := by
  rw [get?_redate]
  rcases Entries.getD_eq_null_iff.mp h with hg | hg
  · rw [hg, Option.map_none]
  · rw [hg, Option.map_some, Rule.redateField_null]

theorem strays_redate (s : Schema) (r : Entries) : strays s (s.redate f r) = strays s r := by
  rw [redate_eq, strays_map s (Rule.redateField f s.rules r)]
  refine (List.map_congr_left fun e he => ?_).trans (List.map_id _)
  obtain ⟨-, hk⟩ := List.mem_filter.mp he
  rw [redateField_of_not_declares (by simpa using hk)]
  rfl

theorem appliesTo_redate {rule : Rule} (h : ∀ c, rule.condition = some c → s.keepsField c = true) :
    rule.appliesTo (s.redate f r) = rule.appliesTo r := by
  unfold Rule.appliesTo
  cases hc : rule.condition with
  | none => rfl
  | some c =>
      obtain ⟨name, hname, hverb⟩ := keepsField_iff.mp (h c hc)
      refine Condition.holds_congr hname ?_
      rw [get?_redate]
      cases r.get? name with
      | none => rfl
      | some v => rw [Option.map_some, redateField_of_isVerbatim hverb]

end Schema

/-! ### Records without moments to change -/

/-- Nothing is changed about a record whose moments all stay as they are. -/
def Schema.Preserves (f : Moment → Value) (s : Schema) : Prop :=
  ∀ r, (∀ m ∈ s.moments r, f m = .moment m) → s.redate f r = r

theorem Value.onItems_eq_self {s : Schema} (hs : s.Preserves f) {v : Value}
    (h : ∀ m ∈ v.recordItems.flatMap s.moments, f m = .moment m) : v.onItems (s.redate f) = v := by
  cases v with
  | list items =>
      refine congrArg Value.list ((List.map_congr_left fun item hi => ?_).trans (List.map_id items))
      cases item with
      | record r =>
          have hr : r ∈ (Value.list items).recordItems := List.mem_filterMap.mpr ⟨_, hi, rfl⟩
          exact congrArg Value.record (hs r fun m hm => h m (List.mem_flatMap.mpr ⟨r, hr, hm⟩))
      | _ => rfl
  | _ => rfl

theorem Test.redate_eq_self {t : Test} {v : Value} (h : ∀ m ∈ t.moments v, f m = .moment m) :
    t.redate f v = v := by
  cases t with
  | date =>
      cases v with
      | moment m => exact h m (List.mem_singleton_self m)
      | _ => rfl
  | _ => rfl

theorem Check.redateAll_eq_self {checks : List Check}
    (hs : ∀ c ∈ checks, ∀ t, c.nested? = some t → t.Preserves f) {v : Value}
    (h : ∀ m ∈ Check.momentsOfAll checks v, f m = .moment m) : Check.redateAll f checks v = v := by
  induction checks with
  | nil => rfl
  | cons c checks ih =>
      have hrest := ih fun d hd => hs d (List.mem_cons_of_mem _ hd)
      rcases c with ⟨t, m⟩ | ⟨_ | s, m⟩
      · rw [momentsOfAll, List.forall_mem_append] at h
        rw [redateAll, Test.redate_eq_self h.1, hrest h.2]
      · exact hrest h
      · rw [momentsOfAll, List.forall_mem_append] at h
        rw [redateAll, Value.onItems_eq_self (hs _ (List.mem_cons_self ..) s rfl) h.1, hrest h.2]

theorem Rule.redateField_eq_self {rules : List Rule}
    (hs : ∀ rule ∈ rules, ∀ c ∈ rule.checks, ∀ t, c.nested? = some t → t.Preserves f)
    {r : Entries} {key v : Value}
    (h : ∀ m ∈ Rule.momentsOfField rules r key v, f m = .moment m) :
    Rule.redateField f rules r key v = v := by
  induction rules with
  | nil => rfl
  | cons rule rules ih =>
      obtain ⟨hfirst, hrest⟩ := List.forall_mem_cons.mp hs
      obtain ⟨name, checks, required, default, condition⟩ := rule
      unfold redateField
      unfold momentsOfField at h
      split
      · rename_i hkey
        rw [if_pos hkey] at h
        split
        · rename_i ha
          rw [if_pos ha] at h
          exact Check.redateAll_eq_self hfirst h
        · rfl
      · rename_i hkey
        rw [if_neg hkey] at h
        exact ih hrest h

theorem Schema.preserves (f : Moment → Value) (s : Schema) : s.Preserves f := by
  induction s using Schema.nesting_induction with
  | step s ih =>
      intro r h
      rw [redate_eq]
      refine (List.map_congr_left fun e he => ?_).trans (List.map_id r)
      have hfield : Rule.redateField f s.rules r e.1 e.2 = e.2 := by
        refine Rule.redateField_eq_self (fun rule hr => forall_nested_of_rule ih hr) fun m hm => h m ?_
        cases s
        exact List.mem_flatMap.mpr ⟨e, he, hm⟩
      rw [hfield]
      rfl

/-- A record none of whose offsets is lost is read as it was written. -/
theorem Schema.reread_eq_self {s : Schema} {r : Entries} (h : ∀ m ∈ s.moments r, m.isSlight = false) :
    s.reread r = r :=
  s.preserves _ r fun m hm => congrArg Value.moment (Calendar.Moment.reread_of_not_isSlight (h m hm))

end Intake
