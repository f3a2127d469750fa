import Intake.Catalogue
import Intake.Proofs.Items
import Intake.Proofs.Nesting

/-!
# Proofs — Lasting — validated records are valid

A schema need not find its own records valid: a default may fail the checks of its rule, a date that
was read from a text is no text any more, and a condition may see a field that validation has
changed.  A schema is *steady* if none of this can happen in it, which is decided from its rules
alone:

* no two rules have one name;
* no check is disturbed by a later one, because the later one reads nothing, or reads items where
  the earlier one only asks for a list;
* every default is accepted by the checks of its rule;
* every condition is on a field, which is recorded as it is.

If a schema is steady and so is every schema nested in it, it is lasting
(`Schema.lasting_of_isSteady`), under all options.  The schema of a page and all schemas of the
catalogue are of this kind (`Catalogue.isSteady_of_mem`), so that what they make of a request they
make of it again (`Catalogue.lasting_of_mem`).
-/

namespace Intake

/-! ### The criterion -/

/-- A check that reads nothing: what it passes, it passes as it is. -/
def Check.isInert : Check → Bool
  | .test t _  => !t.rereads
  | .items s _ => s.isNone

/-- A check that sees no more of a list than that it is one and how long it is. -/
def Check.isOfLists : Check → Bool
  | .test (.array _) _ => true
  | _                  => false

/-- Whether a check can be disturbed by a later one. -/
def Check.isUndisturbedBy (c d : Check) : Bool := d.isInert || c.isOfLists && d.nested?.isSome

/-- Whether a check passes a value that is no list, and as it is. -/
def Check.accepts : Check → Value → Bool
  | .test t _,  v => t.accepts v
  | .items s _, _ => s.isNone

/-- The field is recorded as it is. -/
def Rule.isVerbatim (rule : Rule) : Bool := rule.default.isNull && rule.checks.all (·.isInert)

def Rule.isOrderly (rule : Rule) : Bool :=
  decide (rule.checks.Pairwise fun c d => c.isUndisturbedBy d = true)

def Rule.acceptsDefault (rule : Rule) : Bool :=
  rule.default.isNull || rule.checks.all (·.accepts rule.default)

/-- The condition looks at one field, and every rule for it records it as it is. -/
def Schema.keepsField (s : Schema) (c : Condition) : Bool :=
  c.field?.any fun name => s.rules.all fun rule => rule.name != name || rule.isVerbatim

def Schema.isSteady (s : Schema) : Bool :=
  decide s.fieldNames.Nodup
    && s.rules.all fun rule => rule.isOrderly && rule.acceptsDefault && rule.condition.all s.keepsField

theorem Schema.keepsField_iff {s : Schema} {c : Condition} : s.keepsField c = true ↔
    ∃ name, c.field? = some name ∧ ∀ rule ∈ s.rules, rule.name = name → rule.isVerbatim = true := by
  simp [keepsField, Option.any_eq_true, or_iff_not_imp_left]

theorem Schema.isSteady_iff {s : Schema} : s.isSteady = true ↔ s.fieldNames.Nodup ∧
    ∀ rule ∈ s.rules, rule.isOrderly = true ∧ rule.acceptsDefault = true ∧
      ∀ c, rule.condition = some c → s.keepsField c = true := by
  simp only [isSteady, Bool.and_eq_true, decide_eq_true_eq, List.all_eq_true, Option.all_eq_true, and_assoc]

/-! ### Checks under the criterion -/

namespace Check
open Validation

variable {o : Options}

theorem Passes.eq_of_isInert {field : String} {c : Check} {v w : Value} (h : c.Passes o field v w)
    (hc : c.isInert = true) : w = v := by
  rcases c with ⟨t, m⟩ | ⟨_ | s, m⟩
  · exact h.eq_of_leaves (Test.leaves_of_not_rereads (by simpa [isInert] using hc) v)
  · exact h.eq_of_items_none
  · cases hc

theorem passes_of_accepts {field : String} {c : Check} {v : Value} (h : c.accepts v = true) :
    c.Passes o field v v := by
  rcases c with ⟨t, m⟩ | ⟨_ | s, m⟩
  · exact passes_test_self h
  · exact passes_items_none ..
  · cases h

theorem chain_of_accepts {field : String} {checks : List Check} {v : Value}
    (h : checks.all (·.accepts v) = true) : Check.chain o field checks v = .ok (.passed v) :=
  chain_of_forall_passes fun c hc => passes_of_accepts (List.all_eq_true.mp h c hc)

/-- A test of lists sees the length of a list and nothing of its items. -/
theorem accepts_array_congr {minSize : Option Int} {v w : Value} {xs ys : List Value}
    (hv : v.items? = some xs) (hw : w.items? = some ys) (hl : xs.length = ys.length) :
    (Test.array minSize).accepts v = (Test.array minSize).accepts w := by
  cases minSize <;> simp only [Test.accepts, Test.examine, hv, hw, hl]

/-- A check of lists is not disturbed by one that replaces items. -/
theorem undisturbed_array_items {minSize : Option Int} {m n : Option String} {s : Schema} :
    (Check.test (.array minSize) m).Undisturbed o (.items (some s) n) := by
  intro field v w hv hw
  cases hvi : v.items? with
  | none => rwa [passes_items_of_no_list hvi hw]
  | some items =>
      obtain ⟨firsts, -, hj, rfl, -, -⟩ := (passes_items_iff hvi).mp hw
      have hl : items.length = (List.zipWith replacement items firsts).length := by
        rw [List.length_zipWith, hj.length_eq, Nat.min_self]
      refine passes_test_self ?_
      rw [← accepts_array_congr hvi rfl hl]
      exact hv.accepts

theorem undisturbed_of_isUndisturbedBy {c d : Check} (h : c.isUndisturbedBy d = true) :
    c.Undisturbed o d := by
  rw [isUndisturbedBy, Bool.or_eq_true, Bool.and_eq_true] at h
  rcases h with hi | ⟨hc, hd⟩
  · intro field v w hv hw
    rwa [hw.eq_of_isInert hi]
  · rcases d with ⟨t, n⟩ | ⟨_ | s, n⟩
    · cases hd
    · cases hd
    · rcases c with ⟨_ | _, m⟩ | ⟨_, m⟩
      case test.array => exact undisturbed_array_items
      all_goals cases hc

theorem settled_of_nested {c : Check} (h : ∀ t, c.nested? = some t → t.Lasting o) : c.Settled o := by
  rcases c with ⟨t, m⟩ | ⟨_ | s, m⟩
  · exact settled_test o t m
  · exact settled_items_none o m
  · exact settled_items (h s rfl)

end Check

/-- No check of an orderly rule is disturbed by a later one. -/
theorem Rule.pairwise_undisturbed {rule : Rule} (h : rule.isOrderly = true) (o : Options) :
    rule.checks.Pairwise (Check.Undisturbed o) :=
  (of_decide_eq_true h).imp Check.undisturbed_of_isUndisturbedBy

open Validation

/-! ### A rule on the record that it has helped to make -/

theorem Rule.Judged.value_eq_of_isVerbatim {o : Options} {rule : Rule} {r : Entries}
    {part : Contribution} (h : rule.Judged o r part) (hn : part.violations = [])
    (hr : rule.isVerbatim = true) : part.value = r.get? rule.name := by
  rw [isVerbatim, Bool.and_eq_true, List.all_eq_true] at hr
  cases h with
  | skipped => rfl
  | missing ha hv => exact absent_value_of_isNull (required_eq_false_of_absent hn) hr.1 hv
  | @passed ha v w hv _ hc =>
      rw [hv]
      exact Check.chain_passed_induction (P := fun x => some x = some v)
        (fun c hc' x y hp hx => (hp.eq_of_isInert (hr.2 c hc')) ▸ hx) hc rfl
  | failed _ _ _ hc => exact absurd hn (Check.ne_nil_of_chain_failed hc)

/-- The rule has nothing to change about the value of its field, or about there being none. -/
structure Rule.Keeps (o : Options) (rule : Rule) (x : Option Value) : Prop where
  missing : x.getD .null = .null → rule.required = false ∧ rule.default.isNull = true
  checked : ∀ v, x = some v → v ≠ .null → Check.chain o rule.name rule.checks v = .ok (.passed v)

theorem Rule.Keeps.judged {o : Options} {rule : Rule} {t : Entries} (h : rule.Keeps o (t.get? rule.name)) :
    rule.Judged o t { name := rule.name, value := t.get? rule.name } := by
  cases ha : rule.appliesTo t with
  | false => exact .skipped ha
  | true =>
      by_cases hv : t.getD rule.name = .null
      · obtain ⟨hopt, hdef⟩ := h.missing hv
        rw [← absent_eq_of_isNull hopt hdef hv]
        exact .missing ha hv
      · obtain ⟨v, hg, -, hn⟩ := Entries.exists_of_getD_ne_null hv
        have hc := h.checked v hg hn
        rw [hg]
        exact .passed ha hg hn hc

/-- What a rule has recorded that applies it has nothing to change about. -/
theorem Rule.Judged.keeps {o : Options} {rule : Rule} {r : Entries} {part : Contribution}
    (h : rule.Judged o r part) (hn : part.violations = []) (ha : rule.appliesTo r = true)
    (hd : rule.acceptsDefault = true) (ho : rule.isOrderly = true) (hs : ∀ c ∈ rule.checks, c.Settled o) :
    rule.Keeps o part.value := by
  cases h with
  | skipped ha' =>
      rw [ha] at ha'
      cases ha'
  | missing =>
      have hopt := required_eq_false_of_absent hn
      rw [absent_of_not_required hopt]
      cases hdef : rule.default.isNull with
      | true =>
          refine ⟨fun _ => ⟨hopt, hdef⟩, fun v hv hnull => ?_⟩
          have hnone : (if r.has rule.name then some Value.null else none) = some v := hv
          split at hnone
          · exact absurd (Option.some.inj hnone).symm hnull
          · cases hnone
      | false =>
          -- the default is there the second time, so that now the checks see it
          refine ⟨fun hv => absurd hv (Value.isNull_eq_false_iff.mp hdef), fun v hv _ => ?_⟩
          cases hv
          refine Check.chain_of_accepts ?_
          rwa [acceptsDefault, hdef] at hd
  | @passed _ v w hg hnull hc =>
      refine ⟨fun hv => absurd hv (Check.chain_ne_null hc hnull), fun u hu _ => ?_⟩
      cases hu
      exact Check.chain_passed_again hs (rule.pairwise_undisturbed ho o) hc
  | failed _ _ _ hc => exact absurd hn (Check.ne_nil_of_chain_failed hc)

/-- A rule that has recorded a value makes the same contribution to any record that has this
value. -/
theorem Rule.Judged.again {o : Options} {rule : Rule} {r t : Entries} {part : Contribution}
    (h : rule.Judged o r part) (hn : part.violations = []) (hd : rule.acceptsDefault = true)
    (ho : rule.isOrderly = true) (hs : ∀ c ∈ rule.checks, c.Settled o)
    (ha : rule.appliesTo t = rule.appliesTo r) (hv : t.get? rule.name = part.value) :
    rule.Judged o t part := by
  have hpart : part = { name := rule.name, value := t.get? rule.name } := by
    rw [hv, ← h.name_eq, ← hn]
  rw [hpart]
  cases hr : rule.appliesTo r with
  | false => exact .skipped (ha.trans hr)
  | true =>
      refine Rule.Keeps.judged ?_
      rw [hv]
      exact h.keeps hn hr hd ho hs

/-! ### A schema on its own records -/

theorem Rule.AllJudged.get?_eq_of_isVerbatim {o : Options} {s : Schema} {r : Entries}
    {parts : List Contribution} (h : Rule.AllJudged o s.rules r parts) (hn : ∀ p ∈ parts, p.violations = [])
    (hd : s.fieldNames.Nodup) {name : String}
    (hverb : ∀ rule ∈ s.rules, rule.name = name → rule.isVerbatim = true) :
    (recorded parts ++ strays s r).get? name = r.get? name := by
  by_cases hm : name ∈ s.fieldNames
  · obtain ⟨rule, hr, hname⟩ := List.mem_map.mp hm
    obtain ⟨part, hp, hj⟩ := h.exists_of_mem hr
    rw [← hname, ← hj.name_eq, h.get?_of_mem hd hp, hj.name_eq]
    exact hj.value_eq_of_isVerbatim (hn part hp) (hverb rule hr hname)
  · exact h.get?_of_not_mem hm

/-- A condition on a field that is recorded as it is holds of the validated record as of the
record. -/
theorem Rule.AllJudged.holds_eq {o : Options} {s : Schema} {r : Entries} {parts : List Contribution}
    (h : Rule.AllJudged o s.rules r parts) (hn : ∀ p ∈ parts, p.violations = [])
    (hd : s.fieldNames.Nodup) {c : Condition} (hc : s.keepsField c = true) :
    c.holds (recorded parts ++ strays s r) = c.holds r := by
  obtain ⟨name, hname, hverb⟩ := Schema.keepsField_iff.mp hc
  exact Condition.holds_congr hname (h.get?_eq_of_isVerbatim hn hd hverb)

/-- A steady schema under whose checks items stay valid. -/
theorem Schema.lasting_of_nested {o : Options} {s : Schema} (hs : s.isSteady = true)
    (hnest : ∀ t ∈ s.nested, t.Lasting o) : s.Lasting o := by
  intro v t hv
  obtain ⟨r, rfl⟩ := exists_record_of_validate_eq_valid hv
  obtain ⟨parts, hp, hn, hu, rfl⟩ := validate_record_eq_valid_iff.mp hv
  obtain ⟨hd, hrules⟩ := isSteady_iff.mp hs
  -- what is recorded is declared, so that the entries that are not declared are the same ones
  have hstrays : strays s (recorded parts ++ strays s r) = strays s r := by
    rw [strays_append, strays_strays, strays_recorded, List.nil_append]
    intro p hpart
    rw [fieldNames, ← hp.names_eq]
    exact List.mem_map_of_mem hpart
  refine validate_record_eq_valid_iff.mpr ⟨parts, ?_, hn, ?_, ?_⟩
  · refine hp.imp fun rule hr part hpart hj => ?_
    obtain ⟨ho, hdef, hcond⟩ := hrules rule hr
    refine hj.again (hn part hpart) hdef ho (fun c hc => ?_) ?_ ?_
    · exact Check.settled_of_nested (forall_nested_of_rule hnest hr c hc)
    · cases hc : rule.condition with
      | none => simp [Rule.appliesTo, hc]
      | some c => simpa [Rule.appliesTo, hc] using hp.holds_eq hn hd (hcond c hc)
    · rw [← hj.name_eq]
      exact hp.get?_of_mem hd hpart
  · rw [← hu]
    simp only [unknownReport, hstrays]
  · rw [hstrays]

/-- **Validated records are valid.**  A schema that is steady, and in which only steady schemas are
nested, makes the same record of a record that it has made. -/
theorem Schema.lasting_of_isSteady (o : Options) {s : Schema} (hs : s.everywhere isSteady = true) :
    s.Lasting o := by
  induction s using Schema.nesting_induction with
  | step s ih =>
      obtain ⟨h, hnest⟩ := everywhere_iff.mp hs
      exact lasting_of_nested h fun t ht => ih t ht (hnest t ht)

/-! ### The catalogue -/

namespace Catalogue

theorem isSteady_of_mem : ∀ s ∈ pagination :: schemas, s.everywhere Schema.isSteady = true := by
  decide +kernel

theorem lasting_of_mem (o : Options) {s : Schema} (hs : s ∈ pagination :: schemas) : s.Lasting o :=
  s.lasting_of_isSteady o (isSteady_of_mem s hs)

/-- **Validated requests are valid.**  What a schema of the catalogue has made of a request it finds
valid under the same options, and leaves as it is. -/
theorem validate_validated {o : Options} {s : Schema} (hs : s = pagination ∨ s ∈ registry.schemas)
    {d r : Entries} (h : s.validate o (.record d) = .ok (.valid r)) :
    s.validate o (.record r) = .ok (.valid r) := by
  have hm : s ∈ pagination :: schemas := List.mem_cons.mpr hs
  exact lasting_of_mem o hm _ _ h

/-- A detail in which nothing is left to convert, to read or to fill in. -/
def enrolledDetail : Entries := [
  (.text "course_state", .text "Enrolled"),
  (.text "attempts", .int 2),
  (.text "closed_on", .moment ⟨⟨2024, 3, 1, by decide⟩, .midnight, none⟩)]

theorem validate_validated_batch :
    createEnrollmentDetailBatch.validate ⟨true, true⟩ (.record [(.text "items", .list [.record
        [(.text "closed_on", .text "2024-03-01"), (.text "attempts", .text "2")]])]) =
      .ok (.valid [(.text "items", .list [.record enrolledDetail])]) ∧
    createEnrollmentDetailBatch.validate ⟨true, true⟩
        (.record [(.text "items", .list [.record enrolledDetail])]) =
      .ok (.valid [(.text "items", .list [.record enrolledDetail])]) := by
  have h : createEnrollmentDetailBatch.validate ⟨true, true⟩ (.record [(.text "items", .list [.record
      [(.text "closed_on", .text "2024-03-01"), (.text "attempts", .text "2")]])]) =
      .ok (.valid [(.text "items", .list [.record enrolledDetail])]) := by rfl
  exact ⟨h, validate_validated (.inr (by simp [registry, schemas])) h⟩

end Catalogue

end Intake
