import Mathlib.Algebra.Group.Int.Defs
import Intake.Catalogue.Field
import Intake.Proofs.Items
import Intake.Proofs.Nesting
import Intake.Proofs.Writing

/-!
# Proofs — Answer — when there is an outcome

Without conversion, validation has one reason to fault: it has to write an integer of too many
digits, of the value, of its keys or of the bounds and defaults of a schema.  Values and schemas may
be nested to any depth here: a limit of recursion, beyond which validation would fault as well, is
not part of the model.

* Checks, chains of checks and rules have an answer for writable values (`Check.chain_answersIf`,
  `Rule.judge_answersIf`), and what they make of writable values is writable
  (`Check.chain_isWritable`), so that items can be validated again once they have been replaced.
* By induction on nesting, both hold of schemas (`Schema.answers`).  So a schema none of whose tests
  is left open has an outcome for every value, or else the value or the schema holds an integer that
  is too long (`Schema.validate_answers`).

An integer that is too long does make validation fault, as a value that is compared with words
(`coded_validate_of_long_value`) and as a key that is not declared (`coded_validate_of_long_key`).
-/

namespace Intake

open Validation

/-! ### Running checks -/

def Check.isSpecified : Check → Bool
  | .test t _  => t.isSpecified
  | .items _ _ => true

def Check.isWritable : Check → Bool
  | .test t _  => t.isWritable
  | .items _ _ => true

/-- No test of the schema has been left open. -/
def Schema.isSpecified (s : Schema) : Bool := s.rules.all fun rule => rule.checks.all (·.isSpecified)

/-- No bound and no default of the schema is too long. -/
def Schema.isWritable (s : Schema) : Bool :=
  s.rules.all fun rule => rule.default.isWritable && rule.checks.all (·.isWritable)

theorem Schema.isSpecified_iff {s : Schema} :
    s.isSpecified = true ↔ ∀ rule ∈ s.rules, ∀ c ∈ rule.checks, c.isSpecified = true := by
  simp only [isSpecified, List.all_eq_true]

theorem Schema.isWritable_iff {s : Schema} :
    s.isWritable = true ↔ ∀ rule ∈ s.rules,
      rule.default.isWritable = true ∧ ∀ c ∈ rule.checks, c.isWritable = true := by
  simp only [isWritable, List.all_eq_true, Bool.and_eq_true]

/-- Under a condition, a schema has an outcome for every writable value, and makes writable
records. -/
structure Schema.Answers (o : Options) (p : Prop) (s : Schema) : Prop where
  answersIf  : ∀ v, (p → v.isWritable = true) → AnswersIf p (s.validate o v)
  isWritable : p → ∀ v r, v.isWritable = true → s.validate o v = .ok (.valid r) →
    (Value.record r).isWritable = true

variable {o : Options} {p : Prop} {s : Schema}

namespace Validation

theorem itemOutcome_answersIf (hs : s.Answers o p) {item : Value} (hi : p → item.isWritable = true) :
    AnswersIf p (itemOutcome (s.validate o) item) := by
  cases item with
  | record r => exact (hs.answersIf _ hi).bind_pure _
  | _ => exact .ok _

theorem replacement_isWritable (hs : s.Answers o p) (hp : p) {item : Value} {out : Option Outcome}
    (h : itemOutcome (s.validate o) item = .ok out) (hi : item.isWritable = true) :
    (replacement item out).isWritable = true := by
  cases item with
  | record r =>
      obtain ⟨a, ha, rfl⟩ := itemOutcome_record_eq_ok_iff.mp h
      cases a with
      | valid t => exact hs.isWritable hp _ _ hi ha
      | invalid vs => exact hi
  | _ =>
      cases h
      exact hi

theorem ItemsJudged.areWritable (hs : s.Answers o p) (hp : p) {items : List Value}
    {outs : List (Option Outcome)} (h : ItemsJudged (s.validate o) items outs)
    (hi : Value.areWritable items = true) :
    Value.areWritable (List.zipWith replacement items outs) = true := by
  unfold ItemsJudged at h
  induction h with
  | nil => rfl
  | cons ho _ ih =>
      rw [Value.areWritable, Bool.and_eq_true] at hi
      rw [List.zipWith_cons_cons, Value.areWritable, Bool.and_eq_true]
      exact ⟨replacement_isWritable hs hp ho hi.1, ih hi.2⟩

end Validation

namespace Check

variable {c : Check} {v w : Value}

theorem coerce_answersIf (hs : ∀ t, c.nested? = some t → t.Answers o p) (hv : p → v.isWritable = true) :
    AnswersIf p (c.coerce o v) := by
  rcases c with ⟨t, m⟩ | ⟨_ | s, m⟩
  · rw [coerce_test]
    exact .ok _
  · rw [coerce_items_none]
    exact .ok _
  · rw [coerce_items_some]
    split
    · exact .ok _
    · rename_i items hi
      refine (AnswersIf.mapM fun item hitem => ?_).bind_pure _
      rw [replaceItem_eq]
      have hwritable : p → item.isWritable = true := fun hp =>
        Value.isWritable_of_mem_items? (hv hp) hi hitem
      exact (itemOutcome_answersIf (hs s rfl) hwritable).bind_pure _

theorem coerce_isWritable (hs : ∀ t, c.nested? = some t → t.Answers o p) (hp : p)
    (hv : v.isWritable = true) (h : c.coerce o v = .ok w) : w.isWritable = true := by
  rcases c with ⟨t, m⟩ | ⟨_ | s, m⟩
  · rw [coerce_test] at h
    cases h
    exact t.coerce_isWritable hv
  · rw [coerce_items_none] at h
    cases h
    exact hv
  · cases hi : v.items? with
    | none =>
        rw [coerce_items_of_no_list hi] at h
        cases h
        exact hv
    | some items =>
        obtain ⟨outs, ho, rfl⟩ := (coerce_items_eq_ok_iff hi).mp h
        refine ho.areWritable (hs s rfl) hp (Value.areWritable_iff.mpr fun x hx => ?_)
        exact Value.isWritable_of_mem_items? hv hi hx

theorem violations_answersIf (hc : c.isSpecified = true) (hw : p → c.isWritable = true)
    (hs : ∀ t, c.nested? = some t → t.Answers o p) (hv : p → v.isWritable = true) (field : String) :
    AnswersIf p (c.violations o field v) := by
  rcases c with ⟨t, m⟩ | ⟨_ | s, m⟩
  · rw [violations_test]
    exact ((t.examine_answersIf hc v).mono fun hp => ⟨hw hp, hv hp⟩).bind_pure _
  · rw [violations_items_none]
    exact .ok _
  · rw [violations_items_some]
    refine (AnswersIf.mapM fun item hitem => ?_).bind_pure _
    rw [reportItem_eq]
    have hmem : item.1 ∈ v.items?.getD [v] := (List.mem_zipIdx' hitem).2 ▸ List.getElem_mem _
    refine (itemOutcome_answersIf (hs s rfl) fun hp => ?_).bind_pure _
    -- what is no list is its own only item
    cases hi : v.items? with
    | none =>
        rw [hi, Option.getD_none, List.mem_singleton] at hmem
        exact hmem ▸ hv hp
    | some items =>
        rw [hi, Option.getD_some] at hmem
        exact Value.isWritable_of_mem_items? (hv hp) hi hmem

theorem prepare_of_not_converting (ho : o.implicitConversion = false) (c : Check) (v : Value) :
    c.prepare o v = .ok v := by
  rw [prepare, if_neg (by simp [ho])]

variable {checks : List Check} {field : String}

theorem chain_answersIf (ho : o.implicitConversion = false) (hc : ∀ c ∈ checks, c.isSpecified = true)
    (hw : p → ∀ c ∈ checks, c.isWritable = true)
    (hs : ∀ c ∈ checks, ∀ t, c.nested? = some t → t.Answers o p) (hv : p → v.isWritable = true) :
    AnswersIf p (Check.chain o field checks v) := by
  induction checks generalizing v with
  | nil =>
      rw [chain_nil]
      exact .ok _
  | cons c checks ih =>
      obtain ⟨hc, hcs⟩ := List.forall_mem_cons.mp hc
      obtain ⟨hs, hss⟩ := List.forall_mem_cons.mp hs
      simp only [chain_cons, prepare_of_not_converting ho, ok_bind]
      refine (coerce_answersIf hs hv).bind fun u hu => ?_
      have hu' : p → u.isWritable = true := fun hp => coerce_isWritable hs hp (hv hp) hu
      refine (violations_answersIf hc (fun hp => (List.forall_mem_cons.mp (hw hp)).1) hs hu' field).bind ?_
      intro vs _
      cases vs with
      | nil => exact ih hcs (fun hp => (List.forall_mem_cons.mp (hw hp)).2) hss hu'
      | cons w ws => exact .ok _

/-- What comes out of a chain is writable, as no check makes an integer where none is converted. -/
theorem chain_isWritable (ho : o.implicitConversion = false)
    (hs : ∀ c ∈ checks, ∀ t, c.nested? = some t → t.Answers o p) (hp : p) (hv : v.isWritable = true)
    (h : Check.chain o field checks v = .ok (.passed w)) : w.isWritable = true := by
  refine chain_passed_induction (P := fun x => x.isWritable = true) (fun c hc x y hpass hx => ?_) h hv
  obtain ⟨u, hu, hy, -⟩ := hpass
  rw [prepare_of_not_converting ho] at hu
  cases hu
  exact coerce_isWritable (hs c hc) hp hx hy

end Check

/-! ### Rules and schemas -/

namespace Rule

variable {rule : Rule} {r : Entries}

theorem judge_answersIf (ho : o.implicitConversion = false)
    (hc : ∀ c ∈ rule.checks, c.isSpecified = true) (hw : p → ∀ c ∈ rule.checks, c.isWritable = true)
    (hs : ∀ c ∈ rule.checks, ∀ t, c.nested? = some t → t.Answers o p)
    (hr : p → (Value.record r).isWritable = true) : AnswersIf p (Rule.judge o rule r) := by
  cases ha : rule.appliesTo r with
  | false =>
      rw [judge_of_not_appliesTo ha]
      exact .ok _
  | true =>
      by_cases hv : r.getD rule.name = .null
      · rw [judge_of_missing ha hv]
        exact .ok _
      · obtain ⟨v, hg, -, hn⟩ := Entries.exists_of_getD_ne_null hv
        rw [judge_of_present ha hg hn]
        have hwritable : p → v.isWritable = true := fun hp => Value.isWritable_of_get? (hr hp) hg
        exact (Check.chain_answersIf ho hc hw hs hwritable).bind_pure _

theorem Judged.value_isWritable (ho : o.implicitConversion = false)
    (hs : ∀ c ∈ rule.checks, ∀ t, c.nested? = some t → t.Answers o p) (hp : p)
    (hr : (Value.record r).isWritable = true) (hd : rule.default.isWritable = true)
    {part : Contribution} (h : rule.Judged o r part) (hn : part.violations = []) {w : Value}
    (hw : part.value = some w) : w.isWritable = true := by
  cases h with
  | skipped => exact Value.isWritable_of_get? hr hw
  | missing ha hv =>
      have hopt := required_eq_false_of_absent hn
      cases hdef : rule.default.isNull with
      | true =>
          rw [absent_value_of_isNull hopt hdef hv] at hw
          exact Value.isWritable_of_get? hr hw
      | false =>
          rw [absent_of_not_required hopt, hdef] at hw
          cases hw
          exact hd
  | passed _ hg _ hc =>
      cases hw
      exact Check.chain_isWritable ho hs hp (Value.isWritable_of_get? hr hg) hc
  | failed => cases hw

end Rule

theorem Validation.unknownReport_answersIf {r : Entries} (hr : p → (Value.record r).isWritable = true) :
    AnswersIf p (unknownReport o s r) := by
  unfold unknownReport
  split
  · refine AnswersIf.mapM fun e he => ?_
    refine ((Value.display_answersIf e.1).mono fun hp => ?_).bind_pure _
    exact (Value.entriesWritable_iff.mp (hr hp) e (List.mem_of_mem_filter he)).1
  · exact .ok _

namespace Schema

theorem validated_isWritable (ho : o.implicitConversion = false) (hp : p) (hw : s.isWritable = true)
    (hs : ∀ t ∈ s.nested, t.Answers o p) {d r : Entries} (hd : (Value.record d).isWritable = true)
    (h : s.validate o (.record d) = .ok (.valid r)) : (Value.record r).isWritable = true := by
  obtain ⟨parts, hparts, hn, -, rfl⟩ := validate_record_eq_valid_iff.mp h
  refine Value.entriesWritable_iff.mpr fun e he => ?_
  rcases List.mem_append.mp he with he | he
  · obtain ⟨part, hpart, hv⟩ := List.mem_filterMap.mp he
    obtain ⟨w, hw', rfl⟩ := Option.map_eq_some_iff.mp hv
    obtain ⟨rule, hrule, hj⟩ := exists_left_of_mem_forall₂ hparts hpart
    have hdefault : rule.default.isWritable = true := (isWritable_iff.mp hw rule hrule).1
    have hnested := forall_nested_of_rule hs hrule
    exact ⟨rfl, hj.value_isWritable ho hnested hp hd hdefault (hn part hpart) hw'⟩
  · exact Value.entriesWritable_iff.mp hd e (List.mem_of_mem_filter he)

theorem answers_of_nested (ho : o.implicitConversion = false) (hc : s.isSpecified = true)
    (hw : p → s.isWritable = true) (hs : ∀ t ∈ s.nested, t.Answers o p) : s.Answers o p := by
  refine ⟨fun v hv => ?_, fun hp v r hv h => ?_⟩
  · cases v with
    | record d =>
        rw [validate_record, Rule.judgeAll_eq_mapM]
        refine (AnswersIf.mapM fun rule hrule => ?_).bind fun parts _ => ?_
        · have hspecified := isSpecified_iff.mp hc rule hrule
          have hwritable : p → ∀ c ∈ rule.checks, c.isWritable = true := fun hp =>
            (isWritable_iff.mp (hw hp) rule hrule).2
          exact Rule.judge_answersIf ho hspecified hwritable (forall_nested_of_rule hs hrule) hv
        · rw [conclude_eq]
          exact (unknownReport_answersIf hv).bind_pure _
    | _ =>
        cases s
        exact .ok _
  · obtain ⟨d, rfl⟩ := exists_record_of_validate_eq_valid h
    exact validated_isWritable ho hp (hw hp) hs hv h

theorem answers (ho : o.implicitConversion = false) (hc : s.everywhere isSpecified = true)
    (hw : p → s.everywhere isWritable = true) : s.Answers o p := by
  induction s using nesting_induction with
  | step s ih =>
      obtain ⟨hspecified, hnested⟩ := everywhere_iff.mp hc
      refine answers_of_nested ho hspecified (fun hp => (everywhere_iff.mp (hw hp)).1) fun t ht => ?_
      exact ih t ht (hnested t ht) fun hp => (everywhere_iff.mp (hw hp)).2 t ht

/-- **There is an outcome.**  Without conversion, a schema none of whose tests is left open has an
outcome for every value whatsoever, unless an integer is too long to be written: one of the value,
or one of the bounds and defaults of the schema and of those nested in it.  (No limit is set to how
deep values are nested.) -/
theorem validate_answers (ho : o.implicitConversion = false) (hs : s.everywhere isSpecified = true)
    (v : Value) :
    (∃ out, s.validate o v = .ok out) ∨
      s.validate o v = .error .integerTooLong ∧
        (v.isWritable = false ∨ s.everywhere isWritable = false) := by
  have h := (answers ho hs And.right).answersIf v And.left
  rcases h.cases with hok | ⟨herror, hn⟩
  · exact .inl hok
  · refine .inr ⟨herror, ?_⟩
    rwa [not_and_or, Bool.not_eq_true, Bool.not_eq_true] at hn

end Schema

/-- Entries of some kind, each with a count and at a rate. -/
def ledger : Schema := ⟨"Ledger", [
  Catalogue.required "kind" [Catalogue.oneOf ["credit", "debit"]],
  Catalogue.optional "rate" [Catalogue.plain (.number (some (.int 0)) (some (.int 1)) (some 2))],
  Catalogue.required "entries" [Catalogue.plain (.array (some 1)),
    .items (some ⟨"Entry", [Catalogue.required "count" [Catalogue.integerFrom 1]]⟩) none]]⟩

/-- A ledger with hardly anything in its place, and a key that is a tuple. -/
def oddLedger : Value := .record [
  (.text "kind", .list [.int (10 ^ 40), .null]),
  (.text "rate", .int (-3)),
  (.text "entries", .tuple [.record [(.text "count", .int 0)], .int 7]),
  (.tuple [.int 1, .text "a"], .null)]

theorem Schema.validate_answers_oddLedger : ∃ out, ledger.validate ⟨true, false⟩ oddLedger = .ok out := by
  have hspecified : ledger.everywhere isSpecified = true := by decide
  rcases Schema.validate_answers (o := ⟨true, false⟩) rfl hspecified oddLedger with h | ⟨-, hv | hs⟩
  · exact h
  · exact absurd hv (by decide +kernel)
  · exact absurd hs (by decide +kernel)

/-! ### Integers that are too long -/

variable {n : Int}

theorem Value.display_of_not_isWritable (hn : Number.Integer.isWritable n = false) :
    Value.display (.int n) = .error .integerTooLong :=
  Number.Integer.write_of_not_isWritable hn

/-- A schema of a code that is a single letter. -/
def coded : Schema := ⟨"Coded", [Catalogue.required "code" [Catalogue.oneOf ["a"]]]⟩

/-- A value is shown to be compared with words. -/
theorem coded_validate_of_long_value (hn : Number.Integer.isWritable n = false) :
    coded.validate {} (.record [(.text "code", .int n)]) = .error .integerTooLong := by
  have hexamine (words : WordSet) : (Test.oneOf words).examine (.int n) = .error .integerTooLong := by
    simp only [Test.examine, Value.display_of_not_isWritable hn]
    rfl
  have hchain : Check.chain {} "code" [Catalogue.oneOf ["a"]] (.int n) = .error .integerTooLong :=
    Check.chain_test_of_error rfl (hexamine _) []
  have hjudge : Rule.judge {} (Catalogue.required "code" [Catalogue.oneOf ["a"]])
      [(.text "code", .int n)] = .error .integerTooLong := by
    have hget : Entries.get? [(.text "code", .int n)]
        (Catalogue.required "code" [Catalogue.oneOf ["a"]]).name = some (.int n) := rfl
    have hn : Value.int n ≠ .null := fun h => by cases h
    rw [Rule.judge_of_present rfl hget hn]
    simp only [Catalogue.required, hchain]
    rfl
  simp only [Schema.validate_record, coded, Rule.judgeAll_eq_mapM, List.mapM_cons, hjudge]
  rfl

/-- A key that is not declared is shown to be reported. -/
theorem coded_validate_of_long_key (hn : Number.Integer.isWritable n = false) :
    coded.validate ⟨true, false⟩ (.record [(.text "code", .text "a"), (.int n, .null)]) =
      .error .integerTooLong := by
  have hstray : strayKey (.int n) = .error .integerTooLong := by
    rw [strayKey, Value.display_of_not_isWritable hn]
    rfl
  have hstrays : strays coded [(.text "code", .text "a"), (.int n, .null)] = [(.int n, .null)] := by
    simp [strays, coded, Schema.declares, Schema.fieldNames, Catalogue.required]
  have hreport : unknownReport ⟨true, false⟩ coded [(.text "code", .text "a"), (.int n, .null)] =
      .error .integerTooLong := by
    rw [unknownReport, if_pos rfl, hstrays, List.mapM_cons, hstray]
    rfl
  have hrules : Rule.judgeAll ⟨true, false⟩ coded.rules [(.text "code", .text "a"), (.int n, .null)] =
      .ok [{ name := "code", value := some (.text "a") }] := rfl
  rw [Schema.validate_record, hrules, ok_bind, conclude_eq, hreport]
  rfl

/-- The smallest integer that is too long makes validation fault, as a value and as a key. -/
theorem coded_validate_of_smallest_long :
    coded.everywhere Schema.isSpecified = true ∧
      coded.validate {} (.record [(.text "code", .int (10 ^ 4300))]) = .error .integerTooLong ∧
      coded.validate ⟨true, false⟩ (.record [(.text "code", .text "a"), (.int (10 ^ 4300), .null)]) =
        .error .integerTooLong := by
  have hlong : Number.Integer.isWritable (10 ^ 4300) = false := by decide +kernel
  exact ⟨by decide, coded_validate_of_long_value hlong, coded_validate_of_long_key hlong⟩

end Intake
