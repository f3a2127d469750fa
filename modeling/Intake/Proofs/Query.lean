import Intake.Proofs.Answer
import Intake.Proofs.Mapping
import Intake.Proofs.Numeral
import Intake.Proofs.Update

/-!
# Proofs — Query — records as query strings hold them

A query string holds texts only: integers are written in decimal and truth values as `true` and
`false` (`Value.inQuery`).  Conversion reads them back where a check asks for them
(`Test.convert_inQuery`), and has nothing to read in the texts of all other fields.

So a record of integers, truth values and texts, each where the schema expects it
(`Schema.IsQuery`), comes to the same without conversion as its query string with conversion
(`Schema.validate_inQuery`): the same validated record, or the same violations.  What this needs of
a schema is decided from its rules, which are without conditions and have one check that reads or
none (`Rule.isOfQueries`).  All lists of the catalogue are asked for by schemas of this kind
(`Catalogue.validate_query`).
-/

namespace Intake

open Validation

/-! ### Query strings -/

/-- A value as a query string holds it. -/
def Value.inQuery : Value → Value
  | .bool true  => .text "true"
  | .bool false => .text "false"
  | .int n      =>
    match Number.Integer.write n with
    | .ok s    => .text s
    | .error _ => .int n
  | v           => v

def Entries.inQuery (r : Entries) : Entries := r.map fun e => (e.1, e.2.inQuery)

theorem Value.inQuery_int {n : Int} (h : Number.Integer.isWritable n = true) :
    (Value.int n).inQuery = .text (String.ofList (Number.Integer.digits n)) := by
  rw [inQuery, Number.Integer.write_of_isWritable h]

theorem Value.inQuery_eq_null_iff {v : Value} : v.inQuery = .null ↔ v = .null := by
  cases v with
  | bool b => cases b <;> simp [inQuery]
  | int n =>
      rw [inQuery]
      split <;> simp
  | _ => simp [inQuery]

theorem Entries.get?_inQuery (r : Entries) (name : String) :
    r.inQuery.get? name = (r.get? name).map Value.inQuery :=
  get?_map (fun _ v => v.inQuery) r name

theorem Entries.getD_inQuery_eq_null_iff {r : Entries} {name : String} :
    r.inQuery.getD name = .null ↔ r.getD name = .null := by
  rw [getD, getD, get?_inQuery]
  cases r.get? name with
  | none => simp
  | some v => simpa using Value.inQuery_eq_null_iff

/-! ### Reading a query string -/

namespace Check

/-- A check of integers. -/
def isOfIntegers : Check → Bool
  | .test (.integer ..) _ => true
  | _                     => false

/-- A check of truth values. -/
def isOfTruth : Check → Bool
  | .test .boolean _ => true
  | _                => false

theorem isInert_of_isOfIntegers {c : Check} (h : c.isOfIntegers = true) : c.isInert = false := by
  rcases c with ⟨_ | _, m⟩ | ⟨s, m⟩
  case test.integer => rfl
  all_goals cases h

theorem isInert_of_isOfTruth {c : Check} (h : c.isOfTruth = true) : c.isInert = false := by
  rcases c with ⟨_ | _, m⟩ | ⟨s, m⟩
  case test.boolean => rfl
  all_goals cases h

end Check

/-- A value for the field of a rule, as it is before it is written into a query string: an integer
that can be written, a truth value, or a text for every check that reads neither. -/
def Rule.queries (rule : Rule) : Value → Bool
  | .int n  => rule.checks.any (·.isOfIntegers) && Number.Integer.isWritable n
  | .bool _ => rule.checks.any (·.isOfTruth)
  | .text _ => !rule.checks.any fun c => c.isOfIntegers || c.isOfTruth
  | _       => false

/-- A value that a query string may hold under a key, which is a text if no rule is for the key. -/
def Schema.queries (s : Schema) (k v : Value) : Bool :=
  match k.text?.bind s.rule? with
  | some rule => rule.queries v
  | none      => v.text?.isSome

/-- A record that can be written as a query string for a schema. -/
def Schema.IsQuery (s : Schema) (d : Entries) : Prop := ∀ e ∈ d, s.queries e.1 e.2 = true

instance (s : Schema) (d : Entries) : Decidable (s.IsQuery d) :=
  inferInstanceAs (Decidable (∀ e ∈ d, _))

/-- A rule that always applies and reads an integer, or a truth value, or nothing. -/
def Rule.isOfQueries (rule : Rule) : Bool :=
  rule.condition.isNone &&
    match rule.checks with
    | [.test (.integer ..) _] => true
    | [.test .boolean _]      => true
    | checks                  => checks.all (·.isInert)

variable {forbid : Bool} {field : String}

theorem Test.convert_integer_inQuery {least most : Option Number} {n : Int}
    (h : Number.Integer.isWritable n = true) :
    (Test.integer least most).convert (Value.int n).inQuery = .ok (.int n) := by
  rw [Value.inQuery_int h]
  simp only [convert, Number.Integer.isNumeral_digits, if_true, Number.Integer.read_digits h]
  rfl

theorem Test.convert_boolean_inQuery (b : Bool) :
    Test.boolean.convert (Value.bool b).inQuery = .ok (.bool b) := by
  cases b with
  | true => rfl
  | false => rfl

namespace Check

/-- A test sees what it reads with conversion as it sees this itself without. -/
theorem chain_of_convert {t : Test} {m : Option String} {v w : Value} (h : t.convert w = .ok v) :
    Check.chain ⟨forbid, true⟩ field [.test t m] w = Check.chain ⟨forbid, false⟩ field [.test t m] v := by
  have hprepare : (Check.test t m).prepare ⟨forbid, true⟩ w = .ok v := h
  have hplain : (Check.test t m).prepare ⟨forbid, false⟩ v = .ok v := rfl
  simp only [chain_cons, chain_nil, hprepare, hplain, ok_bind, coerce_test, violations_test]

theorem prepare_of_isInert {c : Check} (h : c.isInert = true) (o : Options) (v : Value) :
    c.prepare o v = .ok v := by
  rcases c with ⟨t, m⟩ | ⟨s, m⟩
  · refine prepare_test_of_leaves (Test.leaves_of_not_rereads ?_ v)
    simpa [isInert] using h
  · exact prepare_items ..

/-- Conversion is nothing to checks that read nothing. -/
theorem chain_of_isInert {checks : List Check} (h : checks.all (·.isInert) = true) (v : Value) :
    Check.chain ⟨forbid, true⟩ field checks v = Check.chain ⟨forbid, false⟩ field checks v := by
  induction checks generalizing v with
  | nil => rw [chain_nil, chain_nil]
  | cons c checks ih =>
      rw [List.all_cons, Bool.and_eq_true] at h
      have hrest := ih h.2
      simp only [chain_cons, prepare_of_isInert h.1, ok_bind, hrest]
      rcases c with ⟨t, m⟩ | ⟨_ | s, m⟩
      · simp only [coerce_test, violations_test]
      · simp only [coerce_items_none, violations_items_none]
      · cases h.1

end Check

namespace Rule

variable {rule : Rule} {v : Value}

/-- What a query string holds of a rule whose checks read nothing is a text. -/
theorem exists_text_of_queries (hr : rule.checks.all (·.isInert) = true) (hv : rule.queries v = true) :
    ∃ t, v = .text t := by
  have hnone (p : Check → Bool) (hp : ∀ c, p c = true → c.isInert = false) : rule.checks.any p = false := by
    rw [List.any_eq_false]
    intro c hc hpc
    have hinert := List.all_eq_true.mp hr c hc
    rw [hp c hpc] at hinert
    cases hinert
  cases v with
  | text t => exact ⟨t, rfl⟩
  | int n =>
      rw [queries, hnone _ fun _ => Check.isInert_of_isOfIntegers] at hv
      cases hv
  | bool b =>
      rw [queries, hnone _ fun _ => Check.isInert_of_isOfTruth] at hv
      cases hv
  | _ => cases hv

theorem isWritable_of_queries (hv : rule.queries v = true) : v.isWritable = true := by
  cases v with
  | int n =>
      rw [queries, Bool.and_eq_true] at hv
      exact hv.2
  | bool b => rfl
  | text t => rfl
  | _ => cases hv

theorem chain_inQuery (hr : rule.isOfQueries = true) (hv : rule.queries v = true) :
    Check.chain ⟨forbid, true⟩ field rule.checks v.inQuery = Check.chain ⟨forbid, false⟩ field rule.checks v := by
  obtain ⟨name, checks, required, default, condition⟩ := rule
  rw [isOfQueries, Bool.and_eq_true] at hr
  have hchecks := hr.2
  dsimp only at hchecks ⊢
  split at hchecks
  · -- a check of integers
    cases v with
    | int n =>
        rw [queries, Bool.and_eq_true] at hv
        exact Check.chain_of_convert (Test.convert_integer_inQuery hv.2)
    | _ => cases hv
  · cases v with
    | bool b => exact Check.chain_of_convert (Test.convert_boolean_inQuery b)
    | _ => cases hv
  · obtain ⟨t, rfl⟩ := exists_text_of_queries hchecks hv
    exact Check.chain_of_isInert hchecks (.text t)

theorem appliesTo_of_isOfQueries (hr : rule.isOfQueries = true) (r : Entries) : rule.appliesTo r = true := by
  rw [isOfQueries, Bool.and_eq_true, Option.isNone_iff_eq_none] at hr
  simp [appliesTo, hr.1]

/-- A rule contributes the same to a query string and to the record that has been written into
it. -/
theorem judge_inQuery (hr : rule.isOfQueries = true) {d : Entries}
    (hd : ∀ v, d.get? rule.name = some v → rule.queries v = true) :
    Rule.judge ⟨forbid, true⟩ rule d.inQuery = Rule.judge ⟨forbid, false⟩ rule d := by
  have ha (r : Entries) : rule.appliesTo r = true := appliesTo_of_isOfQueries hr r
  by_cases hv : d.getD rule.name = .null
  · have hhas : d.inQuery.has rule.name = d.has rule.name := by
      rw [Entries.has, Entries.has, Entries.get?_inQuery, Option.isSome_map]
    rw [judge_of_missing (ha _) hv, judge_of_missing (ha _) (Entries.getD_inQuery_eq_null_iff.mpr hv), hhas]
  · obtain ⟨v, hg, -, hn⟩ := Entries.exists_of_getD_ne_null hv
    have hg' : d.inQuery.get? rule.name = some v.inQuery := by
      rw [Entries.get?_inQuery, hg]
      rfl
    rw [judge_of_present (ha _) hg hn, judge_of_present (ha _) hg' (mt Value.inQuery_eq_null_iff.mp hn),
      chain_inQuery hr (hd v hg)]

end Rule

namespace Schema

variable {s : Schema} {d : Entries}

theorem IsQuery.queries_of_mem (hd : s.IsQuery d) (hs : s.fieldNames.Nodup) {rule : Rule}
    (hrule : rule ∈ s.rules) {v : Value} (hv : d.get? rule.name = some v) : rule.queries v = true := by
  have h := hd _ (Entries.mem_of_get? hv)
  simpa [queries, Value.text?, rule?_of_mem hs hrule] using h

theorem IsQuery.exists_text (hd : s.IsQuery d) {k v : Value} (hm : (k, v) ∈ d) (hk : s.declares k = false) :
    ∃ t, v = .text t := by
  have h : s.queries k v = true := hd _ hm
  rw [queries] at h
  split at h
  case h_1 rule hr =>
    -- the rule that was found is for a field of this name
    obtain ⟨name, hname, hfind⟩ := Option.bind_eq_some_iff.mp hr
    cases k <;> cases hname
    rw [declares_of_rule?_eq_some hfind] at hk
    cases hk
  case h_2 =>
    cases v <;> cases h
    exact ⟨_, rfl⟩

/-- Entries that are not declared are texts, which stay as they are. -/
theorem IsQuery.strays_inQuery (hd : s.IsQuery d) : strays s d.inQuery = strays s d := by
  rw [Entries.inQuery, strays_map s (fun _ v => v.inQuery)]
  refine (List.map_congr_left fun e he => ?_).trans (List.map_id _)
  obtain ⟨hm, hk⟩ := List.mem_filter.mp he
  obtain ⟨k, v⟩ := e
  obtain ⟨t, rfl⟩ := hd.exists_text hm (by simpa using hk)
  rfl

/-- A query string comes to the same with conversion as what has been written into it comes to
without. -/
theorem validate_inQuery (hs : s.fieldNames.Nodup) (hr : s.rules.all (·.isOfQueries) = true)
    (hd : s.IsQuery d) :
    s.validate ⟨forbid, true⟩ (.record d.inQuery) = s.validate ⟨forbid, false⟩ (.record d) := by
  have hjudge : ∀ rule ∈ s.rules,
      Rule.judge ⟨forbid, true⟩ rule d.inQuery = Rule.judge ⟨forbid, false⟩ rule d := fun rule hrule =>
    Rule.judge_inQuery (List.all_eq_true.mp hr rule hrule) fun _ hv => hd.queries_of_mem hs hrule hv
  have hall : Rule.judgeAll ⟨forbid, true⟩ s.rules d.inQuery = Rule.judgeAll ⟨forbid, false⟩ s.rules d := by
    rw [Rule.judgeAll_eq_mapM, Rule.judgeAll_eq_mapM]
    exact mapM_congr hjudge
  -- the conclusion sees nothing of the record but what is not declared
  have hconclude : conclude ⟨forbid, true⟩ s d.inQuery = conclude ⟨forbid, false⟩ s d := by
    funext parts
    simp only [conclude, hd.strays_inQuery]
  rw [validate_record, validate_record, hall, hconclude]

/-- All that can be too long to be written in such a record is a key. -/
theorem IsQuery.isWritable (hd : s.IsQuery d) (hkeys : ∀ k ∈ d.keys, k.isWritable = true) :
    (Value.record d).isWritable = true := by
  refine Value.entriesWritable_iff.mpr fun e he => ⟨hkeys _ (List.mem_map_of_mem he), ?_⟩
  have h := hd e he
  rw [queries] at h
  split at h
  · exact Rule.isWritable_of_queries h
  · cases hv : e.2 <;> rw [hv] at h <;> cases h
    rfl

end Schema

/-! ### The lists of the catalogue -/

namespace Catalogue

/-- The schemas of requests for lists, which are named for that. -/
def lists : List Schema := schemas.filter fun s => "List".toList.isPrefixOf s.name.toList

theorem mem_of_mem_lists {s : Schema} (hs : s ∈ pagination :: lists) : s ∈ pagination :: schemas :=
  List.mem_cons.mpr ((List.mem_cons.mp hs).imp_right List.mem_of_mem_filter)

theorem isOfQueries_of_mem : ∀ s ∈ pagination :: lists, s.rules.all (·.isOfQueries) = true := by
  decide +kernel

theorem answers_of_mem_lists : ∀ s ∈ pagination :: lists,
    s.everywhere Schema.isSpecified = true ∧ s.everywhere Schema.isWritable = true := by
  decide +kernel

/-- **Queries of lists.**  A request for a list comes to the same from a query string, with
conversion, as from the integers, truth values and texts that are written in it, without conversion;
and it comes to something if its keys can be shown. -/
theorem validate_query {s : Schema} (hs : s = pagination ∨ s ∈ lists) (forbid : Bool) {d : Entries}
    (hd : s.IsQuery d) :
    s.validate ⟨forbid, true⟩ (.record d.inQuery) = s.validate ⟨forbid, false⟩ (.record d) ∧
    ((∀ k ∈ d.keys, k.isWritable = true) → ∃ out, s.validate ⟨forbid, false⟩ (.record d) = .ok out) := by
  have hm : s ∈ pagination :: lists := List.mem_cons.mpr hs
  have hnames := Schema.nodup_of_everywhere (isSteady_of_mem s (mem_of_mem_lists hm))
  refine ⟨Schema.validate_inQuery hnames (isOfQueries_of_mem s hm) hd, fun hkeys => ?_⟩
  obtain ⟨hspecified, hwritable⟩ := answers_of_mem_lists s hm
  have hanswers : s.Answers ⟨forbid, false⟩ True := Schema.answers rfl hspecified fun _ => hwritable
  rcases (hanswers.answersIf _ fun _ => hd.isWritable hkeys).cases with h | ⟨-, hn⟩
  · exact h
  · exact absurd trivial hn

/-- A request for free rooms, with a page that there is not and a key that is not declared. -/
def roomRequest : Entries := [
  (.text "available", .bool true),
  (.text "page", .int (-3)),
  (.text "min_capacity", .int 123456789012345678901234567890),
  (.text "building", .text "7"),
  (.text "sort", .text "true")]

theorem validate_query_rooms :
    roomRequest.inQuery = [
        (.text "available", .text "true"),
        (.text "page", .text "-3"),
        (.text "min_capacity", .text "123456789012345678901234567890"),
        (.text "building", .text "7"),
        (.text "sort", .text "true")] ∧
      listClassrooms.validate ⟨true, true⟩ (.record roomRequest.inQuery) =
        listClassrooms.validate ⟨true, false⟩ (.record roomRequest) ∧
      ∃ out, listClassrooms.validate ⟨true, false⟩ (.record roomRequest) = .ok out := by
  have hmem : listClassrooms ∈ lists := List.mem_filter.mpr ⟨by simp [schemas], by decide⟩
  have hquery : listClassrooms.IsQuery roomRequest := by decide +kernel
  obtain ⟨hsame, hout⟩ := validate_query (.inr hmem) true hquery
  exact ⟨by rfl, hsame, hout (by decide +kernel)⟩

end Catalogue

end Intake
