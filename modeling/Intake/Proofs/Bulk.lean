import Intake.Proofs.Batch
import Intake.Proofs.Lasting

/-!
# Proofs — Bulk — many requests in one

A request in bulk holds a list of requests in a field.  If the schema of these is lasting, what is
reported of the list is what is reported of each of them by itself, and what is made of it is what
each of them is made into (`Rule.exists_judged_ofItems`).  Enrollment details, which may be sent one
at a time or in bulk, are of this kind.
-/

namespace Intake

open Validation

/-! ### Reports of a list -/

/-- The outcome of an item that is a record, by itself. -/
def outcomeOf (single : Entries → Outcome) : Value → Option Outcome
  | .record r => some (single r)
  | _         => none

/-- What is reported of a field that is to hold records, at least one, from the outcomes that these
have by themselves. -/
def listReport (field : String) (single : Entries → Outcome) (v : Value) : List Violation :=
  if v.isNull then [missingField field]
  else match v.items? with
    | none       => [⟨field, "is_array", .typeMismatch, "must be an array"⟩]
    | some []    => [⟨field, "array_min_size", .rangeViolation, "must contain at least 1 elements"⟩]
    | some items => items.zipIdx.flatMap fun item =>
        itemReport (itemPath field item.2) (outcomeOf single item.1)

theorem listReport_of_items {field : String} {single : Entries → Outcome} {v : Value} {items : List Value}
    (hv : v.items? = some items) (hn : items ≠ []) :
    listReport field single v = itemReports field (items.map (outcomeOf single)) 0 := by
  have hnull : v ≠ .null := fun e => by rw [e] at hv; cases hv
  unfold listReport
  rw [Value.isNull_eq_false_iff.mpr hnull, hv]
  cases items with
  | nil => exact absurd rfl hn
  | cons item items =>
      simp only [itemReports, List.zipIdx_map, List.flatMap_map, Prod.map_fst, Prod.map_snd, id,
        Bool.false_eq_true, if_false]

theorem itemsJudged_outcomeOf {judge : Value → Except Fault Outcome} {single : Entries → Outcome}
    {items : List Value} (h : ∀ r, .record r ∈ items → judge (.record r) = .ok (single r)) :
    ItemsJudged judge items (items.map (outcomeOf single)) := by
  unfold ItemsJudged
  rw [List.forall₂_map_right_iff, List.forall₂_same]
  intro item hm
  cases item with
  | record r => exact itemOutcome_record_eq_ok_iff.mpr ⟨single r, h r hm, rfl⟩
  | _ => rfl

/-- Items that are all valid are records, and their validated records are what takes their
places. -/
theorem exists_records_of_valid {judge : Value → Except Fault Outcome} {items : List Value}
    {outs : List (Option Outcome)} (h : ItemsJudged judge items outs)
    (hv : ∀ out ∈ outs, ∃ r, out = some (.valid r)) :
    ∃ rs, List.Forall₂ (fun item r => ∃ e, item = .record e ∧ judge (.record e) = .ok (.valid r)) items rs ∧
      List.zipWith replacement items outs = rs.map .record := by
  unfold ItemsJudged at h
  induction h with
  | nil => exact ⟨[], .nil, rfl⟩
  | @cons item out _ _ ho _ ih =>
      obtain ⟨⟨r, rfl⟩, hrest⟩ := List.forall_mem_cons.mp hv
      obtain ⟨rs, hrs, he⟩ := ih hrest
      refine ⟨r :: rs, .cons (itemOutcome_eq_valid_iff.mp ho) hrs, ?_⟩
      rw [List.zipWith_cons_cons, List.map_cons, he]
      rfl

/-! ### The rule of a list, under a lasting schema -/

section Array

variable {v : Value}

theorem examine_array_of_no_list (hv : v.items? = none) :
    (Test.array (some 1)).examine v = .ok (some ⟨"is_array", .typeMismatch, "must be an array"⟩) := by
  simp only [Test.examine, hv]
  rfl

theorem examine_array_of_nil (hv : v.items? = some []) :
    (Test.array (some 1)).examine v =
      .ok (some ⟨"array_min_size", .rangeViolation, "must contain at least 1 elements"⟩) := by
  simp only [Test.examine, hv]
  rfl

theorem accepts_array_of_cons {item : Value} {items : List Value} (hv : v.items? = some (item :: items)) :
    (Test.array (some 1)).accepts v = true := by
  rw [Test.accepts_iff]
  simp only [Test.examine, hv, List.length_cons]
  rw [if_neg (by omega)]

end Array

theorem Rule.judged_ofItems_of_finding {o : Options} {field : String} {s : Schema} {d : Entries} {v : Value}
    {f : Finding} (hv : d.get? field = some v) (hn : v ≠ .null)
    (hf : (Test.array (some 1)).examine v = .ok (some f)) :
    (Rule.ofItems field (some 1) s).Judged o d { name := field, violations := [f.at field] } := by
  have hl : (Test.array (some 1)).leaves v = true := Test.leaves_of_not_rereads rfl v
  exact .failed rfl hv hn (Check.chain_test_of_finding hl hf _)

/-- A rule for a list of one or more records, under a lasting schema that gives an outcome for each
of these, reports what is wrong with each of them, and otherwise makes a list of what each is made
into. -/
theorem Rule.exists_judged_ofItems {o : Options} {field : String} {s : Schema} (hs : s.Lasting o)
    {d : Entries} {single : Entries → Outcome}
    (h : ∀ r, .record r ∈ (d.getD field).items?.getD [] → s.validate o (.record r) = .ok (single r)) :
    ∃ part, (Rule.ofItems field (some 1) s).Judged o d part ∧
      part.violations = listReport field single (d.getD field) ∧
      (part.violations = [] → ∃ items rs, (d.getD field).items? = some items ∧
        List.Forall₂ (fun item r => ∃ e, item = .record e ∧ s.validate o (.record e) = .ok (.valid r)) items rs ∧
        part.value = some (.list (rs.map .record))) := by
  by_cases hnull : d.getD field = .null
  · refine ⟨_, .missing rfl hnull, ?_, fun hnil => ?_⟩
    · rw [absent_of_required rfl, hnull]
      rfl
    · rw [absent_of_required rfl] at hnil
      cases hnil
  obtain ⟨v, hv, hd, hn⟩ := Entries.exists_of_getD_ne_null hnull
  rw [hd] at h ⊢
  cases hi : v.items? with
  | none =>
      refine ⟨_, judged_ofItems_of_finding hv hn (examine_array_of_no_list hi), ?_, fun hnil => ?_⟩
      · simp only [listReport, Value.isNull_eq_false_iff.mpr hn, hi]
        rfl
      · cases hnil
  | some items =>
      cases items with
      | nil =>
          refine ⟨_, judged_ofItems_of_finding hv hn (examine_array_of_nil hi), ?_, fun hnil => ?_⟩
          · simp only [listReport, Value.isNull_eq_false_iff.mpr hn, hi]
            rfl
          · cases hnil
      | cons item items =>
          rw [hi, Option.getD_some] at h
          -- the items are judged twice, with the same outcomes since the schema is lasting
          have houts := itemsJudged_outcomeOf h
          refine ⟨_, (Rule.ofItems_judged_iff hv hi (accepts_array_of_cons hi)).mpr
            ⟨_, _, houts, houts.again hs, rfl⟩, ?_, fun hnil => ?_⟩
          · rw [violations_ofVerdict, listReport_of_items hi (List.cons_ne_nil _ _)]
          · rw [violations_ofVerdict] at hnil
            obtain ⟨rs, hrs, he⟩ := exists_records_of_valid houts ((Check.itemReports_eq_nil_iff houts).mp hnil)
            refine ⟨_, rs, rfl, hrs, ?_⟩
            rw [hnil, he]
            rfl

/-! ### Enrollment details -/

namespace Catalogue

/-- **Details in bulk.**  A request for many details reports of its items what is reported of each
of them by itself, and is valid with the details that each of them is made into. -/
theorem createEnrollmentDetailBatch_outcome {o : Options} {d : Entries} {single : Entries → Outcome}
    {unknown : List Violation}
    (hsingle : ∀ e, .record e ∈ (d.getD "items").items?.getD [] →
      createEnrollmentDetail.validate o (.record e) = .ok (single e))
    (hunknown : unknownReport o createEnrollmentDetailBatch d = .ok unknown) :
    ∃ out, createEnrollmentDetailBatch.validate o (.record d) = .ok out ∧
      out.violations = listReport "items" single (d.getD "items") ++ unknown ∧
      (out.violations = [] → ∃ items rs, (d.getD "items").items? = some items ∧
        List.Forall₂ (fun item r => ∃ e, item = .record e ∧
          createEnrollmentDetail.validate o (.record e) = .ok (.valid r)) items rs ∧
        out = .valid ((.text "items", .list (rs.map .record)) :: strays createEnrollmentDetailBatch d)) := by
  have hs : createEnrollmentDetail.Lasting o := lasting_of_mem o (by simp [schemas])
  obtain ⟨part, hj, hp, hvalid⟩ := Rule.exists_judged_ofItems hs hsingle
  have hall : Rule.AllJudged o createEnrollmentDetailBatch.rules d [part] :=
    Rule.allJudged_singleton_iff.mpr ⟨part, hj, rfl⟩
  refine ⟨_, Schema.validate_record_eq_ok_iff.mpr ⟨_, _, hall, hunknown, rfl⟩, ?_, fun hnil => ?_⟩
  · rw [Outcome.violations_ofViolations, List.flatMap_singleton, hp]
  · rw [Outcome.violations_ofViolations, List.flatMap_singleton, List.append_eq_nil_iff] at hnil
    obtain ⟨items, rs, hi, hrs, he⟩ := hvalid hnil.1
    refine ⟨items, rs, hi, hrs, Outcome.ofViolations_eq_valid_iff.mpr ⟨?_, ?_⟩⟩
    · rw [List.flatMap_singleton, hnil.1, hnil.2]
      rfl
    · rw [hnil.2] at hunknown
      rw [kept_eq_strays hunknown]
      simp only [recorded, List.filterMap_cons, he, hj.name_eq, Option.map_some, List.filterMap_nil]
      rfl

/-- The outcome of a detail by itself where unknown fields are forbidden, if there is one. -/
def detailOutcome (e : Entries) : Outcome :=
  (createEnrollmentDetail.validate ⟨true, false⟩ (.record e)).toOption.getD (.valid [])

/-- A request with a valid detail, something that is no detail, one that is not valid, and a field
that is not declared. -/
def mixedDetails : Entries := [
  (.text "items", .list [.record [(.text "closed_on", .text "2024-03-01")], .int 3,
    .record [(.text "attempts", .int 0), (.text "grade", .int 1)]]),
  (.text "extra", .null)]

theorem createEnrollmentDetailBatch_outcome_mixed :
    ∃ out, createEnrollmentDetailBatch.validate ⟨true, false⟩ (.record mixedDetails) = .ok out ∧
      out.violations = listReport "items" detailOutcome (mixedDetails.getD "items") ++
        [⟨"extra", "whitelist", .unknownField, "property extra should not exist"⟩] ∧
      (out.violations = [] → ∃ items rs, (mixedDetails.getD "items").items? = some items ∧
        List.Forall₂ (fun item r => ∃ e, item = .record e ∧
          createEnrollmentDetail.validate ⟨true, false⟩ (.record e) = .ok (.valid r)) items rs ∧
        out = .valid ((.text "items", .list (rs.map .record)) ::
          strays createEnrollmentDetailBatch mixedDetails)) := by
  refine createEnrollmentDetailBatch_outcome (fun e he => ?_) (by rfl)
  simp only [mixedDetails, Entries.getD, Entries.get?, Value.items?, Option.getD_some, if_true,
    List.mem_cons, Value.record.injEq, reduceCtorEq, List.not_mem_nil, false_or, or_false] at he
  rcases he with rfl | rfl <;> rfl

end Catalogue

end Intake
