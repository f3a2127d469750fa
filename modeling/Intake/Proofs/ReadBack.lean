import Intake.Proofs.Dating

/-!
# Proofs — Read back — validated records with their moments as texts

If every moment of a validated record is replaced by its ISO 8601 form, the record is still valid,
and validation makes of it the record with the moments that are read from these texts
(`Schema.readsBack_of_isDated`).  This asks of a schema that it is steady and that the checks of a
field are one check of dates, or a check of a list and of its items, or have to do with neither
(`Rule.isDated`).  All schemas of the catalogue are of this kind (`Catalogue.validate_isoWritten`).

The moments that are read are the moments that were written, but for offsets of less than a second,
which are lost.
-/

namespace Intake

open Calendar (Moment)
open Validation

/-- Validation reads the moments of the schema's own records from their texts. -/
def Schema.ReadsBack (o : Options) (s : Schema) : Prop :=
  ∀ r : Entries, s.validate o (.record r) = .ok (.valid r) →
    s.validate o (.record (s.isoWritten r)) = .ok (.valid (s.reread r))

/-- One check of dates, or a check of a list and of its items, or checks that have to do with
neither. -/
def Rule.isDated (rule : Rule) : Bool :=
  match rule.checks with
  | [.test .date _]                         => true
  | [.test (.array _) _, .items (some _) _] => true
  | checks                                  => checks.all (·.isUndated)

variable {f : Moment → Value} {o : Options} {field : String}

/-! ### Items that stay as they are, and changed items -/

namespace Validation

/-- Items that are replaced by themselves, being valid, are records that stay as they are. -/
theorem valid_items_of_replaced {s : Schema} {items : List Value} {outs : List (Option Outcome)}
    (hj : ItemsJudged (s.validate o) items outs) (hr : List.zipWith replacement items outs = items)
    (hv : ∀ out ∈ outs, ∃ r, out = some (.valid r)) :
    ∀ item ∈ items, ∃ r, item = .record r ∧ s.validate o (.record r) = .ok (.valid r) := by
  unfold ItemsJudged at hj
  induction hj with
  | nil => exact nofun
  | cons hout _ ih =>
      rw [List.zipWith_cons_cons] at hr
      obtain ⟨hitem, hitems⟩ := List.cons.inj hr
      obtain ⟨⟨r, rfl⟩, hvalid⟩ := List.forall_mem_cons.mp hv
      rw [← hitem] at hout
      obtain ⟨e, he, hval⟩ := itemOutcome_eq_valid_iff.mp hout
      cases he
      exact List.forall_mem_cons.mpr ⟨⟨r, hitem.symm, hval⟩, ih hitems hvalid⟩

/-- Outcomes for changed items, under a schema that makes other records of theirs. -/
theorem exists_outcomes {s : Schema} {items : List Value} {g h : Entries → Entries}
    (hi : ∀ item ∈ items, ∃ r, item = .record r ∧ s.validate o (.record (g r)) = .ok (.valid (h r)) ∧
      s.validate o (.record (h r)) = .ok (.valid (h r))) :
    ∃ outs, ItemsJudged (s.validate o) (items.map (·.onRecord g)) outs ∧
      ItemsJudged (s.validate o) (items.map (·.onRecord h)) outs ∧
      List.zipWith replacement (items.map (·.onRecord g)) outs = items.map (·.onRecord h) ∧
      ∀ out ∈ outs, ∃ r, out = some (.valid r) := by
  unfold ItemsJudged
  induction items with
  | nil => exact ⟨[], .nil, .nil, rfl, nofun⟩
  | cons item items ih =>
      obtain ⟨⟨r, rfl, hg, hh⟩, hrest⟩ := List.forall_mem_cons.mp hi
      obtain ⟨outs, h₁, h₂, hr, hv⟩ := ih hrest
      refine ⟨some (.valid (h r)) :: outs, .cons ?_ h₁, .cons ?_ h₂, ?_,
        List.forall_mem_cons.mpr ⟨⟨_, rfl⟩, hv⟩⟩
      · exact itemOutcome_eq_valid_iff.mpr ⟨_, rfl, hg⟩
      · exact itemOutcome_eq_valid_iff.mpr ⟨_, rfl, hh⟩
      · rw [List.map_cons, List.map_cons, List.zipWith_cons_cons, hr]
        rfl

end Validation

/-! ### Checks -/

namespace Check

theorem passes_date_iso (m : Option String) (t : Moment) :
    (Check.test .date m).Passes o field t.isoText (.moment t.reread) := by
  refine ⟨t.isoText, ?_, ?_, violations_test_eq_nil_iff.mpr rfl⟩
  · unfold prepare
    split <;> rfl
  · rw [coerce_test, Calendar.Moment.isoText, Test.coerce, Calendar.Moment.read?_iso]

theorem valid_items_of_passes {s : Schema} {m : Option String} {v : Value} {items : List Value}
    (hv : v.items? = some items) (h : (Check.items (some s) m).Passes o field v v) :
    v = .list items ∧ ∀ item ∈ items, ∃ r, item = .record r ∧ s.validate o (.record r) = .ok (.valid r) := by
  obtain ⟨firsts, seconds, h₁, hlist, h₂, hn⟩ := (passes_items_iff hv).mp h
  have hr : List.zipWith replacement items firsts = items := by
    rw [hlist] at hv
    exact Option.some.inj hv
  rw [hr] at hlist
  exact ⟨hlist, valid_items_of_replaced h₁ hr (valid_of_replaced h₁ h₂ hn)⟩

theorem passes_onItems {s : Schema} {m : Option String} {items : List Value} {g h : Entries → Entries}
    (hi : ∀ item ∈ items, ∃ r, item = .record r ∧ s.validate o (.record (g r)) = .ok (.valid (h r)) ∧
      s.validate o (.record (h r)) = .ok (.valid (h r))) :
    (Check.items (some s) m).Passes o field ((Value.list items).onItems g) ((Value.list items).onItems h) := by
  obtain ⟨outs, h₁, h₂, hr, hv⟩ := exists_outcomes hi
  refine (passes_items_iff rfl).mpr ⟨outs, outs, h₁, congrArg Value.list hr.symm, ?_, hv⟩
  rw [hr]
  exact h₂

end Check

/-- What the checks of a rule leave as it is, they read back. -/
theorem Rule.chain_isoWritten {rule : Rule} (hr : rule.isDated = true)
    (hl : ∀ c ∈ rule.checks, ∀ t, c.nested? = some t → t.Lasting o)
    (hs : ∀ c ∈ rule.checks, ∀ t, c.nested? = some t → t.ReadsBack o) {v : Value}
    (h : Check.chain o field rule.checks v = .ok (.passed v)) :
    Check.chain o field rule.checks (Check.redateAll (·.isoText) rule.checks v) =
      .ok (.passed (Check.redateAll (fun m => .moment m.reread) rule.checks v)) := by
  unfold isDated at hr
  split at hr
  · -- a check of dates
    rename_i m heq
    rw [heq] at h ⊢
    cases v with
    | moment t => exact Check.chain_singleton_passed_iff.mpr (Check.passes_date_iso m t)
    | date d => exact h
    | _ => cases (Check.chain_singleton_passed_iff.mp h).accepts
  · -- a check of a list and of its items
    rename_i minSize m s n heq
    rw [heq] at h hl hs ⊢
    obtain ⟨u, hu, h⟩ := Check.chain_cons_passed_iff.mp h
    obtain rfl := hu.eq_of_leaves (Test.leaves_of_not_rereads rfl v)
    obtain ⟨items, hitems⟩ := Test.exists_items_of_accepts hu.accepts
    obtain ⟨rfl, hvalid⟩ := Check.valid_items_of_passes hitems (Check.chain_singleton_passed_iff.mp h)
    have hmem : Check.items (some s) n ∈ [Check.test (.array minSize) m, .items (some s) n] := by simp
    refine Check.chain_cons_passed_iff.mpr ⟨_, Check.passes_test_self ?_,
      Check.chain_singleton_passed_iff.mpr (Check.passes_onItems fun item hi => ?_)⟩
    · rw [← Check.accepts_array_congr hitems rfl (List.length_map ..).symm]
      exact hu.accepts
    · obtain ⟨r, rfl, hval⟩ := hvalid item hi
      have hread := hs _ hmem s rfl r hval
      exact ⟨r, rfl, hread, hl _ hmem s rfl _ _ hread⟩
  · rw [Check.redateAll_of_isUndated hr, Check.redateAll_of_isUndated hr]
    exact h

/-! ### Rules and schemas -/

namespace Rule

/-- A rule that has recorded the value of its field as it was reads it back. -/
theorem Judged.isoWritten {s : Schema} (hd : s.fieldNames.Nodup) {rule : Rule} (hrule : rule ∈ s.rules)
    (hr : rule.isDated = true) (hc : ∀ c, rule.condition = some c → s.keepsField c = true)
    (hl : ∀ t ∈ s.nested, t.Lasting o) (hs : ∀ t ∈ s.nested, t.ReadsBack o) {r : Entries}
    {part : Contribution} (h : rule.Judged o r part) (hn : part.violations = [])
    (hv : part.value = r.get? rule.name) :
    rule.Judged o (s.isoWritten r) { part with value := (s.reread r).get? rule.name } := by
  have ha' : rule.appliesTo (s.isoWritten r) = rule.appliesTo r := Schema.appliesTo_redate hc
  cases h with
  | skipped ha =>
      have hiso : (s.isoWritten r).get? rule.name = r.get? rule.name :=
        Schema.get?_redate_of_not_appliesTo hd hrule ha
      rw [Schema.reread, Schema.get?_redate_of_not_appliesTo hd hrule ha, ← hiso]
      exact .skipped (ha'.trans ha)
  | missing ha hnull =>
      have hiso : (s.isoWritten r).get? rule.name = r.get? rule.name := Schema.get?_redate_of_null hnull
      have hhas : (s.isoWritten r).has rule.name = r.has rule.name := by rw [Entries.has, hiso, Entries.has]
      rw [Schema.reread, Schema.get?_redate_of_null hnull, ← hv, ← hhas]
      refine .missing (ha'.trans ha) ?_
      rwa [Entries.getD, hiso]
  | passed ha hg hne hchain =>
      rw [hg] at hv
      cases hv
      have hget (f : Moment → Value) := Schema.get?_redate_of_mem (f := f) (r := r) hd hrule
      simp only [hg, Option.map_some, if_pos ha] at hget
      rw [Schema.reread, hget]
      refine .passed (ha'.trans ha) (hget _) (Check.redateAll_ne_null (fun _ => Value.noConfusion) hne) ?_
      exact chain_isoWritten hr (Schema.forall_nested_of_rule hl hrule) (Schema.forall_nested_of_rule hs hrule)
        hchain
  | failed _ _ _ hchain => exact absurd hn (Check.ne_nil_of_chain_failed hchain)

end Rule

/-- What rules have recorded as it was is recorded with other moments. -/
theorem Validation.recorded_redate {s : Schema} {r : Entries} {parts : List Contribution}
    (hv : ∀ p ∈ parts, p.value = r.get? p.name) :
    recorded (parts.map fun p => { p with value := (s.redate f r).get? p.name }) =
      (recorded parts).map fun e => (e.1, Rule.redateField f s.rules r e.1 e.2) := by
  unfold recorded
  rw [List.filterMap_map, List.map_filterMap]
  refine List.filterMap_congr fun p hp => ?_
  rw [Function.comp_apply, Schema.get?_redate, hv p hp, Option.map_map, Option.map_map]
  rfl

theorem Schema.readsBack_of_nested {s : Schema} (hs : s.isSteady = true) (hd : s.rules.all (·.isDated) = true)
    (hl : ∀ t ∈ s.nested, t.Lasting o) (hnest : ∀ t ∈ s.nested, t.ReadsBack o) : s.ReadsBack o := by
  intro r h
  obtain ⟨parts, hp, hn, hu, hr⟩ := validate_record_eq_valid_iff.mp h
  obtain ⟨hnodup, hrules⟩ := isSteady_iff.mp hs
  have hvalue : ∀ p ∈ parts, p.value = r.get? p.name := by
    intro p hpart
    have hget := hp.get?_of_mem (t := r) hnodup hpart
    rw [← hr] at hget
    exact hget.symm
  refine validate_record_eq_valid_iff.mpr
    ⟨parts.map fun p => { p with value := (s.reread r).get? p.name }, ?_, ?_, ?_, ?_⟩
  · refine hp.map fun rule hrule part hpart hj => ?_
    obtain ⟨-, -, hcond⟩ := hrules rule hrule
    have hval : part.value = r.get? rule.name := by
      rw [← hj.name_eq]
      exact hvalue part hpart
    have hback := hj.isoWritten hnodup hrule (List.all_eq_true.mp hd rule hrule) hcond hl hnest
      (hn part hpart) hval
    rwa [← hj.name_eq] at hback
  · intro p hpart
    obtain ⟨q, hq, rfl⟩ := List.mem_map.mp hpart
    exact hn q hq
  · rw [← hu]
    simp only [unknownReport, isoWritten, strays_redate]
  · -- the record falls into what the rules have recorded and what they do not see
    have hstrays : strays s (s.isoWritten r) = strays s (s.reread r) := by
      rw [isoWritten, reread, strays_redate, strays_redate]
    have hrecorded := recorded_redate (f := fun m => .moment m.reread) (s := s) hvalue
    rw [hstrays, reread, hrecorded, redate_eq, strays_map s (Rule.redateField _ s.rules r), ← List.map_append]
    exact congrArg (List.map _) hr

/-- A schema that is steady and dated, and in which only such schemas are nested, reads back. -/
theorem Schema.readsBack_of_isDated {s : Schema} (hs : s.everywhere isSteady = true)
    (hd : s.everywhere (·.rules.all (·.isDated)) = true) : s.ReadsBack o := by
  induction s using Schema.nesting_induction with
  | step s ih =>
      obtain ⟨hsteady, hsnest⟩ := everywhere_iff.mp hs
      obtain ⟨hdated, hdnest⟩ := everywhere_iff.mp hd
      exact readsBack_of_nested hsteady hdated (fun t ht => lasting_of_isSteady o (hsnest t ht))
        fun t ht => ih t ht (hsnest t ht) (hdnest t ht)

/-! ### The catalogue -/

namespace Catalogue

theorem isDated_of_mem : ∀ s ∈ pagination :: schemas, s.everywhere (·.rules.all (·.isDated)) = true := by
  decide +kernel

/-- **Moments are read back from validated requests.**  What a schema of the catalogue has made of a
request it makes, under the same options, of the same record with all moments as texts; only an
offset of less than a second has become that of universal time. -/
theorem validate_isoWritten {o : Options} {s : Schema} (hs : s = pagination ∨ s ∈ registry.schemas)
    {d r : Entries} (h : s.validate o (.record d) = .ok (.valid r)) :
    s.validate o (.record (s.isoWritten r)) = .ok (.valid (s.reread r)) ∧
    ((∀ m ∈ s.moments r, m.isSlight = false) →
      s.validate o (.record (s.isoWritten r)) = .ok (.valid r)) := by
  have hm : s ∈ pagination :: schemas := List.mem_cons.mpr hs
  have hread : s.ReadsBack o := Schema.readsBack_of_isDated (isSteady_of_mem s hm) (isDated_of_mem s hm)
  have hback := hread r (lasting_of_mem o hm _ _ h)
  refine ⟨hback, fun hslight => ?_⟩
  rwa [Schema.reread_eq_self hslight] at hback

def marchMorning (offset : Option Calendar.Offset) : Moment :=
  ⟨⟨2025, 3, 3, by decide⟩, ⟨8, 30, 0, 500, by decide⟩, offset⟩

/-- Two details, one closed at a moment with an offset and one at a local time. -/
def closedDetails : Entries := [(.text "items", .list [
  .record [
    (.text "course_state", .text "Enrolled"),
    (.text "attempts", .int 1),
    (.text "closed_on", .moment (marchMorning (some ⟨-18030000000, by decide⟩)))],
  .record [
    (.text "course_state", .text "Approved"),
    (.text "attempts", .int 2),
    (.text "closed_on", .moment (marchMorning none))]])]

theorem validate_isoWritten_batch :
    createEnrollmentDetailBatch.isoWritten closedDetails = [(.text "items", .list [
        .record [
          (.text "course_state", .text "Enrolled"),
          (.text "attempts", .int 1),
          (.text "closed_on", .text "2025-03-03T08:30:00.000500-05:00:30")],
        .record [
          (.text "course_state", .text "Approved"),
          (.text "attempts", .int 2),
          (.text "closed_on", .text "2025-03-03T08:30:00.000500")]])] ∧
      createEnrollmentDetailBatch.validate ⟨true, true⟩ (.record closedDetails) = .ok (.valid closedDetails) ∧
      createEnrollmentDetailBatch.validate ⟨true, true⟩
          (.record (createEnrollmentDetailBatch.isoWritten closedDetails)) =
        .ok (.valid (createEnrollmentDetailBatch.reread closedDetails)) ∧
      createEnrollmentDetailBatch.validate ⟨true, true⟩
          (.record (createEnrollmentDetailBatch.isoWritten closedDetails)) = .ok (.valid closedDetails) := by
  have h : createEnrollmentDetailBatch.validate ⟨true, true⟩ (.record closedDetails) =
      .ok (.valid closedDetails) := by rfl
  obtain ⟨hback, hsame⟩ := validate_isoWritten (.inr (by simp [registry, schemas])) h
  exact ⟨by rfl, h, hback, hsame (by decide +kernel)⟩

/-- A schedule that starts at a moment with an offset of a microsecond. -/
def slightSchedule : Entries := [(.text "date_start", .moment (marchMorning (some ⟨1, by decide⟩)))]

theorem validate_isoWritten_slight :
    updateSchedule.validate ⟨false, false⟩ (.record slightSchedule) = .ok (.valid slightSchedule) ∧
      updateSchedule.isoWritten slightSchedule =
        [(.text "date_start", .text "2025-03-03T08:30:00.000500+00:00:00.000001")] ∧
      updateSchedule.validate ⟨false, false⟩ (.record (updateSchedule.isoWritten slightSchedule)) ≠
        .ok (.valid slightSchedule) := by
  have hread : updateSchedule.validate ⟨false, false⟩ (.record (updateSchedule.isoWritten slightSchedule)) =
      .ok (.valid [(.text "date_start", .moment (marchMorning (some .utc)))]) := by rfl
  refine ⟨by rfl, by rfl, fun h => ?_⟩
  rw [hread] at h
  injection h with h
  injection h with h
  revert h
  simp [slightSchedule, marchMorning, Calendar.Offset.utc]

end Catalogue

end Intake
