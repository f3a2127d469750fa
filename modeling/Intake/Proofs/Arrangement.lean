import Intake.Catalogue.Field
import Intake.Proofs.Chain
import Intake.Proofs.Contribution
import Intake.Proofs.Mapping

/-!
# Proofs — Arrangement — where the entries of a validated record are from

A validated record has two parts.  In front, in the order of the rules, are the fields that leave an
entry (`Rule.leavesEntry`): those that the record had, and those that a default fills in.  Behind
come the entries that the schema does not declare, in the order of the record and as they are
(`Schema.keys_validated`).  No key is repeated where none was (`Schema.distinctKeys_validated`).

The value of a field (`Rule.Settles`) is the one it had if its rule does not apply; its default, or
else what it was, if it was missing or null; and otherwise the value that the checks of its rule
lead to, one after the other (`Check.Leads`).
-/

namespace Intake

open Validation

/-! ### The last value of a chain -/

namespace Check

variable {o : Options} {field : String}

/-- Each check lets a value pass as the value that the next check starts from. -/
inductive Leads (o : Options) (field : String) : List Check → Value → Value → Prop where
  | nil (v : Value) : Leads o field [] v v
  | cons {c : Check} {checks : List Check} {u v w : Value} (h : c.Passes o field u v)
      (hrest : Leads o field checks v w) : Leads o field (c :: checks) u w

theorem chain_passed_iff_leads {checks : List Check} {v w : Value} :
    Check.chain o field checks v = .ok (.passed w) ↔ Leads o field checks v w := by
  induction checks generalizing v with
  | nil =>
      rw [chain_nil]
      constructor
      · intro h
        cases h
        exact .nil _
      · intro h
        cases h
        rfl
  | cons c checks ih =>
      rw [chain_cons_passed_iff]
      constructor
      · rintro ⟨u, hu, h⟩
        exact .cons hu (ih.mp h)
      · rintro (_ | ⟨hu, h⟩)
        exact ⟨_, hu, ih.mpr h⟩

theorem Leads.unique {checks : List Check} {v w w' : Value} (h : Leads o field checks v w)
    (h' : Leads o field checks v w') : w = w' := by
  rw [← chain_passed_iff_leads] at h h'
  rw [h] at h'
  cases h'
  rfl

end Check

/-! ### What a rule leaves -/

/-- A default takes the place of a value that may be missing and is, or is null. -/
def Rule.fillsIn (rule : Rule) (d : Entries) : Bool :=
  rule.appliesTo d && !rule.required && !rule.default.isNull && (d.getD rule.name).isNull

/-- There is an entry for the field afterwards. -/
def Rule.leavesEntry (rule : Rule) (d : Entries) : Bool := d.has rule.name || rule.fillsIn d

/-- What the field of a rule comes to in a validated record. -/
structure Rule.Settles (o : Options) (rule : Rule) (d r : Entries) : Prop where
  skipped : rule.appliesTo d = false → r.get? rule.name = d.get? rule.name
  /-- A field that was null stays so, and one that was missing is missing, if it has no default. -/
  missing : rule.appliesTo d = true → d.getD rule.name = .null →
    r.get? rule.name = if rule.default.isNull then d.get? rule.name else some rule.default
  checked : rule.appliesTo d = true → ∀ v, d.get? rule.name = some v → v ≠ .null →
    ∃ w, r.get? rule.name = some w ∧ Check.Leads o rule.name rule.checks v w

variable {o : Options} {d : Entries}

namespace Rule

theorem Judged.isSome_value {rule : Rule} {part : Contribution} (h : rule.Judged o d part)
    (hn : part.violations = []) : part.value.isSome = rule.leavesEntry d := by
  cases h with
  | skipped ha => simp [leavesEntry, fillsIn, ha, Entries.has]
  | missing ha hv =>
      have hopt := required_eq_false_of_absent hn
      rw [absent_of_not_required hopt]
      cases hdef : rule.default.isNull <;> cases hhas : d.has rule.name <;>
        simp [leavesEntry, fillsIn, ha, hopt, hv, hdef, hhas]
  | passed ha hv => simp [leavesEntry, Entries.has, hv]
  | failed _ _ _ hc => exact absurd hn (Check.ne_nil_of_chain_failed hc)

theorem AllJudged.keys_recorded {rules : List Rule} {parts : List Contribution}
    (h : AllJudged o rules d parts) (hn : ∀ p ∈ parts, p.violations = []) :
    (recorded parts).keys = (rules.filter (·.leavesEntry d)).map fun rule => .text rule.name := by
  unfold AllJudged at h
  induction h with
  | nil => rfl
  | @cons rule part rules parts hj _ ih =>
      obtain ⟨hpart, hparts⟩ := List.forall_mem_cons.mp hn
      have hsome := hj.isSome_value hpart
      have hrest := ih hparts
      cases hv : part.value with
      | none =>
          rw [hv] at hsome
          simpa [recorded, hv, List.filter_cons, ← hsome] using hrest
      | some w =>
          rw [hv] at hsome
          simpa [recorded, hv, List.filter_cons, ← hsome, Entries.keys, hj.name_eq] using hrest

/-- A rule that reports nothing settles its field where its contribution is what is found. -/
theorem Judged.settles {rule : Rule} {part : Contribution} (h : rule.Judged o d part)
    (hn : part.violations = []) {r : Entries} (hr : r.get? rule.name = part.value) :
    rule.Settles o d r := by
  cases h with
  | skipped ha =>
      refine ⟨fun _ => hr, fun ha' => ?_, fun ha' => ?_⟩
      · rw [ha] at ha'
        cases ha'
      · rw [ha] at ha'
        cases ha'
  | missing ha hv =>
      have hopt := required_eq_false_of_absent hn
      refine ⟨fun ha' => ?_, fun _ _ => ?_, fun _ v hg hnull => ?_⟩
      · rw [ha] at ha'
        cases ha'
      · cases hdef : rule.default.isNull with
        | true => rw [hr, absent_value_of_isNull hopt hdef hv, if_pos rfl]
        | false =>
            rw [hr, absent_of_not_required hopt, hdef]
            rfl
      · rw [Entries.getD, hg] at hv
        exact absurd hv hnull
  | @passed ha v w hv hnull hc =>
      refine ⟨fun ha' => ?_, fun _ hv' => ?_, fun _ v' hv' _ => ?_⟩
      · rw [ha] at ha'
        cases ha'
      · rw [Entries.getD, hv] at hv'
        exact absurd hv' hnull
      · rw [hv] at hv'
        cases hv'
        exact ⟨w, hr, Check.chain_passed_iff_leads.mp hc⟩
  | failed _ _ _ hc => exact absurd hn (Check.ne_nil_of_chain_failed hc)

end Rule

/-! ### The validated record -/

namespace Schema

variable {s : Schema} {r : Entries}

/-- The fields that leave an entry are in front, and what is not declared comes behind them. -/
theorem keys_validated (h : s.validate o (.record d) = .ok (.valid r)) :
    ∃ front, r = front ++ strays s d ∧
      front.keys = (s.rules.filter (·.leavesEntry d)).map fun rule => .text rule.name := by
  obtain ⟨parts, hp, hn, -, rfl⟩ := validate_record_eq_valid_iff.mp h
  exact ⟨_, rfl, hp.keys_recorded hn⟩

theorem distinctKeys_validated (hs : s.fieldNames.Nodup) (hd : d.DistinctKeys)
    (h : s.validate o (.record d) = .ok (.valid r)) : r.DistinctKeys := by
  obtain ⟨front, rfl, hfront⟩ := keys_validated h
  have hstrays : (strays s d).DistinctKeys := hd.sublist List.filter_sublist
  unfold Entries.DistinctKeys
  rw [Entries.keys_append, List.pairwise_append, hfront]
  refine ⟨?_, hstrays, ?_⟩
  · have hnames : (s.rules.filter (·.leavesEntry d)).Pairwise (·.name ≠ ·.name) :=
      (List.pairwise_map.mp hs).filter _
    rw [List.pairwise_map]
    exact hnames.imp fun hne => by simpa [Value.sameAs] using hne
  · intro k hk l hl
    obtain ⟨rule, hrule, rfl⟩ := List.mem_map.mp hk
    obtain ⟨e, he, rfl⟩ := List.mem_map.mp hl
    have hdeclared : rule.name ∈ s.fieldNames := List.mem_map_of_mem (List.mem_of_mem_filter hrule)
    have hstray := (List.mem_filter.mp he).2
    -- the only thing that is the same as a text is that text, and a stray key is no field name
    obtain ⟨l, v⟩ := e
    cases l with
    | text name =>
        have hne : rule.name ≠ name := by
          rintro rfl
          simp [declares_text.mpr hdeclared] at hstray
        simpa [Value.sameAs] using hne
    | _ => rfl

theorem settles_of_mem (hs : s.fieldNames.Nodup) (h : s.validate o (.record d) = .ok (.valid r))
    {rule : Rule} (hrule : rule ∈ s.rules) : rule.Settles o d r := by
  obtain ⟨parts, hp, hn, -, rfl⟩ := validate_record_eq_valid_iff.mp h
  obtain ⟨part, hpart, hj⟩ := hp.exists_of_mem hrule
  refine hj.settles (hn part hpart) ?_
  rw [← hj.name_eq]
  exact hp.get?_of_mem hs hpart

theorem declares_of_mem_keys {front : Entries}
    (hfront : front.keys = (s.rules.filter (·.leavesEntry d)).map fun rule => .text rule.name) {k : Value}
    (hk : k ∈ front.keys) : s.declares k = true := by
  rw [hfront] at hk
  obtain ⟨rule, hrule, rfl⟩ := List.mem_map.mp hk
  exact declares_text.mpr (List.mem_map_of_mem (List.mem_of_mem_filter hrule))

/-- An entry that is not declared is in the validated record if it is in the record. -/
theorem mem_validated_iff (h : s.validate o (.record d) = .ok (.valid r)) {k v : Value}
    (hk : s.declares k = false) : (k, v) ∈ r ↔ (k, v) ∈ d := by
  obtain ⟨front, rfl, hfront⟩ := keys_validated h
  have hnot : (k, v) ∉ front := fun hm => by
    rw [declares_of_mem_keys hfront (Entries.mem_keys_of_mem hm)] at hk
    cases hk
  simp [strays, hnot, hk]

/-- **Every entry in its place.**  The keys of a validated record are the names of the fields that
leave an entry, in the order of the schema, and then the keys that the schema does not declare, in
the order of the record and with the values that they had; none is repeated, and every field is
settled by its rule. -/
theorem validated_arrangement (hs : s.fieldNames.Nodup) (hd : d.DistinctKeys)
    (h : s.validate o (.record d) = .ok (.valid r)) :
    r.DistinctKeys ∧
    (∃ front, r = front ++ strays s d ∧
      front.keys = (s.rules.filter (·.leavesEntry d)).map fun rule => .text rule.name) ∧
    ∀ rule ∈ s.rules, rule.Settles o d r := by
  refine ⟨distinctKeys_validated hs hd h, keys_validated h, fun rule hrule => ?_⟩
  exact settles_of_mem hs h hrule

end Schema

/-- Who goes abroad has a passport, and seats are of the second class unless it is said
otherwise. -/
def journey : Schema := ⟨"Journey", [
  Catalogue.onlyIf (.truthy "abroad") (Catalogue.required "passport" [Catalogue.string]),
  Catalogue.required "on" [Catalogue.date],
  Catalogue.defaulting "seats" [Catalogue.integerFrom 1] (.int 1),
  Catalogue.defaulting "class" [Catalogue.string] (.text "second"),
  Catalogue.optional "note" [Catalogue.string],
  Catalogue.optional "train" [Catalogue.string],
  Catalogue.optional "bags" [Catalogue.integerFrom 0]]⟩

/-- A journey at home, with a passport that nobody looks at and entries that are not declared. -/
def homeJourney : Entries := [
  (.int 7, .text "seven"),
  (.text "bags", .text "2"),
  (.text "passport", .int 5),
  (.text "note", .null),
  (.text "guide", .null),
  (.text "seats", .null),
  (.text "on", .text "2024-07-15")]

def validatedHomeJourney : Entries := [
  (.text "passport", .int 5),
  (.text "on", .moment ⟨⟨2024, 7, 15, by decide⟩, .midnight, none⟩),
  (.text "seats", .int 1),
  (.text "class", .text "second"),
  (.text "note", .null),
  (.text "bags", .int 2),
  (.int 7, .text "seven"),
  (.text "guide", .null)]

theorem Schema.validated_arrangement_journey :
    validatedHomeJourney.DistinctKeys ∧
    (∃ front, validatedHomeJourney = front ++ strays journey homeJourney ∧
      front.keys = (journey.rules.filter (·.leavesEntry homeJourney)).map fun rule => .text rule.name) ∧
    ∀ rule ∈ journey.rules, rule.Settles ⟨false, true⟩ homeJourney validatedHomeJourney := by
  have hvalid : journey.validate ⟨false, true⟩ (.record homeJourney) =
      .ok (.valid validatedHomeJourney) := by rfl
  exact Schema.validated_arrangement (by decide) (by decide) hvalid

end Intake
