import Intake.Catalogue.Field
import Intake.Proofs.Items

/-!
# Proofs — Batch — a field that holds many records

A list of records in one field is judged twice, once to replace the records and once to report on
what has replaced them.  The outcome is the one that the records have each by itself
(`Outcome.gathered`) exactly if the validated record of each valid one among them is valid again:
judging again only ever adds violations (`Outcome.violationsIn_eq_iff`).  A schema that reads a date
where it has first asked for a text (`datedItem`) is a case in which it does.
-/

namespace Intake

open Validation

/-- The rule of a field that holds a list, of some least size, of records under a schema. -/
def Rule.ofItems (name : String) (minSize : Option Int) (s : Schema) : Rule :=
  Catalogue.required name [Catalogue.plain (.array minSize), .items (some s) none]

/-- A schema of a single list of records. -/
def Schema.ofItems (name field : String) (s : Schema) : Schema := ⟨name, [.ofItems field none s]⟩

/-- The validated record of a record, or else the record. -/
def Outcome.revised (r : Entries) (out : Outcome) : Entries := out.record?.getD r

/-- The violations of records in a field, each under its place. -/
def Outcome.violationsIn (field : String) (outs : List Outcome) : List Violation :=
  outs.zipIdx.flatMap fun out => out.1.violations.map (.under (itemPath field out.2))

/-- The outcome for a list of records, from the outcomes that they have each by itself. -/
def Outcome.gathered (field : String) (outs : List Outcome) : Outcome :=
  match outs.mapM record? with
  | some rs => .valid [(.text field, .list (rs.map .record))]
  | none    => .invalid (violationsIn field outs)

/-! ### The rule of a list -/

theorem Rule.ofItems_judged_iff {o : Options} {name : String} {minSize : Option Int} {s : Schema}
    {r : Entries} {v : Value} {items : List Value} (hv : r.get? name = some v)
    (hi : v.items? = some items) (hsize : (Test.array minSize).accepts v = true) {part : Contribution} :
    (Rule.ofItems name minSize s).Judged o r part ↔
      ∃ firsts seconds, ItemsJudged (s.validate o) items firsts ∧
        ItemsJudged (s.validate o) (List.zipWith replacement items firsts) seconds ∧
        part = ofVerdict name (.ofViolations (itemReports name seconds 0)
          (.list (List.zipWith replacement items firsts))) := by
  have hn : v ≠ .null := fun e => by rw [e] at hi; cases hi
  have hchain : Check.chain o name (Rule.ofItems name minSize s).checks v =
      Check.chain o name [.items (some s) none] v :=
    (Check.passes_test_self hsize).chain_cons _
  rw [← Rule.judge_eq_ok_iff, @Rule.judge_of_present o (.ofItems name minSize s) r v rfl hv hn,
    bind_pure_eq_ok_iff]
  constructor
  · rintro ⟨verdict, hc, rfl⟩
    rw [show (Rule.ofItems name minSize s).name = name from rfl, hchain,
      Check.chain_items_eq_ok_iff hi] at hc
    obtain ⟨firsts, seconds, h₁, h₂, rfl⟩ := hc
    exact ⟨firsts, seconds, h₁, h₂, rfl⟩
  · rintro ⟨firsts, seconds, h₁, h₂, rfl⟩
    refine ⟨_, ?_, rfl⟩
    rw [show (Rule.ofItems name minSize s).name = name from rfl, hchain]
    exact (Check.chain_items_eq_ok_iff hi).mpr ⟨firsts, seconds, h₁, h₂, rfl⟩

theorem violations_ofVerdict (name : String) (vs : List Violation) (v : Value) :
    (ofVerdict name (.ofViolations vs v)).violations = vs := by
  cases vs <;> rfl

/-- A single contribution, and what is not declared: the outcome of a schema of one rule. -/
theorem ofViolations_ofVerdict (name : String) (vs unknown : List Violation) (v : Value) (rest : Entries) :
    Outcome.ofViolations ([ofVerdict name (.ofViolations vs v)].flatMap (·.violations) ++ unknown)
        (recorded [ofVerdict name (.ofViolations vs v)] ++ rest) =
      .ofViolations (vs ++ unknown) ((.text name, v) :: rest) := by
  cases vs <;> simp [Verdict.ofViolations, ofVerdict, recorded, Outcome.ofViolations]

/-! ### Lists of records -/

theorem itemsJudged_record_iff {judge : Value → Except Fault Outcome} {rs : List Entries}
    {outs : List (Option Outcome)} :
    ItemsJudged judge (rs.map .record) outs ↔
      ∃ singles, List.Forall₂ (fun r out => judge (.record r) = .ok out) rs singles ∧
        outs = singles.map some := by
  unfold ItemsJudged
  rw [List.forall₂_map_left_iff]
  constructor
  · intro h
    induction h with
    | nil => exact ⟨[], .nil, rfl⟩
    | cons ho _ ih =>
        obtain ⟨out, hout, rfl⟩ := itemOutcome_record_eq_ok_iff.mp ho
        obtain ⟨singles, hs, rfl⟩ := ih
        exact ⟨out :: singles, .cons hout hs, rfl⟩
  · rintro ⟨singles, h, rfl⟩
    rw [List.forall₂_map_right_iff]
    exact h.imp fun _ _ hout => itemOutcome_record_eq_ok_iff.mpr ⟨_, hout, rfl⟩

theorem zipWith_replacement_record (rs : List Entries) (outs : List Outcome) :
    List.zipWith replacement (rs.map .record) (outs.map some) =
      (List.zipWith Outcome.revised rs outs).map .record := by
  rw [List.zipWith_map, List.map_zipWith]
  congr 1
  funext r out
  cases out <;> rfl

theorem itemReports_map_some (field : String) (outs : List Outcome) :
    itemReports field (outs.map some) 0 = Outcome.violationsIn field outs := by
  simp only [itemReports, Outcome.violationsIn, List.zipIdx_map, List.flatMap_map, Prod.map_fst,
    Prod.map_snd, id, itemReport]

/-- A list of records is judged record by record, and then again with the validated records of those
that are valid. -/
theorem Schema.validate_ofItems_eq_ok_iff {o : Options} {name field : String} {s : Schema}
    {rs : List Entries} {out : Outcome} :
    (Schema.ofItems name field s).validate o (.record [(.text field, .list (rs.map .record))]) = .ok out ↔
      ∃ firsts seconds, List.Forall₂ (fun r first => s.validate o (.record r) = .ok first) rs firsts ∧
        List.Forall₂ (fun r second => s.validate o (.record r) = .ok second)
          (List.zipWith Outcome.revised rs firsts) seconds ∧
        out = .ofViolations (Outcome.violationsIn field seconds)
          [(.text field, .list ((List.zipWith Outcome.revised rs firsts).map .record))] := by
  have hstrays : strays (Schema.ofItems name field s) [(.text field, .list (rs.map .record))] = [] := by
    simp [strays, declares, fieldNames, ofItems, Rule.ofItems, Catalogue.required]
  have hunknown := unknownReport_eq_nil hstrays o
  have hget : Entries.get? [(.text field, .list (rs.map .record))] field =
      some (.list (rs.map .record)) := by
    simp [Entries.get?]
  have hsize : (Test.array none).accepts (.list (rs.map .record)) = true := rfl
  rw [validate_record_eq_ok_iff, show (Schema.ofItems name field s).rules = [.ofItems field none s] from rfl]
  simp only [Rule.allJudged_singleton_iff, Rule.ofItems_judged_iff hget rfl hsize,
    itemsJudged_record_iff, kept_eq_strays hunknown, hstrays]
  constructor
  · rintro ⟨_, unknown, ⟨_, ⟨_, _, ⟨firsts, h₁, rfl⟩, h₂, rfl⟩, rfl⟩, hu, rfl⟩
    rw [zipWith_replacement_record] at h₂ ⊢
    obtain ⟨seconds, hseconds, rfl⟩ := itemsJudged_record_iff.mp h₂
    rw [hunknown] at hu
    cases hu
    refine ⟨firsts, seconds, h₁, hseconds, ?_⟩
    rw [ofViolations_ofVerdict, itemReports_map_some, List.append_nil]
  · rintro ⟨firsts, seconds, h₁, h₂, rfl⟩
    refine ⟨_, [], ⟨_, ⟨_, seconds.map some, ⟨firsts, h₁, rfl⟩, ?_, rfl⟩, rfl⟩, hunknown, ?_⟩
    · rw [zipWith_replacement_record]
      exact itemsJudged_record_iff.mpr ⟨seconds, h₂, rfl⟩
    · rw [ofViolations_ofVerdict, itemReports_map_some, zipWith_replacement_record, List.append_nil]

/-! ### What the records come to -/

namespace Outcome

theorem mapM_record?_eq_some_iff {outs : List Outcome} {rs : List Entries} :
    outs.mapM record? = some rs ↔ outs = rs.map .valid := by
  induction outs generalizing rs with
  | nil => cases rs <;> simp
  | cons out outs ih =>
      cases out with
      | valid t => cases rs <;> simp [record?, Option.bind_eq_some_iff, ih, and_comm]
      | invalid vs => cases rs <;> simp [record?]

theorem exists_invalid_of_mapM {outs : List Outcome} (h : outs.mapM record? = none) :
    ∃ vs, .invalid vs ∈ outs := by
  induction outs with
  | nil => cases h
  | cons out outs ih =>
      cases out with
      | invalid vs => exact ⟨vs, List.mem_cons_self ..⟩
      | valid t =>
          cases hm : outs.mapM record? with
          | none =>
              obtain ⟨vs, hvs⟩ := ih hm
              exact ⟨vs, List.mem_cons_of_mem _ hvs⟩
          | some ts => simp [record?, hm] at h

theorem violationsIn_eq_of_map_eq {field : String} {firsts seconds : List Outcome}
    (h : firsts.map violations = seconds.map violations) :
    violationsIn field firsts = violationsIn field seconds := by
  have hmap (outs : List Outcome) : violationsIn field outs =
      (outs.map violations).zipIdx.flatMap fun vs => vs.1.map (.under (itemPath field vs.2)) := by
    simp only [violationsIn, List.zipIdx_map, List.flatMap_map, Prod.map_fst, Prod.map_snd, id]
  rw [hmap, hmap, h]

theorem length_violationsIn (field : String) (outs : List Outcome) :
    (violationsIn field outs).length = (outs.flatMap (·.violations)).length := by
  have hfst : outs.map (·.violations.length) = outs.zipIdx.map (·.1.violations.length) := by
    conv_lhs => rw [← List.zipIdx_map_fst 0 outs, List.map_map]
    rfl
  simp only [violationsIn, List.length_flatMap, List.length_map, hfst]

theorem zipWith_revised_valid {rs ts : List Entries} (h : rs.length = ts.length) :
    List.zipWith revised rs (ts.map .valid) = ts := by
  induction rs generalizing ts with
  | nil => cases ts <;> simp_all
  | cons r rs ih =>
      cases ts with
      | nil => cases h
      | cons t ts => rw [List.map_cons, List.zipWith_cons_cons, ih (Nat.succ.inj h)]; rfl

/-- The records come to the validated records of all of them, or to all that is wrong with them. -/
theorem gathered_eq {o : Options} {field : String} {s : Schema} {rs : List Entries}
    {outs : List Outcome} (h : List.Forall₂ (fun r out => s.validate o (.record r) = .ok out) rs outs) :
    gathered field outs = .ofViolations (violationsIn field outs)
      [(.text field, .list ((List.zipWith revised rs outs).map .record))] := by
  unfold gathered
  cases hm : outs.mapM record? with
  | some ts =>
      -- all are valid: nothing is reported, and each record has given way to its validated one
      obtain rfl := mapM_record?_eq_some_iff.mp hm
      rw [zipWith_revised_valid (by simpa using h.length_eq)]
      refine (ofViolations_eq_valid_iff.mpr ⟨?_, rfl⟩).symm
      rw [← List.length_eq_zero_iff, length_violationsIn]
      simp [violations, List.flatMap_map]
  | none =>
      -- one is not valid, and what is not valid has violations
      refine (ofViolations_eq_invalid_iff.mpr ⟨fun hnil => ?_, rfl⟩).symm
      obtain ⟨vs, hvs⟩ := exists_invalid_of_mapM hm
      obtain ⟨r, -, hr⟩ := exists_left_of_mem_forall₂ h hvs
      rw [← List.length_eq_zero_iff, length_violationsIn, List.length_eq_zero_iff,
        List.flatMap_eq_nil_iff] at hnil
      exact Schema.violations_ne_nil hr (hnil _ hvs)

end Outcome

/-! ### The second time -/

namespace Outcome

/-- The outcome of a record, and the outcome of what has replaced it. -/
inductive Revision (o : Options) (s : Schema) : Outcome → Outcome → Prop where
  | valid {t : Entries} {second : Outcome} (h : s.validate o (.record t) = .ok second) :
      Revision o s (.valid t) second
  | invalid {vs : List Violation} (hn : vs ≠ []) : Revision o s (.invalid vs) (.invalid vs)

theorem revision_of_validate {o : Options} {s : Schema} {r : Entries} {first second : Outcome}
    (h₁ : s.validate o (.record r) = .ok first)
    (h₂ : s.validate o (.record (first.revised r)) = .ok second) : Revision o s first second := by
  cases first with
  | valid t => exact .valid h₂
  | invalid vs =>
      rw [show (Outcome.invalid vs).revised r = r from rfl, h₁] at h₂
      cases h₂
      exact .invalid (Schema.violations_ne_nil h₁)

variable {o : Options} {s : Schema}

theorem Revision.length_le {first second : Outcome} (h : Revision o s first second) :
    first.violations.length ≤ second.violations.length := by
  cases h with
  | valid => exact Nat.zero_le _
  | invalid => exact Nat.le_refl _

theorem Revision.violations_eq_of_length {first second : Outcome} (h : Revision o s first second)
    (hl : first.violations.length = second.violations.length) : first.violations = second.violations := by
  cases h with
  | valid => exact (List.length_eq_zero_iff.mp hl.symm).symm
  | invalid => rfl

/-- The violations change unless the validated record is valid in its turn. -/
theorem Revision.violations_eq_iff {first second : Outcome} (h : Revision o s first second) :
    first.violations = second.violations ↔
      ∀ t, first = .valid t → ∃ u, s.validate o (.record t) = .ok (.valid u) := by
  cases h with
  | invalid => simp
  | valid h =>
      cases second with
      | valid u => simp [violations, h]
      | invalid vs => simpa [violations, h] using (Schema.violations_ne_nil h).symm

theorem forall₂_revision {rs : List Entries} {firsts seconds : List Outcome}
    (h₁ : List.Forall₂ (fun r first => s.validate o (.record r) = .ok first) rs firsts)
    (h₂ : List.Forall₂ (fun r second => s.validate o (.record r) = .ok second)
      (List.zipWith revised rs firsts) seconds) : List.Forall₂ (Revision o s) firsts seconds := by
  induction h₁ generalizing seconds with
  | nil =>
      cases h₂
      exact .nil
  | cons h _ ih =>
      obtain ⟨second, rest, hsecond, hrest, rfl⟩ := List.forall₂_cons_left_iff.mp h₂
      exact .cons (revision_of_validate h hsecond) (ih hrest)

theorem length_flatMap_le {firsts seconds : List Outcome}
    (h : List.Forall₂ (Revision o s) firsts seconds) :
    (firsts.flatMap (·.violations)).length ≤ (seconds.flatMap (·.violations)).length := by
  induction h with
  | nil => exact Nat.le_refl _
  | cons h _ ih =>
      rw [List.flatMap_cons, List.flatMap_cons, List.length_append, List.length_append]
      exact Nat.add_le_add h.length_le ih

/-- Judging again only adds violations, so it has changed none if there are as many as before. -/
theorem map_violations_eq_of_length {firsts seconds : List Outcome}
    (h : List.Forall₂ (Revision o s) firsts seconds)
    (hl : (firsts.flatMap (·.violations)).length = (seconds.flatMap (·.violations)).length) :
    firsts.map violations = seconds.map violations := by
  -- the counts cannot differ in one place only, as they never get smaller
  induction h with
  | nil => rfl
  | cons h hrest ih =>
      have hle := h.length_le
      have hrests := length_flatMap_le hrest
      rw [List.flatMap_cons, List.flatMap_cons, List.length_append, List.length_append] at hl
      rw [List.map_cons, List.map_cons, h.violations_eq_of_length (by omega), ih (by omega)]

theorem map_violations_eq_iff {firsts seconds : List Outcome}
    (h : List.Forall₂ (Revision o s) firsts seconds) :
    firsts.map violations = seconds.map violations ↔
      ∀ t, .valid t ∈ firsts → ∃ u, s.validate o (.record t) = .ok (.valid u) := by
  induction h with
  | nil => simp
  | cons h _ ih =>
      rw [List.map_cons, List.map_cons, List.cons.injEq, h.violations_eq_iff, ih]
      simp only [List.mem_cons, or_imp, forall_and, eq_comm]

theorem violationsIn_eq_iff {field : String} {firsts seconds : List Outcome}
    (h : List.Forall₂ (Revision o s) firsts seconds) :
    violationsIn field firsts = violationsIn field seconds ↔
      ∀ t, .valid t ∈ firsts → ∃ u, s.validate o (.record t) = .ok (.valid u) := by
  have hmap : violationsIn field firsts = violationsIn field seconds ↔
      firsts.map violations = seconds.map violations := by
    refine ⟨fun he => map_violations_eq_of_length h ?_, violationsIn_eq_of_map_eq⟩
    rw [← length_violationsIn field, ← length_violationsIn field, he]
  exact hmap.trans (map_violations_eq_iff h)

theorem ofViolations_eq_iff {vs ws : List Violation} {r : Entries} :
    ofViolations vs r = ofViolations ws r ↔ vs = ws := by
  refine ⟨fun h => ?_, fun h => by rw [h]⟩
  rw [← violations_ofViolations vs r, h, violations_ofViolations]

end Outcome

/-- **Items by themselves.**  A list of records comes to what its records come to by themselves
exactly if the validated record of each of its valid ones is valid. -/
theorem listOfRecords_eq_gathered_iff {o : Options} {name field : String} {s : Schema}
    {rs : List Entries} {out : Outcome}
    (h : (Schema.ofItems name field s).validate o (.record [(.text field, .list (rs.map .record))]) =
      .ok out) :
    ∃ firsts seconds, List.Forall₂ (fun r first => s.validate o (.record r) = .ok first) rs firsts ∧
      List.Forall₂ (fun r second => s.validate o (.record r) = .ok second)
        (List.zipWith Outcome.revised rs firsts) seconds ∧
      out = .ofViolations (Outcome.violationsIn field seconds)
        [(.text field, .list ((List.zipWith Outcome.revised rs firsts).map .record))] ∧
      (out = .gathered field firsts ↔
        ∀ t, .valid t ∈ firsts → ∃ u, s.validate o (.record t) = .ok (.valid u)) := by
  obtain ⟨firsts, seconds, h₁, h₂, rfl⟩ := Schema.validate_ofItems_eq_ok_iff.mp h
  refine ⟨firsts, seconds, h₁, h₂, rfl, ?_⟩
  rw [Outcome.gathered_eq h₁, Outcome.ofViolations_eq_iff, eq_comm]
  exact Outcome.violationsIn_eq_iff (Outcome.forall₂_revision h₁ h₂)

/-- An item with a date that is written out. -/
def datedItem : Schema := ⟨"Item", [Catalogue.required "on" [Catalogue.string, Catalogue.date]]⟩

/-- An item without its date, and one with a date. -/
def datedItems : List Entries := [[], [(.text "on", .text "2024-03-01")]]

/-- What is wrong with these, one after the other, when they are in a list. -/
def datedItemsReport : List Violation :=
  [missingField "items[0].on", ⟨"items[1].on", "is_string", .typeMismatch, "must be a string"⟩]

theorem datedItems_eq_gathered_iff :
    ∃ firsts seconds,
      List.Forall₂ (fun r first => datedItem.validate {} (.record r) = .ok first) datedItems firsts ∧
      List.Forall₂ (fun r second => datedItem.validate {} (.record r) = .ok second)
        (List.zipWith Outcome.revised datedItems firsts) seconds ∧
      Outcome.invalid datedItemsReport = .ofViolations (Outcome.violationsIn "items" seconds)
        [(.text "items", .list ((List.zipWith Outcome.revised datedItems firsts).map .record))] ∧
      (Outcome.invalid datedItemsReport = .gathered "items" firsts ↔
        ∀ t, .valid t ∈ firsts → ∃ u, datedItem.validate {} (.record t) = .ok (.valid u)) :=
  @listOfRecords_eq_gathered_iff {} "Batch" "items" datedItem datedItems _ (by rfl)

/-- The date is no text any more when the item is judged again. -/
theorem datedItem_not_gathered :
    datedItem.validate {} (.record [(.text "on", .text "2024-03-01")]) =
        .ok (.valid [(.text "on", .moment ⟨⟨2024, 3, 1, by decide⟩, .midnight, none⟩)]) ∧
      (Schema.ofItems "Batch" "items" datedItem).validate {}
          (.record [(.text "items", .list [.record [(.text "on", .text "2024-03-01")]])]) =
        .ok (.invalid [⟨"items[0].on", "is_string", .typeMismatch, "must be a string"⟩]) ∧
      .invalid [⟨"items[0].on", "is_string", .typeMismatch, "must be a string"⟩] ≠
        Outcome.gathered "items"
          [.valid [(.text "on", .moment ⟨⟨2024, 3, 1, by decide⟩, .midnight, none⟩)]] := by
  refine ⟨rfl, rfl, ?_⟩
  exact nofun

end Intake
