import Intake.Proofs.Update

/-!
# Proofs — Omission — records without some of their fields

A record from which the entries under some names have been left out (`Entries.without`) is another
record for two kinds of rule only.  The rule of a field that has been left out finds its field
missing, which it reports only if the field is required.  And a rule whose condition looks at such a
field may apply to the one record and not to the other.

A rule that applies no more reports nothing.  A rule that comes to apply could report anything, but
then its condition, if it is on one field, holds of a missing field, and so it is one that asks for
null.  Where no rule has a condition of that kind or one that is not on a field, a valid record is
valid without any fields that are not required (`Schema.exists_valid_without`), and its validated
record is known: a field that has been left out has its default or is missing, and every other entry
is as in the validated record of the whole, or as it was sent if its rule applies no more
(`Schema.LeftOut`).

* **`Schema.validate_without`**: so it is under every schema without conditions and under every
  schema of the catalogue, where a user without a role has no more fields of a student or of a
  teacher.
-/

namespace Intake

open Validation

/-- The entries under other keys than some names. -/
def Entries.without (d : Entries) (names : List String) : Entries :=
  d.filter fun e => !names.any fun name => e.1.sameAs (.text name)

/-- The names of the fields that are not required. -/
def Schema.optionalFields (s : Schema) : List String := (s.rules.filter (!·.required)).map (·.name)

variable {o : Options} {s : Schema} {d r t : Entries} {names : List String} {name : String}

/-! ### What is left of a record -/

namespace Entries

theorem mem_without_iff {k v : Value} :
    (k, v) ∈ d.without names ↔ (k, v) ∈ d ∧ ∀ name ∈ names, k ≠ .text name := by
  simp [without, Value.sameAs_text_iff]

theorem get?_without_of_mem (h : name ∈ names) (d : Entries) : (d.without names).get? name = none := by
  refine get?_eq_none_of_not_mem fun hm => ?_
  obtain ⟨⟨k, v⟩, he, rfl⟩ := List.mem_map.mp hm
  exact (mem_without_iff.mp he).2 name h rfl

theorem get?_without_of_not_mem (h : name ∉ names) (d : Entries) :
    (d.without names).get? name = d.get? name := by
  induction d with
  | nil => rfl
  | cons e d ih =>
      obtain ⟨k, v⟩ := e
      by_cases hk : k = .text name
      · subst hk
        have hkept : (names.any fun n => (Value.text name).sameAs (.text n)) = false := by
          refine List.any_eq_false.mpr fun n hn hsame => ?_
          cases Value.sameAs_text_iff.mp hsame
          exact h hn
        rw [without, List.filter_cons, hkept, get?_cons_self]
        exact get?_cons_self ..
      · rw [get?_cons_of_ne hk, ← ih, without, without, List.filter_cons]
        split
        · exact get?_cons_of_ne hk _ _
        · rfl

end Entries

theorem Schema.ne_of_not_declares {k : Value} (hk : s.declares k = false) (h : name ∈ s.fieldNames) :
    k ≠ .text name := by
  rintro rfl
  rw [declares_text.mpr h] at hk
  cases hk

theorem Schema.mem_without_iff_of_not_declares {k v : Value} (hk : s.declares k = false)
    (h : names ⊆ s.fieldNames) : (k, v) ∈ d.without names ↔ (k, v) ∈ d := by
  rw [Entries.mem_without_iff]
  exact and_iff_left fun name hm => ne_of_not_declares hk (h hm)

/-- Whatever is not declared stays in a record when fields are left out. -/
theorem Validation.strays_without (h : names ⊆ s.fieldNames) (d : Entries) :
    strays s (d.without names) = strays s d := by
  unfold strays Entries.without
  rw [List.filter_filter]
  refine List.filter_congr fun e _ => ?_
  rw [Bool.eq_iff_iff]
  simp only [Bool.and_eq_true, Bool.not_eq_true', List.any_eq_false, Value.sameAs_text_iff]
  exact and_iff_left_of_imp fun hk name hm => Schema.ne_of_not_declares hk (h hm)

/-! ### One rule -/

/-- The condition is on a field, and does not hold where the field is missing. -/
def Condition.asksForField (c : Condition) : Bool := c.field?.isSome && !c.holds []

/-- Such a condition held before if it holds of what is left. -/
theorem Condition.holds_of_without {c : Condition} (hc : c.asksForField = true)
    (h : c.holds (d.without names) = true) : c.holds d = true := by
  rw [asksForField, Bool.and_eq_true, Bool.not_eq_true', Option.isSome_iff_exists] at hc
  obtain ⟨⟨name, hname⟩, hmissing⟩ := hc
  by_cases hm : name ∈ names
  · have hnone : c.holds (d.without names) = c.holds [] :=
      holds_congr hname (Entries.get?_without_of_mem hm d)
    rw [hnone, hmissing] at h
    cases h
  · rw [← h]
    exact holds_congr hname (Entries.get?_without_of_not_mem hm d).symm

namespace Rule

variable {rule : Rule}

theorem appliesTo_of_without (hc : ∀ c, rule.condition = some c → c.asksForField = true)
    (h : rule.appliesTo (d.without names) = true) : rule.appliesTo d = true := by
  unfold appliesTo at h ⊢
  cases hcond : rule.condition with
  | none => rfl
  | some c =>
      rw [hcond] at h
      exact Condition.holds_of_without (hc c hcond) h

/-- A rule that has nothing to report of a record has nothing to report of what is left of it,
unless it misses its field or did not apply before. -/
theorem report_without (h : rule.report o d = .ok []) (hopt : rule.name ∈ names → rule.required = false)
    (ha : rule.appliesTo (d.without names) = true → rule.appliesTo d = true) :
    rule.report o (d.without names) = .ok [] := by
  cases happ : rule.appliesTo (d.without names) with
  | false => exact report_of_not_appliesTo happ
  | true =>
      by_cases hm : rule.name ∈ names
      · have hmissing : (d.without names).getD rule.name = .null :=
          Entries.getD_eq_null_iff.mpr (.inl (Entries.get?_without_of_mem hm d))
        rw [report_of_missing happ hmissing, hopt hm]
        rfl
      · have hvalue : (d.without names).getD rule.name = d.getD rule.name := by
          rw [Entries.getD, Entries.getD, Entries.get?_without_of_not_mem hm]
        rw [report_congr (happ.trans (ha happ).symm) hvalue, h]

/-- A field that has been left out has its default if its rule applies, and otherwise is missing. -/
theorem Settles.get?_of_mem_names (h : rule.Settles o (d.without names) t) (hm : rule.name ∈ names) :
    t.get? rule.name =
      if rule.appliesTo (d.without names) && !rule.default.isNull then some rule.default else none := by
  have hget := Entries.get?_without_of_mem hm d
  cases ha : rule.appliesTo (d.without names) with
  | false => exact (h.skipped ha).trans hget
  | true =>
      rw [h.missing ha (Entries.getD_eq_null_iff.mpr (.inl hget)), hget]
      cases rule.default.isNull <;> rfl

/-- Where a rule applies as it did, its field settles as it did. -/
theorem Settles.get?_eq_of_appliesTo (h : rule.Settles o (d.without names) t) (hr : rule.Settles o d r)
    (hm : rule.name ∉ names) (ha : rule.appliesTo (d.without names) = rule.appliesTo d) :
    t.get? rule.name = r.get? rule.name := by
  have hget := Entries.get?_without_of_not_mem hm d
  cases happ : rule.appliesTo d with
  | false => rw [h.skipped (ha.trans happ), hr.skipped happ, hget]
  | true =>
      by_cases hnull : d.getD rule.name = .null
      · have hnull' : (d.without names).getD rule.name = .null := by
          rwa [Entries.getD, hget]
        rw [h.missing (ha.trans happ) hnull', hr.missing happ hnull, hget]
      · obtain ⟨v, hv, -, hn⟩ := Entries.exists_of_getD_ne_null hnull
        obtain ⟨w, hw, hl⟩ := h.checked (ha.trans happ) v (hget.trans hv) hn
        obtain ⟨w', hw', hl'⟩ := hr.checked happ v hv hn
        rw [hw, hw', hl.unique hl']

end Rule

/-! ### A schema -/

/-- What the validated record of what is left of a record has to do with that of the whole. -/
structure Schema.LeftOut (s : Schema) (d r : Entries) (names : List String) (t : Entries) : Prop where
  /-- A field that has been left out has its default if its rule applies, and otherwise is
  missing. -/
  omitted : ∀ rule ∈ s.rules, rule.name ∈ names → t.get? rule.name =
    if rule.appliesTo (d.without names) && !rule.default.isNull then some rule.default else none
  /-- Any other field has the value that it had in the validated record, or where its rule applies
  no more the one that was sent. -/
  kept : ∀ rule ∈ s.rules, rule.name ∉ names → t.get? rule.name =
    if rule.appliesTo d && !rule.appliesTo (d.without names) then d.get? rule.name else r.get? rule.name
  undeclared : ∀ k v, s.declares k = false → ((k, v) ∈ t ↔ (k, v) ∈ r)

namespace Schema

theorem mem_fieldNames_of_mem_optionalFields (h : name ∈ s.optionalFields) : name ∈ s.fieldNames := by
  obtain ⟨rule, hrule, rfl⟩ := List.mem_map.mp h
  exact List.mem_map_of_mem (List.mem_of_mem_filter hrule)

theorem required_eq_false_of_mem_optionalFields (hs : s.fieldNames.Nodup) {rule : Rule} (hrule : rule ∈ s.rules)
    (h : rule.name ∈ s.optionalFields) : rule.required = false := by
  obtain ⟨rule', hrule', hname⟩ := List.mem_map.mp h
  obtain ⟨hmem, hopt⟩ := List.mem_filter.mp hrule'
  obtain rfl := List.inj_on_of_nodup_map hs hmem hrule hname
  simpa using hopt

/-- **Leaving out.**  Where every condition is on a field, and none holds of a missing one, a valid
record is valid without any fields that are not required. -/
theorem exists_valid_without (hs : s.fieldNames.Nodup)
    (hc : ∀ rule ∈ s.rules, ∀ c, rule.condition = some c → c.asksForField = true)
    (h : s.validate o (.record d) = .ok (.valid r)) (hnames : names ⊆ s.optionalFields) :
    ∃ t, s.validate o (.record (d.without names)) = .ok (.valid t) ∧ s.LeftOut d r names t := by
  obtain ⟨hreports, hu⟩ := exists_valid_iff.mp ⟨r, h⟩
  have happlies : ∀ rule ∈ s.rules, rule.appliesTo (d.without names) = true → rule.appliesTo d = true :=
    fun rule hrule => Rule.appliesTo_of_without (hc rule hrule)
  have hunknown : unknownReport o s (d.without names) = .ok [] := by
    rw [← hu]
    simp only [unknownReport, strays_without fun _ hm => mem_fieldNames_of_mem_optionalFields (hnames hm)]
  obtain ⟨t, ht⟩ := exists_valid_iff.mpr ⟨fun rule hrule => Rule.report_without (hreports rule hrule)
    (fun hm => required_eq_false_of_mem_optionalFields hs hrule (hnames hm)) (happlies rule hrule), hunknown⟩
  refine ⟨t, ht, ⟨fun rule hrule hm => ?_, fun rule hrule hm => ?_, fun k v hk => ?_⟩⟩
  · exact (settles_of_mem hs ht hrule).get?_of_mem_names hm
  · have hsettles := settles_of_mem hs ht hrule
    cases ha : rule.appliesTo (d.without names) with
    | true =>
        have hd := happlies rule hrule ha
        rw [hsettles.get?_eq_of_appliesTo (settles_of_mem hs h hrule) hm (ha.trans hd.symm), hd]
        rfl
    | false =>
        rw [hsettles.skipped ha, Entries.get?_without_of_not_mem hm]
        cases hd : rule.appliesTo d with
        | true => rfl
        | false => exact ((settles_of_mem hs h hrule).skipped hd).symm
  · rw [mem_validated_iff ht hk, mem_validated_iff h hk]
    exact mem_without_iff_of_not_declares hk fun _ hm => mem_fieldNames_of_mem_optionalFields (hnames hm)

-- A card is asked of nobody who has a host, but of whoever leaves the host out.
example :
    let visitor : Schema := ⟨"Visitor", [Catalogue.optional "host" [Catalogue.string],
      Catalogue.onlyIf (.equals "host" .null) (Catalogue.required "card" [Catalogue.string])]⟩
    visitor.validate {} (.record [(.text "host", .text "Ana")]) = .ok (.valid [(.text "host", .text "Ana")]) ∧
      visitor.validate {} (.record (Entries.without [(.text "host", .text "Ana")] ["host"])) =
        .ok (.invalid [missingField "card"]) :=
  ⟨rfl, rfl⟩

end Schema

/-! ### The catalogue -/

/-- The conditions of the catalogue ask for a role that there is. -/
theorem Catalogue.conditions_of_mem : ∀ s ∈ pagination :: schemas,
    (s.rules.all fun rule => rule.condition.all (·.asksForField)) = true := by
  decide +kernel

/-- **Records without optional fields.**  Under a schema without conditions, and under each schema
of the catalogue, a valid record is valid without any fields that are not required. -/
theorem Schema.validate_without
    (hs : (s.fieldNames.Nodup ∧ ∀ rule ∈ s.rules, rule.condition = none) ∨
      s = Catalogue.pagination ∨ s ∈ Catalogue.registry.schemas)
    (h : s.validate o (.record d) = .ok (.valid r)) (hnames : names ⊆ s.optionalFields) :
    ∃ t, s.validate o (.record (d.without names)) = .ok (.valid t) ∧ s.LeftOut d r names t := by
  rcases hs with ⟨hd, hnone⟩ | hs
  · refine exists_valid_without hd (fun rule hrule c hc => ?_) h hnames
    rw [hnone rule hrule] at hc
    cases hc
  · have hm : s ∈ Catalogue.pagination :: Catalogue.schemas := List.mem_cons.mpr hs
    have hd := nodup_of_everywhere (Catalogue.isSteady_of_mem s hm)
    refine exists_valid_without hd (fun rule hrule c hc => ?_) h hnames
    have hall := List.all_eq_true.mp (Catalogue.conditions_of_mem s hm) rule hrule
    rw [hc] at hall
    simpa using hall

/-- A parcel of one kilogram, unless it is said otherwise. -/
def parcel : Schema := ⟨"Parcel", [
  Catalogue.defaulting "kilograms" [Catalogue.integerFrom 1] (.int 1),
  Catalogue.required "to" [Catalogue.string],
  Catalogue.optional "on" [Catalogue.date]]⟩

def heavyParcel : Entries := [
  (.text "kilograms", .text "7"),
  (.int 7, .text "kilograms"),
  (.text "on", .text "2024-07-15"),
  (.text "to", .text "Ana")]

/-- An update that makes a user a student. -/
def newStudent : Entries := [
  (.text "role", .text "STUDENT"),
  (.text "studyPlanId", .text "123e4567-e89b-12d3-a456-426614174000"),
  (.text "birthDate", .text "2001-05-09"),
  (.text "phone", .text "555")]

/-- Without a role the update says nothing of a student any more, and the date of birth is not
read. -/
theorem Schema.validate_without_role :
    (∃ t, parcel.validate ⟨false, true⟩ (.record (heavyParcel.without ["kilograms", "on"])) = .ok (.valid t) ∧
      parcel.LeftOut heavyParcel [
        (.text "kilograms", .int 7),
        (.text "to", .text "Ana"),
        (.text "on", .moment ⟨⟨2024, 7, 15, by decide⟩, .midnight, none⟩),
        (.int 7, .text "kilograms")] ["kilograms", "on"] t) ∧
    ∃ t, Catalogue.updateUser.validate ⟨true, false⟩ (.record (newStudent.without ["role", "phone"])) =
        .ok (.valid t) ∧
      Catalogue.updateUser.LeftOut newStudent [
        (.text "role", .text "STUDENT"),
        (.text "phone", .text "555"),
        (.text "studyPlanId", .text "123e4567-e89b-12d3-a456-426614174000"),
        (.text "birthDate", .moment ⟨⟨2001, 5, 9, by decide⟩, .midnight, none⟩)] ["role", "phone"] t := by
  refine ⟨?_, ?_⟩
  · have hs : parcel.fieldNames.Nodup ∧ ∀ rule ∈ parcel.rules, rule.condition = none := by
      refine ⟨by decide, ?_⟩
      simp [parcel, Catalogue.defaulting, Catalogue.required, Catalogue.optional]
    exact Schema.validate_without (.inl hs) (by rfl) (by decide)
  · have hmem : Catalogue.updateUser ∈ Catalogue.registry.schemas := by
      simp [Catalogue.registry, Catalogue.schemas]
    exact Schema.validate_without (.inr (.inr hmem)) (by rfl) (by decide)

end Intake
