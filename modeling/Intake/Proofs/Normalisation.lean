import Intake.Proofs.Bulk

/-!
# Proofs — Normalisation — what is recorded of items

The check of items judges the items of a list or a tuple, and a value that is neither as its own
only item.  What is judged and accepted has a normal form, in which the validated record of every
item stands in its place (`Schema.Normalises`).

* `Rule.items_recorded`: of a list or a tuple the normal form is recorded, and of a value that is
  its own only item the value as it came.
-/

namespace Intake

open Validation

/-- The normal form of a value whose items are valid under a schema: their validated records, in
order. -/
inductive Schema.Normalises (o : Options) (s : Schema) : Value → Value → Prop where
  | each {v : Value} {items : List Value} {records : List Entries} (hv : v.items? = some items)
      (hrecords : List.Forall₂ (fun item r => s.validate o item = .ok (.valid r)) items records) :
      Normalises o s v (.list (records.map .record))
  /-- What is neither a list nor a tuple is its own only item. -/
  | only {v : Value} {r : Entries} (hv : v.items? = none) (hr : s.validate o v = .ok (.valid r)) :
      Normalises o s v (.record r)

namespace Schema.Normalises

variable {o : Options} {s : Schema}

/-- A value has one normal form. -/
theorem unique {v w w' : Value} (h : s.Normalises o v w) (h' : s.Normalises o v w') : w = w' := by
  cases h with
  | each hv hrecords =>
      cases h' with
      | each hv' hrecords' =>
          cases hv.symm.trans hv'
          refine congrArg (fun records : List Entries => Value.list (records.map .record)) ?_
          refine List.right_unique_forall₂' ?_ hrecords hrecords'
          intro item r r' hr hr'
          cases hr.symm.trans hr'
          rfl
      | only hv' => cases hv.symm.trans hv'
  | only hv hr =>
      cases h' with
      | each hv' => cases hv.symm.trans hv'
      | only _ hr' =>
          cases hr.symm.trans hr'
          rfl

theorem iff_eq {v w : Value} (h : s.Normalises o v w) (w' : Value) : s.Normalises o v w' ↔ w' = w :=
  ⟨fun h' => h'.unique h, fun e => e ▸ h⟩

end Schema.Normalises

namespace Check

variable {o : Options} {field : String} {s : Schema} {m : Option String}

/-- A list that passes gives way to its normal form. -/
theorem Passes.normalises_of_list {v w : Value} (h : (Check.items (some s) m).Passes o field v w)
    {items : List Value} (hv : v.items? = some items) : s.Normalises o v w := by
  obtain ⟨firsts, seconds, hfirsts, rfl, hseconds, hvalid⟩ := (passes_items_iff hv).mp h
  obtain ⟨records, hrecords, he⟩ := exists_records_of_valid hfirsts (valid_of_replaced hfirsts hseconds hvalid)
  rw [he]
  refine .each hv (hrecords.imp ?_)
  rintro item r ⟨e, rfl, hr⟩
  exact hr

/-- A value that passes as its own only item is a valid record. -/
theorem Passes.exists_valid_of_no_list {v w : Value} (h : (Check.items (some s) m).Passes o field v w)
    (hv : v.items? = none) : ∃ r, s.validate o v = .ok (.valid r) := by
  obtain rfl := passes_items_of_no_list hv h
  obtain ⟨-, -, -, hviolations⟩ := h
  obtain ⟨outs, houts, hvalid⟩ := violations_items_eq_nil_iff.mp hviolations
  rw [hv] at houts
  obtain ⟨records, hrecords, -⟩ := exists_records_of_valid houts hvalid
  obtain ⟨r, -, ⟨e, rfl, hr⟩, -, -⟩ := List.forall₂_cons_left_iff.mp hrecords
  exact ⟨r, hr⟩

end Check

/-- **What is recorded of items.**  A rule whose only check is one of items, and which has nothing
to report of a value that is not null, records the normal form of a list or a tuple.  Any other
value has a normal form too, but the value itself is recorded. -/
theorem Rule.items_recorded {o : Options} {rule : Rule} {s : Schema} {m : Option String}
    (hchecks : rule.checks = [.items (some s) m]) {d : Entries} {v : Value} {part : Contribution}
    (ha : rule.appliesTo d = true) (hv : d.get? rule.name = some v) (hn : v ≠ .null)
    (hpart : Rule.judge o rule d = .ok part) (hnone : part.violations = []) :
    ∃ w, (∀ w', s.Normalises o v w' ↔ w' = w) ∧ part.value = some (if v.items?.isSome then w else v) ∧
      (part.value = some w ↔ v.items?.isSome = true ∨ v = w) := by
  rw [judge_of_present ha hv hn, hchecks, bind_pure_eq_ok_iff] at hpart
  obtain ⟨verdict, hverdict, rfl⟩ := hpart
  cases verdict with
  | failed vs => exact absurd hnone (Check.ne_nil_of_chain_failed hverdict)
  | passed u =>
      have hpass := Check.chain_singleton_passed_iff.mp hverdict
      cases hi : v.items? with
      | some items =>
          exact ⟨u, (hpass.normalises_of_list hi).iff_eq, rfl, by simp [ofVerdict]⟩
      | none =>
          obtain ⟨r, hr⟩ := hpass.exists_valid_of_no_list hi
          obtain rfl := Check.passes_items_of_no_list hi hpass
          exact ⟨.record r, (Schema.Normalises.only hi hr).iff_eq, rfl, by simp [ofVerdict]⟩

def profile : Schema :=
  ⟨"Profile", [Catalogue.required "born" [Catalogue.date],
    Catalogue.defaulting "level" [Catalogue.integerFrom 1] (.int 1)]⟩

/-- A rule for a profile, or for several. -/
def profileRule : Rule := Catalogue.required "profile" [.items (some profile) none]

/-- A profile as it is sent, and what it is validated to. -/
def sentProfile : Entries := [(.text "born", .text "2001-05-09")]

def fullProfile : Entries :=
  [(.text "born", .moment ⟨⟨2001, 5, 9, by decide⟩, .midnight, none⟩), (.text "level", .int 1)]

theorem Rule.items_recorded_profiles :
    Rule.judge {} profileRule [(.text "profile", .tuple [.record sentProfile])] =
        .ok { name := "profile", value := some (.list [.record fullProfile]) } ∧
      profile.Normalises {} (.tuple [.record sentProfile]) (.list [.record fullProfile]) := by
  have hjudge : Rule.judge {} profileRule [(.text "profile", .tuple [.record sentProfile])] =
      .ok { name := "profile", value := some (.list [.record fullProfile]) } := by rfl
  obtain ⟨w, hw, hvalue, -⟩ :=
    Rule.items_recorded (v := .tuple [.record sentProfile]) rfl rfl rfl nofun hjudge rfl
  cases hvalue
  exact ⟨hjudge, (hw _).mpr rfl⟩

/-- A profile that is not in a list is accepted as the only item, and recorded as it was sent. -/
theorem soleProfile_not_normalised :
    profile.validate {} (.record sentProfile) = .ok (.valid fullProfile) ∧
      Rule.judge {} profileRule [(.text "profile", .record sentProfile)] =
        .ok { name := "profile", value := some (.record sentProfile) } ∧
      sentProfile ≠ fullProfile :=
  ⟨by rfl, by rfl, fun h => absurd (congrArg List.length h) (by decide)⟩

end Intake
