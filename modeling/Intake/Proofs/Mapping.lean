import Mathlib.Data.List.Perm.Basic
import Mathlib.Data.List.Nodup
import Intake.Proofs.Lookup

/-!
# Proofs — Mapping — records without repeated keys

A record is a list of entries, and lookup sees the first entry under a name only.  In a record none
of whose keys is repeated (`Entries.DistinctKeys`), which is what a mapping is, to be an entry and
to be found is the same (`Entries.get?_eq_some_iff`).

Under a schema such a record consists of the entries under its field names, which can be listed in
the order of the schema (`Schema.declaredEntries`), and of its other entries
(`Schema.perm_declaredEntries_append_strays`).
-/

namespace Intake

namespace Entries

/-- The keys of a record, in order. -/
def keys (r : Entries) : List Value := r.map Prod.fst

def DistinctKeys (r : Entries) : Prop := r.keys.Pairwise fun k l => k.sameAs l = false

instance (r : Entries) : Decidable r.DistinctKeys :=
  inferInstanceAs (Decidable (List.Pairwise _ r.keys))

theorem keys_append (r t : Entries) : keys (r ++ t) = r.keys ++ t.keys := List.map_append

theorem mem_keys_of_mem {r : Entries} {k v : Value} (h : (k, v) ∈ r) : k ∈ r.keys :=
  List.mem_map_of_mem h

theorem DistinctKeys.sublist {r t : Entries} (h : r.DistinctKeys) (hs : List.Sublist t r) :
    t.DistinctKeys :=
  List.Pairwise.sublist (hs.map Prod.fst) h

theorem distinctKeys_cons_iff {k v : Value} {r : Entries} :
    DistinctKeys ((k, v) :: r) ↔ (∀ l ∈ r.keys, k.sameAs l = false) ∧ r.DistinctKeys :=
  List.pairwise_cons

theorem mem_of_get? {r : Entries} {name : String} {v : Value} (h : r.get? name = some v) :
    (.text name, v) ∈ r := by
  induction r with
  | nil => cases h
  | cons e r ih =>
      obtain ⟨k, w⟩ := e
      by_cases hk : k = .text name
      · subst hk
        rw [get?_cons_self] at h
        cases h
        exact List.mem_cons_self ..
      · rw [get?_cons_of_ne hk] at h
        exact List.mem_cons_of_mem _ (ih h)

theorem get?_of_mem {r : Entries} (hr : r.DistinctKeys) {name : String} {v : Value}
    (h : (.text name, v) ∈ r) : r.get? name = some v := by
  induction r with
  | nil => cases h
  | cons e r ih =>
      obtain ⟨k, w⟩ := e
      obtain ⟨hk, hrest⟩ := distinctKeys_cons_iff.mp hr
      rcases List.mem_cons.mp h with heq | hm
      · cases heq
        exact get?_cons_self ..
      · have hne : k ≠ .text name := by
          rintro rfl
          simpa [Value.sameAs] using hk (.text name) (mem_keys_of_mem hm)
        rw [get?_cons_of_ne hne]
        exact ih hrest hm

/-- Where no key is repeated, every entry is found. -/
theorem get?_eq_some_iff {r : Entries} (hr : r.DistinctKeys) {name : String} {v : Value} :
    r.get? name = some v ↔ (.text name, v) ∈ r :=
  ⟨mem_of_get?, get?_of_mem hr⟩

theorem get?_eq_none_of_not_mem {r : Entries} {name : String} (h : .text name ∉ r.keys) :
    r.get? name = none := by
  cases hg : r.get? name with
  | none => rfl
  | some v => exact absurd (mem_keys_of_mem (mem_of_get? hg)) h

end Entries

open Validation

namespace Schema

variable {s : Schema} {r : Entries}

theorem exists_name_of_declares {key : Value} (h : s.declares key = true) :
    ∃ name ∈ s.fieldNames, key = .text name := by
  cases key with
  | text name => exact ⟨name, declares_text.mp h, rfl⟩
  | _ => cases h

theorem rule?_of_mem (hs : s.fieldNames.Nodup) {rule : Rule} (hrule : rule ∈ s.rules) :
    s.rule? rule.name = some rule := by
  cases hf : s.rule? rule.name with
  | none =>
      have := List.find?_eq_none.mp hf rule hrule
      simp at this
  | some rule' =>
      have hname : rule'.name = rule.name := by simpa using List.find?_some hf
      rw [List.inj_on_of_nodup_map hs (List.mem_of_find?_eq_some hf) hrule hname]

theorem declares_of_rule?_eq_some {name : String} {rule : Rule} (h : s.rule? name = some rule) :
    s.declares (.text name) = true := by
  have hname : rule.name = name := by simpa using List.find?_some h
  rw [declares, List.contains_iff_mem, ← hname]
  exact List.mem_map_of_mem (List.mem_of_find?_eq_some h)

/-- The entries of a record under the names of fields, in the order of the schema. -/
def declaredEntries (s : Schema) (r : Entries) : Entries :=
  s.fieldNames.filterMap fun name => (r.get? name).map fun v => (.text name, v)

theorem mem_declaredEntries_iff {e : Value × Value} :
    e ∈ s.declaredEntries r ↔ ∃ name ∈ s.fieldNames, ∃ v, r.get? name = some v ∧ (.text name, v) = e := by
  simp only [declaredEntries, List.mem_filterMap, Option.map_eq_some_iff]

theorem nodup_declaredEntries (hs : s.fieldNames.Nodup) (r : Entries) :
    (s.declaredEntries r).Nodup := by
  refine hs.filterMap fun name name' e he he' => ?_
  obtain ⟨v, -, hv⟩ := Option.map_eq_some_iff.mp he
  obtain ⟨v', -, hv'⟩ := Option.map_eq_some_iff.mp he'
  cases hv
  cases hv'
  rfl

/-- Only entries that are not declared could be alike, under a key that is not even the same as
itself. -/
theorem nodup_filter_declares (hr : r.DistinctKeys) : (r.filter fun e => s.declares e.1).Nodup := by
  have hpair : r.Pairwise fun e f => e.1.sameAs f.1 = false := List.pairwise_map.mp hr
  refine (hpair.filter _).imp_of_mem fun he _ hne heq => ?_
  obtain ⟨name, -, hname⟩ := exists_name_of_declares (List.mem_filter.mp he).2
  rw [← heq, hname] at hne
  simp [Value.sameAs] at hne

/-- A record consists of the entries that a schema declares and of the others. -/
theorem perm_declaredEntries_append_strays (hs : s.fieldNames.Nodup) (hr : r.DistinctKeys) :
    (s.declaredEntries r ++ strays s r).Perm r := by
  refine List.Perm.trans ?_ (List.filter_append_perm (fun e => s.declares e.1) r)
  refine List.Perm.append_right _ ?_
  refine (List.perm_ext_iff_of_nodup (nodup_declaredEntries hs r) (nodup_filter_declares hr)).mpr fun e => ?_
  rw [mem_declaredEntries_iff, List.mem_filter]
  constructor
  · rintro ⟨name, hname, v, hv, rfl⟩
    exact ⟨Entries.mem_of_get? hv, declares_text.mpr hname⟩
  · rintro ⟨he, hd⟩
    obtain ⟨name, hname, hk⟩ := exists_name_of_declares hd
    obtain ⟨k, v⟩ := e
    cases hk
    exact ⟨name, hname, v, Entries.get?_of_mem hr he, rfl⟩

theorem keys_declaredEntries (s : Schema) (r : Entries) :
    (s.declaredEntries r).keys = (s.fieldNames.filter r.has).map .text := by
  unfold declaredEntries Entries.keys
  induction s.fieldNames with
  | nil => rfl
  | cons name names ih =>
      cases hv : r.get? name with
      | none => simpa [Entries.has, hv] using ih
      | some v => simpa [Entries.has, hv] using ih

end Schema

end Intake
