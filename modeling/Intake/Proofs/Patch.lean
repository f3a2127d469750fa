import Intake.Proofs.Mapping

/-!
# Proofs — Patch — a record overridden by another

The entries of one record are put into another one by one: a value takes the place of the one under
the same key, or goes to the end (`Entries.put`).  What is found under a name then is what the
second record has there, and what the first has where the second has nothing
(`Entries.get?_overriddenBy`); no key is repeated where none was, and none is new that neither
record has.

A patch overrides a record with those of its entries that have a value (`Entries.patchedBy`), except
under names that are not meant for the record.
-/

namespace Intake.Entries

/-- A value in the place of the one under the same key, or at the end. -/
def put : Entries → Value → Value → Entries
  | [],          key, v => [(key, v)]
  | (k, w) :: r, key, v => if k.sameAs key then (k, v) :: r else (k, w) :: put r key v

/-- The entries of the second record put one by one into the first. -/
def overriddenBy (r t : Entries) : Entries := t.foldl (fun r e => r.put e.1 e.2) r

/-- The entries that have a value, except under some names. -/
def given (t : Entries) (except : List String) : Entries :=
  t.filter fun e => !e.2.isNull && !e.1.text?.any except.contains

def patchedBy (r t : Entries) (except : List String) : Entries := r.overriddenBy (t.given except)

variable {r t : Entries} {name : String}

/-! ### One entry -/

theorem get?_put_self (r : Entries) (name : String) (v : Value) :
    (r.put (.text name) v).get? name = some v := by
  induction r with
  | nil => exact get?_cons_self ..
  | cons e r ih =>
      obtain ⟨k, w⟩ := e
      cases hk : k.sameAs (.text name) with
      | true =>
          obtain rfl := Value.sameAs_text_iff.mp hk
          simp [put, hk]
      | false =>
          have hne : k ≠ .text name := by
            rintro rfl
            simp [Value.sameAs] at hk
          simpa [put, hk, get?_cons_of_ne hne] using ih

theorem get?_put_of_ne {key : Value} (hkey : key ≠ .text name) (r : Entries) (v : Value) :
    (r.put key v).get? name = r.get? name := by
  induction r with
  | nil => exact get?_cons_of_ne hkey v []
  | cons e r ih =>
      obtain ⟨k, w⟩ := e
      cases hk : k.sameAs key with
      | true =>
          -- the key that stays is no more the name than the new one
          have hne : k ≠ .text name := by
            rintro rfl
            exact hkey (Value.text_sameAs_iff.mp hk)
          simp [put, hk, get?_cons_of_ne hne]
      | false =>
          by_cases hne : k = .text name
          · subst hne
            simp [put, hk]
          · simpa [put, hk, get?_cons_of_ne hne] using ih

/-- A key that is there already is not put again. -/
theorem keys_put (r : Entries) (key v : Value) :
    (r.put key v).keys = r.keys ∨
      (∀ k ∈ r.keys, k.sameAs key = false) ∧ (r.put key v).keys = r.keys ++ [key] := by
  induction r with
  | nil => exact .inr ⟨nofun, rfl⟩
  | cons e r ih =>
      obtain ⟨k, w⟩ := e
      cases hk : k.sameAs key with
      | true =>
          refine .inl ?_
          simp [put, keys, hk]
      | false =>
          have hput : keys (put ((k, w) :: r) key v) = k :: keys (put r key v) := by simp [put, keys, hk]
          rw [hput]
          rcases ih with h | ⟨hall, h⟩
          · exact .inl (congrArg (k :: ·) h)
          · exact .inr ⟨List.forall_mem_cons.mpr ⟨hk, hall⟩, congrArg (k :: ·) h⟩

theorem DistinctKeys.put (hr : r.DistinctKeys) (key v : Value) : (r.put key v).DistinctKeys := by
  unfold DistinctKeys
  rcases keys_put r key v with h | ⟨hall, h⟩
  · rw [h]
    exact hr
  · rw [h]
    refine List.pairwise_append.mpr ⟨hr, List.pairwise_singleton .., fun k hk l hl => ?_⟩
    rw [List.mem_singleton.mp hl]
    exact hall k hk

theorem mem_keys_put {k key v : Value} (h : k ∈ (r.put key v).keys) : k ∈ r.keys ∨ k = key := by
  rcases keys_put r key v with hput | ⟨-, hput⟩
  · exact .inl (hput ▸ h)
  · rw [hput] at h
    simpa using h

/-! ### All entries -/

/-- The last word on a name is that of the record that overrides. -/
theorem get?_overriddenBy (r : Entries) (ht : t.DistinctKeys) (name : String) :
    (r.overriddenBy t).get? name = (t.get? name).or (r.get? name) := by
  induction t generalizing r with
  | nil => rfl
  | cons e t ih =>
      obtain ⟨k, v⟩ := e
      obtain ⟨hk, hrest⟩ := distinctKeys_cons_iff.mp ht
      have hstep := ih (r.put k v) hrest
      by_cases hname : k = .text name
      · subst hname
        have hnone : get? t name = none := get?_eq_none_of_not_mem fun hm => by
          simpa [Value.sameAs] using hk (.text name) hm
        rw [hnone, get?_put_self] at hstep
        rw [get?_cons_self]
        exact hstep
      · rw [get?_put_of_ne hname] at hstep
        rw [get?_cons_of_ne hname]
        exact hstep

theorem DistinctKeys.overriddenBy (hr : r.DistinctKeys) (t : Entries) :
    (r.overriddenBy t).DistinctKeys :=
  List.foldlRecOn t _ hr fun _ h _ _ => h.put ..

theorem mem_keys_overriddenBy {k : Value} (h : k ∈ (r.overriddenBy t).keys) : k ∈ r.keys ∨ k ∈ t.keys := by
  induction t generalizing r with
  | nil => exact .inl h
  | cons e t ih =>
      rcases ih h with hm | hm
      · rcases mem_keys_put hm with hm | rfl
        · exact .inl hm
        · exact .inr (List.mem_cons_self ..)
      · exact .inr (List.mem_cons_of_mem _ hm)

/-! ### A patch -/

variable {except : List String}

theorem DistinctKeys.given (ht : t.DistinctKeys) (except : List String) : (t.given except).DistinctKeys :=
  ht.sublist List.filter_sublist

theorem get?_given (ht : t.DistinctKeys) (hname : name ∉ except) :
    (t.given except).get? name = (t.get? name).filter fun v => !v.isNull := by
  refine Option.ext fun v => ?_
  rw [get?_eq_some_iff (ht.given except), Option.filter_eq_some_iff, get?_eq_some_iff ht, given, List.mem_filter]
  simp [Value.text?, hname]

/-- A patch that says nothing of a field leaves it. -/
theorem get?_patchedBy_of_null (r : Entries) (ht : t.DistinctKeys) (hname : name ∉ except)
    (hv : t.getD name = .null) : (r.patchedBy t except).get? name = r.get? name := by
  rw [patchedBy, get?_overriddenBy r (ht.given except), get?_given ht hname]
  rcases getD_eq_null_iff.mp hv with hv | hv
  · rw [hv]
    rfl
  · rw [hv]
    rfl

theorem get?_patchedBy_of_ne_null (r : Entries) (ht : t.DistinctKeys) (hname : name ∉ except) {v : Value}
    (hv : t.get? name = some v) (hn : v ≠ .null) : (r.patchedBy t except).get? name = some v := by
  rw [patchedBy, get?_overriddenBy r (ht.given except), get?_given ht hname, hv]
  have hnull : v.isNull = false := by simpa using hn
  simp [hnull]

/-- A key that is in a patched record was there, or is in the patch and not one that is excepted. -/
theorem mem_keys_patchedBy {k : Value} (h : k ∈ (r.patchedBy t except).keys) :
    k ∈ r.keys ∨ k ∈ t.keys ∧ ∀ name ∈ except, k ≠ .text name := by
  refine (mem_keys_overriddenBy h).imp_right fun hm => ?_
  obtain ⟨e, he, rfl⟩ := List.mem_map.mp hm
  obtain ⟨hmem, hcond⟩ := List.mem_filter.mp he
  refine ⟨List.mem_map_of_mem hmem, fun name hname hk => ?_⟩
  simp [hk, Value.text?, hname] at hcond

end Intake.Entries
