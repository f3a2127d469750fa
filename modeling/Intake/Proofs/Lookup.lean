import Intake.Validation

/-!
# Proofs — Lookup — what is found under a name

A validated record is made of what the rules have recorded, in front, and of entries that the schema
does not declare.  A name that a rule has is found in the first part alone, under the value that the
rule records (`get?_recorded`), and every other name in the second part alone
(`get?_strays_of_not_mem`).
-/

namespace Intake

@[simp] theorem Value.isNull_null : Value.null.isNull = true := rfl

theorem Value.isNull_iff {v : Value} : v.isNull = true ↔ v = .null := by
  cases v <;> simp [isNull]

@[simp] theorem Value.isNull_eq_false_iff {v : Value} : v.isNull = false ↔ v ≠ .null := by
  cases v <;> simp [isNull]

theorem Value.text?_eq_some_iff {v : Value} {s : String} : v.text? = some s ↔ v = .text s := by
  cases v <;> simp [text?]

/-- Nothing is the same as a text but this text. -/
theorem Value.sameAs_text_iff {v : Value} {s : String} : v.sameAs (.text s) = true ↔ v = .text s := by
  cases v with
  | text t => simp [sameAs]
  | _ => exact ⟨nofun, nofun⟩

theorem Value.text_sameAs_iff {v : Value} {s : String} : (text s).sameAs v = true ↔ v = .text s := by
  cases v with
  | text t =>
      simp only [sameAs, beq_iff_eq, text.injEq]
      exact eq_comm
  | _ => exact ⟨nofun, nofun⟩

namespace Entries

@[simp] theorem get?_cons_self (name : String) (v : Value) (r : Entries) :
    get? ((.text name, v) :: r) name = some v := by
  simp [get?]

theorem get?_cons_of_ne {k : Value} {name : String} (hk : k ≠ .text name) (v : Value) (r : Entries) :
    get? ((k, v) :: r) name = r.get? name := by
  cases k with
  | text s =>
      have hs : s ≠ name := fun e => hk (e ▸ rfl)
      simp [get?, hs]
  | _ => rfl

theorem get?_append (r t : Entries) (name : String) :
    get? (r ++ t) name = (get? r name).or (get? t name) := by
  induction r with
  | nil => rfl
  | cons e r ih =>
      obtain ⟨k, v⟩ := e
      rw [List.cons_append]
      by_cases hk : k = .text name
      · subst hk
        simp
      · rw [get?_cons_of_ne hk, get?_cons_of_ne hk, ih]

/-- Values are found changed where each has been changed under its key. -/
theorem get?_map (f : Value → Value → Value) (r : Entries) (name : String) :
    get? (r.map fun e => (e.1, f e.1 e.2)) name = (r.get? name).map (f (.text name)) := by
  induction r with
  | nil => rfl
  | cons e r ih =>
      obtain ⟨k, v⟩ := e
      rw [List.map_cons]
      by_cases hk : k = .text name
      · subst hk
        rw [get?_cons_self, get?_cons_self, Option.map_some]
      · rw [get?_cons_of_ne hk, get?_cons_of_ne hk, ih]

theorem getD_eq_null_iff {r : Entries} {name : String} :
    r.getD name = .null ↔ r.get? name = none ∨ r.get? name = some .null := by
  unfold getD
  cases r.get? name with
  | none => simp
  | some v => simp

theorem exists_of_getD_ne_null {r : Entries} {name : String} (h : r.getD name ≠ .null) :
    ∃ v, r.get? name = some v ∧ r.getD name = v ∧ v ≠ .null := by
  cases hg : r.get? name with
  | none => exact absurd (getD_eq_null_iff.mpr (.inl hg)) h
  | some v =>
      have hd : r.getD name = v := by rw [getD, hg, Option.getD_some]
      exact ⟨v, rfl, hd, hd ▸ h⟩

end Entries

/-- The name of the field that a condition looks at, if it looks at one and no more. -/
def Condition.field? : Condition → Option String
  | .equals field _ => some field
  | .present field  => some field
  | .truthy field   => some field
  | .predicate _    => none

/-- A condition on a field sees nothing else of a record. -/
theorem Condition.holds_congr {c : Condition} {name : String} (hc : c.field? = some name) {r t : Entries}
    (h : r.get? name = t.get? name) : c.holds r = c.holds t := by
  cases c with
  | equals f v =>
      cases hc
      simp only [holds, Entries.getD, h]
  | present f =>
      cases hc
      simp only [holds, Entries.has, h]
  | truthy f =>
      cases hc
      simp only [holds, Entries.getD, h]
  | predicate => cases hc

theorem Schema.declares_text {s : Schema} {name : String} :
    s.declares (.text name) = true ↔ name ∈ s.fieldNames := by
  simp [declares]

namespace Validation

/-! ### Entries that are not declared -/

theorem strays_cons_of_declares {s : Schema} {k : Value} (hk : s.declares k = true) (v : Value)
    (r : Entries) : strays s ((k, v) :: r) = strays s r := by
  simp [strays, hk]

theorem strays_cons_of_not_declares {s : Schema} {k : Value} (hk : s.declares k = false) (v : Value)
    (r : Entries) : strays s ((k, v) :: r) = (k, v) :: strays s r := by
  simp [strays, hk]

theorem get?_strays_of_mem {s : Schema} {r : Entries} {name : String} (h : name ∈ s.fieldNames) :
    (strays s r).get? name = none := by
  induction r with
  | nil => rfl
  | cons e r ih =>
      obtain ⟨k, v⟩ := e
      cases hk : s.declares k with
      | true => rw [strays_cons_of_declares hk, ih]
      | false =>
          have hne : k ≠ .text name := by
            rintro rfl
            rw [Schema.declares_text.mpr h] at hk
            cases hk
          rw [strays_cons_of_not_declares hk, Entries.get?_cons_of_ne hne, ih]

theorem get?_strays_of_not_mem {s : Schema} {r : Entries} {name : String}
    (h : name ∉ s.fieldNames) : (strays s r).get? name = r.get? name := by
  induction r with
  | nil => rfl
  | cons e r ih =>
      obtain ⟨k, v⟩ := e
      cases hk : s.declares k with
      | true =>
          have hne : k ≠ .text name := by
            rintro rfl
            exact h (Schema.declares_text.mp hk)
          rw [strays_cons_of_declares hk, Entries.get?_cons_of_ne hne, ih]
      | false =>
          rw [strays_cons_of_not_declares hk]
          by_cases hname : k = .text name
          · subst hname
            simp
          · rw [Entries.get?_cons_of_ne hname, Entries.get?_cons_of_ne hname, ih]

@[simp] theorem strays_strays (s : Schema) (r : Entries) : strays s (strays s r) = strays s r := by
  simp [strays]

theorem strays_append (s : Schema) (r t : Entries) :
    strays s (r ++ t) = strays s r ++ strays s t :=
  List.filter_append ..

theorem strays_map (s : Schema) (f : Value → Value → Value) (r : Entries) :
    strays s (r.map fun e => (e.1, f e.1 e.2)) = (strays s r).map fun e => (e.1, f e.1 e.2) :=
  List.filter_map ..

/-! ### Entries that the rules have recorded -/

theorem get?_recorded_of_not_mem {parts : List Contribution} {name : String}
    (h : name ∉ parts.map (·.name)) : (recorded parts).get? name = none := by
  induction parts with
  | nil => rfl
  | cons p parts ih =>
      simp only [List.map_cons, List.mem_cons, not_or] at h
      have hr := ih h.2
      cases hv : p.value with
      | none => simpa [recorded, hv] using hr
      | some v => simpa [recorded, hv, Entries.get?, Ne.symm h.1] using hr

/-- Where no two contributions have one name, each is found under its name. -/
theorem get?_recorded {parts : List Contribution} (hd : (parts.map (·.name)).Nodup)
    {p : Contribution} (hp : p ∈ parts) : (recorded parts).get? p.name = p.value := by
  induction parts with
  | nil => cases hp
  | cons q parts ih =>
      simp only [List.map_cons, List.nodup_cons] at hd
      rcases List.mem_cons.mp hp with rfl | hp
      · cases hv : p.value with
        | none => simpa [recorded, hv] using get?_recorded_of_not_mem hd.1
        | some v => simp [recorded, hv]
      · have hne : q.name ≠ p.name := fun e => hd.1 (e ▸ List.mem_map_of_mem hp)
        cases hv : q.value with
        | none => simpa [recorded, hv] using ih hd.2 hp
        | some v => simpa [recorded, hv, Entries.get?, hne] using ih hd.2 hp

/-- Rules record nothing but fields that the schema declares. -/
theorem strays_recorded {s : Schema} {parts : List Contribution}
    (h : ∀ p ∈ parts, p.name ∈ s.fieldNames) : strays s (recorded parts) = [] := by
  refine List.filter_eq_nil_iff.mpr fun e he => ?_
  obtain ⟨p, hp, hv⟩ := List.mem_filterMap.mp he
  obtain ⟨v, -, rfl⟩ := Option.map_eq_some_iff.mp hv
  simpa using Schema.declares_text.mpr (h p hp)

end Validation

end Intake
