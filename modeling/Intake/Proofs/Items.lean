import Intake.Proofs.Chain
import Intake.Proofs.Contribution

/-!
# Proofs — Items — a list under the schema of its items

A check of items asks for the outcome of every item twice.  What it makes of a list has, in the
place of every item that is valid, the validated record of that item (`coerce_items_eq_ok_iff`);
what it reports are the violations of the items of the list that it has made, each under the place
of its item (`violations_items_eq_ok_iff`).

A schema is *lasting* if it finds its own validated records valid, and leaves them as they are.  A
check of items under a lasting schema is settled (`Check.settled_items`).
-/

namespace Intake

namespace Validation

/-- The outcome for an item that is a record. -/
def itemOutcome (judge : Value → Except Fault Outcome) : Value → Except Fault (Option Outcome)
  | .record r => judge (.record r) >>= fun out => pure (some out)
  | _         => .ok none

/-- What takes the place of an item with an outcome. -/
def replacement (item : Value) : Option Outcome → Value
  | some (.valid r) => .record r
  | _               => item

def notARecord (path : String) : Violation :=
  ⟨path, Check.itemsName, .typeMismatch, "nested item must be an object"⟩

/-- What is reported of an item with an outcome, which one that is no record has not. -/
def itemReport (path : String) : Option Outcome → List Violation
  | some out => out.violations.map (.under path)
  | none     => [notARecord path]

/-- What is reported of items with outcomes, from a place on. -/
def itemReports (field : String) (outs : List (Option Outcome)) (start : Nat) : List Violation :=
  (outs.zipIdx start).flatMap fun out => itemReport (itemPath field out.2) out.1

variable {judge : Value → Except Fault Outcome}

theorem replaceItem_eq (judge : Value → Except Fault Outcome) (item : Value) :
    replaceItem judge item = itemOutcome judge item >>= fun out => pure (replacement item out) := by
  cases item with
  | record r =>
      simp only [replaceItem, itemOutcome]
      cases judge (.record r) with
      | error f => rfl
      | ok out => cases out <;> rfl
  | _ => rfl

theorem reportItem_eq (judge : Value → Except Fault Outcome) (field : String) (item : Value × Nat) :
    reportItem judge field item =
      itemOutcome judge item.1 >>= fun out => pure (itemReport (itemPath field item.2) out) := by
  obtain ⟨item, i⟩ := item
  cases item with
  | record r =>
      simp only [reportItem, itemOutcome]
      cases judge (.record r) with
      | error f => rfl
      | ok out => cases out <;> rfl
  | _ => rfl

theorem itemReports_cons (field : String) (out : Option Outcome) (outs : List (Option Outcome))
    (start : Nat) :
    itemReports field (out :: outs) start =
      itemReport (itemPath field start) out ++ itemReports field outs (start + 1) := by
  simp only [itemReports, List.zipIdx_cons, List.flatMap_cons]

theorem flatten_zipWith_itemReport {field : String} {P : Value → Option Outcome → Prop}
    {items : List Value} {outs : List (Option Outcome)} (h : List.Forall₂ P items outs) (start : Nat) :
    (List.zipWith (fun item out => itemReport (itemPath field item.2) out) (items.zipIdx start) outs).flatten =
      itemReports field outs start := by
  induction h generalizing start with
  | nil => rfl
  | cons _ _ ih =>
      rw [List.zipIdx_cons, List.zipWith_cons_cons, List.flatten_cons, ih, itemReports_cons]

/-- Items are judged when each of them has its outcome. -/
def ItemsJudged (judge : Value → Except Fault Outcome) (items : List Value)
    (outs : List (Option Outcome)) : Prop :=
  List.Forall₂ (fun item out => itemOutcome judge item = .ok out) items outs

theorem itemsJudged_zipIdx_iff {items : List Value} {outs : List (Option Outcome)} {start : Nat} :
    List.Forall₂ (fun item out => itemOutcome judge item.1 = .ok out) (items.zipIdx start) outs ↔
      ItemsJudged judge items outs := by
  have h := List.forall₂_map_left_iff (R := fun item out => itemOutcome judge item = .ok out)
    (f := Prod.fst) (l := items.zipIdx start) (u := outs)
  rw [List.zipIdx_map_fst] at h
  exact h.symm

theorem itemOutcome_record_eq_ok_iff {r : Entries} {out : Option Outcome} :
    itemOutcome judge (.record r) = .ok out ↔ ∃ a, judge (.record r) = .ok a ∧ some a = out :=
  bind_pure_eq_ok_iff

/-- Only a record is a valid item. -/
theorem itemOutcome_eq_valid_iff {item : Value} {r : Entries} :
    itemOutcome judge item = .ok (some (.valid r)) ↔
      ∃ e, item = .record e ∧ judge (.record e) = .ok (.valid r) := by
  constructor
  · intro h
    cases item with
    | record e =>
        obtain ⟨a, ha, hout⟩ := itemOutcome_record_eq_ok_iff.mp h
        cases hout
        exact ⟨e, rfl, ha⟩
    | _ => cases h
  · rintro ⟨e, rfl, h⟩
    exact itemOutcome_record_eq_ok_iff.mpr ⟨_, h, rfl⟩

/-- An item is valid from the start if what replaces it is valid. -/
theorem valid_of_replacement {item : Value} {first : Option Outcome} {r : Entries}
    (h₁ : itemOutcome judge item = .ok first)
    (h₂ : itemOutcome judge (replacement item first) = .ok (some (.valid r))) :
    ∃ t, first = some (.valid t) := by
  -- any other item is left where it is, and so has the same outcome again
  cases first with
  | none =>
      rw [show replacement item none = item from rfl, h₁] at h₂
      cases h₂
  | some out =>
      cases out with
      | valid t => exact ⟨t, rfl⟩
      | invalid vs =>
          rw [show replacement item (some (.invalid vs)) = item from rfl, h₁] at h₂
          cases h₂

theorem valid_of_replaced {items : List Value} {firsts seconds : List (Option Outcome)}
    (h₁ : ItemsJudged judge items firsts)
    (h₂ : ItemsJudged judge (List.zipWith replacement items firsts) seconds)
    (hv : ∀ out ∈ seconds, ∃ r, out = some (.valid r)) :
    ∀ out ∈ firsts, ∃ r, out = some (.valid r) := by
  unfold ItemsJudged at h₁ h₂
  induction h₁ generalizing seconds with
  | nil => exact nofun
  | cons h _ ih =>
      obtain ⟨second, rest, hsecond, hrest, rfl⟩ := List.forall₂_cons_left_iff.mp h₂
      obtain ⟨⟨r, rfl⟩, hrests⟩ := List.forall_mem_cons.mp hv
      exact List.forall_mem_cons.mpr ⟨valid_of_replacement h hsecond, ih hrest hrests⟩

end Validation

open Validation

namespace Check

variable {o : Options} {field : String} {s : Schema} {m : Option String}

theorem coerce_items_of_no_list {v : Value} (hv : v.items? = none) :
    (Check.items (some s) m).coerce o v = .ok v := by
  simp only [coerce_items_some, hv]

theorem coerce_items_eq_ok_iff {v w : Value} {items : List Value} (hv : v.items? = some items) :
    (Check.items (some s) m).coerce o v = .ok w ↔
      ∃ outs, ItemsJudged (s.validate o) items outs ∧ w = .list (List.zipWith replacement items outs) := by
  simp only [coerce_items_some, hv, bind_pure_eq_ok_iff, funext (replaceItem_eq (s.validate o)),
    mapM_bind_pure_eq_ok_iff, ItemsJudged]
  constructor
  · rintro ⟨-, ⟨outs, ho, rfl⟩, rfl⟩
    exact ⟨outs, ho, rfl⟩
  · rintro ⟨outs, ho, rfl⟩
    exact ⟨_, ⟨outs, ho, rfl⟩, rfl⟩

theorem violations_items_eq_ok_iff {v : Value} {vs : List Violation} :
    (Check.items (some s) m).violations o field v = .ok vs ↔
      ∃ outs, ItemsJudged (s.validate o) (v.items?.getD [v]) outs ∧ vs = itemReports field outs 0 := by
  simp only [violations_items_some, bind_pure_eq_ok_iff, funext (reportItem_eq (s.validate o) field),
    mapM_bind_pure_eq_ok_iff, itemsJudged_zipIdx_iff]
  constructor
  · rintro ⟨-, ⟨outs, ho, rfl⟩, rfl⟩
    exact ⟨outs, ho, flatten_zipWith_itemReport ho 0⟩
  · rintro ⟨outs, ho, rfl⟩
    exact ⟨_, ⟨outs, ho, rfl⟩, flatten_zipWith_itemReport ho 0⟩

theorem prepare_items (o : Options) (s : Option Schema) (m : Option String) (v : Value) :
    (Check.items s m).prepare o v = .ok v := by
  unfold prepare
  split <;> rfl

/-- Nothing is reported of items exactly if each of them is a valid record. -/
theorem itemReports_eq_nil_iff {items : List Value} {outs : List (Option Outcome)} {start : Nat}
    (h : ItemsJudged (s.validate o) items outs) :
    itemReports field outs start = [] ↔ ∀ out ∈ outs, ∃ r, out = some (.valid r) := by
  unfold ItemsJudged at h
  induction h generalizing start with
  | nil => simp [itemReports]
  | @cons item out _ _ ho _ ih =>
      rw [itemReports_cons, List.append_eq_nil_iff, ih, List.forall_mem_cons]
      refine and_congr_left fun _ => ?_
      cases item with
      | record r =>
          obtain ⟨a, ha, rfl⟩ := itemOutcome_record_eq_ok_iff.mp ho
          cases a with
          | valid t => simp [itemReport, Outcome.violations]
          | invalid vs => simpa [itemReport, Outcome.violations] using Schema.violations_ne_nil ha
      | _ => cases ho; simp [itemReport]

theorem violations_items_eq_nil_iff {v : Value} :
    (Check.items (some s) m).violations o field v = .ok [] ↔
      ∃ outs, ItemsJudged (s.validate o) (v.items?.getD [v]) outs ∧
        ∀ out ∈ outs, ∃ r, out = some (.valid r) := by
  rw [violations_items_eq_ok_iff]
  constructor
  · rintro ⟨outs, h, hn⟩
    exact ⟨outs, h, (itemReports_eq_nil_iff h).mp hn.symm⟩
  · rintro ⟨outs, h, hv⟩
    exact ⟨outs, h, ((itemReports_eq_nil_iff h).mpr hv).symm⟩

/-- A check of items judges the items of a list, and then what has taken their places. -/
theorem chain_items_eq_ok_iff {v : Value} {verdict : Verdict} {items : List Value}
    (hv : v.items? = some items) :
    Check.chain o field [.items (some s) m] v = .ok verdict ↔
      ∃ firsts seconds, ItemsJudged (s.validate o) items firsts ∧
        ItemsJudged (s.validate o) (List.zipWith replacement items firsts) seconds ∧
        verdict = .ofViolations (itemReports field seconds 0)
          (.list (List.zipWith replacement items firsts)) := by
  constructor
  · intro h
    obtain ⟨x, u, vs, hx, hu, hvs, rfl⟩ := chain_singleton_eq_ok_iff.mp h
    rw [prepare_items] at hx
    cases hx
    obtain ⟨firsts, h₁, rfl⟩ := (coerce_items_eq_ok_iff hv).mp hu
    obtain ⟨seconds, h₂, rfl⟩ := violations_items_eq_ok_iff.mp hvs
    exact ⟨firsts, seconds, h₁, h₂, rfl⟩
  · rintro ⟨firsts, seconds, h₁, h₂, rfl⟩
    refine chain_singleton_eq_ok_iff.mpr ⟨v, _, _, prepare_items .., ?_, ?_, rfl⟩
    · exact (coerce_items_eq_ok_iff hv).mpr ⟨firsts, h₁, rfl⟩
    · exact violations_items_eq_ok_iff.mpr ⟨seconds, h₂, rfl⟩

/-! ### Items that stay as they are -/

theorem passes_items_none (o : Options) (field : String) (m : Option String) (v : Value) :
    (Check.items none m).Passes o field v v :=
  ⟨v, prepare_items .., coerce_items_none .., violations_items_none ..⟩

theorem Passes.eq_of_items_none {v w : Value} (h : (Check.items none m).Passes o field v w) :
    w = v := by
  obtain ⟨u, hu, hw, -⟩ := h
  rw [prepare_items] at hu
  cases hu
  rw [coerce_items_none] at hw
  cases hw
  rfl

theorem passes_items_of_no_list {v : Value} (hv : v.items? = none) {w : Value}
    (h : (Check.items (some s) m).Passes o field v w) : w = v := by
  obtain ⟨u, hu, hw, -⟩ := h
  rw [prepare_items] at hu
  cases hu
  rw [coerce_items_of_no_list hv] at hw
  cases hw
  rfl

/-- A list that passes has given every item for its validated record, and each of these is valid. -/
theorem passes_items_iff {v w : Value} {items : List Value} (hv : v.items? = some items) :
    (Check.items (some s) m).Passes o field v w ↔
      ∃ firsts seconds, ItemsJudged (s.validate o) items firsts ∧
        w = .list (List.zipWith replacement items firsts) ∧
        ItemsJudged (s.validate o) (List.zipWith replacement items firsts) seconds ∧
        ∀ out ∈ seconds, ∃ r, out = some (.valid r) := by
  simp only [Passes, prepare_items, coerce_items_eq_ok_iff hv, violations_items_eq_nil_iff,
    Except.ok.injEq, exists_eq_left']
  constructor
  · rintro ⟨⟨firsts, h₁, rfl⟩, seconds, h₂, hn⟩
    exact ⟨firsts, seconds, h₁, rfl, h₂, hn⟩
  · rintro ⟨firsts, seconds, h₁, rfl, h₂, hn⟩
    exact ⟨⟨firsts, h₁, rfl⟩, seconds, h₂, hn⟩

end Check

/-- Validated records of the schema are valid under it and stay as they are. -/
def Schema.Lasting (o : Options) (s : Schema) : Prop :=
  ∀ v r, s.validate o v = .ok (.valid r) → s.validate o (.record r) = .ok (.valid r)

namespace Validation

/-- An item that is valid once it has been replaced is the validated record of the item before. -/
theorem replacement_eq_of_lasting {o : Options} {s : Schema} (hs : s.Lasting o) {item : Value}
    {first : Option Outcome} {r : Entries} (h₁ : itemOutcome (s.validate o) item = .ok first)
    (h₂ : itemOutcome (s.validate o) (replacement item first) = .ok (some (.valid r))) :
    replacement item first = .record r := by
  obtain ⟨t, rfl⟩ := valid_of_replacement h₁ h₂
  obtain ⟨e, rfl, ha⟩ := itemOutcome_eq_valid_iff.mp h₁
  rw [replacement, itemOutcome, hs _ _ ha] at h₂
  cases h₂
  rfl

/-- Under a lasting schema every item has the same outcome when it is judged once more. -/
theorem ItemsJudged.again {o : Options} {s : Schema} (hs : s.Lasting o) {items : List Value}
    {outs : List (Option Outcome)} (h : ItemsJudged (s.validate o) items outs) :
    ItemsJudged (s.validate o) (List.zipWith replacement items outs) outs := by
  unfold ItemsJudged at h ⊢
  induction h with
  | nil => exact .nil
  | @cons item out _ _ ho _ ih =>
      refine .cons ?_ ih
      cases item with
      | record r =>
          obtain ⟨a, ha, rfl⟩ := itemOutcome_record_eq_ok_iff.mp ho
          cases a with
          | valid t => exact itemOutcome_record_eq_ok_iff.mpr ⟨_, hs _ _ ha, rfl⟩
          | invalid vs => exact ho
      | _ => cases ho; rfl

theorem replacements_eq_of_lasting {o : Options} {s : Schema} (hs : s.Lasting o) {items : List Value}
    {firsts seconds : List (Option Outcome)} (h₁ : ItemsJudged (s.validate o) items firsts)
    (h₂ : ItemsJudged (s.validate o) (List.zipWith replacement items firsts) seconds)
    (hv : ∀ out ∈ seconds, ∃ r, out = some (.valid r)) :
    List.zipWith replacement (List.zipWith replacement items firsts) seconds =
      List.zipWith replacement items firsts := by
  unfold ItemsJudged at h₁ h₂
  induction h₁ generalizing seconds with
  | nil => rfl
  | @cons item first items firsts h _ ih =>
      obtain ⟨second, rest, hsecond, hrest, rfl⟩ := List.forall₂_cons_left_iff.mp h₂
      obtain ⟨⟨r, rfl⟩, hrests⟩ := List.forall_mem_cons.mp hv
      rw [List.zipWith_cons_cons, List.zipWith_cons_cons, ih hrest hrests,
        replacement_eq_of_lasting hs h hsecond]
      rfl

end Validation

namespace Check

theorem settled_items {o : Options} {s : Schema} {m : Option String} (hs : s.Lasting o) :
    (Check.items (some s) m).Settled o := by
  intro field v w h
  cases hv : v.items? with
  | none =>
      obtain rfl := passes_items_of_no_list hv h
      exact h
  | some items =>
      obtain ⟨firsts, seconds, h₁, rfl, h₂, hn⟩ := (passes_items_iff hv).mp h
      have he := replacements_eq_of_lasting hs h₁ h₂ hn
      refine (passes_items_iff rfl).mpr ⟨seconds, seconds, h₂, by rw [he], ?_, hn⟩
      rw [he]
      exact h₂

theorem Passes.remade {o : Options} {field : String} {c : Check} {v w : Value}
    (h : c.Passes o field v w) : v.Remade w := by
  rcases c with ⟨t, m⟩ | ⟨_ | s, m⟩
  · exact h.remade_of_test
  · rw [h.eq_of_items_none]
    exact .same v
  · cases hv : v.items? with
    | none =>
        rw [passes_items_of_no_list hv h]
        exact .same v
    | some items =>
        obtain ⟨firsts, -, hj, rfl, -⟩ := (passes_items_iff hv).mp h
        refine .replaced hv ?_
        rw [List.length_zipWith, hj.length_eq, Nat.min_self]

/-- What a chain of checks makes of a value. -/
theorem chain_remade {o : Options} {field : String} {checks : List Check} {v w : Value}
    (h : Check.chain o field checks v = .ok (.passed w)) : v.Remade w :=
  chain_passed_induction (P := fun x => v.Remade x) (fun _ _ _ _ hp hx => hx.trans hp.remade) h (.same v)

/-- No check makes null out of something else. -/
theorem chain_ne_null {o : Options} {field : String} {checks : List Check} {v w : Value}
    (h : Check.chain o field checks v = .ok (.passed w)) (hn : v ≠ .null) : w ≠ .null := by
  rintro rfl
  exact hn (chain_remade h).eq_null

theorem settled_items_none (o : Options) (m : Option String) : (Check.items none m).Settled o := by
  intro field v w _
  exact passes_items_none ..

end Check

end Intake
