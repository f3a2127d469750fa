import Intake.Catalogue.Field
import Intake.Proofs.Items
import Intake.Proofs.Mapping
import Intake.Proofs.Nesting

/-!
# Proofs — Provenance — where the parts of a validated record come from

A path goes into a value by the keys of records and the places of lists (`Value.HasPath`).  Checks
add no path to a value, except that the items of a list are given what their schema fills in; rules
add a path only for a default.  So each path of a validated record was sent, or some default on the
way filled it in (`Schema.FillsIn`).

* `Schema.hasPath_of_validate`: the paths of a validated record.
* `Schema.derivePartial_sent`: an update has no defaults of its own, but keeps those of the schemas
  nested in it, which are the only things that it writes unasked.
-/

namespace Intake

open Validation

namespace Value

/-- One step into a value. -/
inductive Step where
  | key (k : Value)
  | place (i : Nat)

/-- Whether the steps can be taken one after the other. -/
def HasPath : Value → List Step → Prop
  | _, []            => True
  | v, .key k :: p   => ∃ r w, v = .record r ∧ (k, w) ∈ r ∧ w.HasPath p
  | v, .place i :: p => ∃ items w, v.items? = some items ∧ items[i]? = some w ∧ w.HasPath p

theorem hasPath_nil (v : Value) : v.HasPath [] := trivial

theorem hasPath_record_iff {r : Entries} {p : List Step} :
    (record r).HasPath p ↔ p = [] ∨ ∃ k w q, p = .key k :: q ∧ (k, w) ∈ r ∧ w.HasPath q := by
  cases p with
  | nil => simp [HasPath]
  | cons step p => cases step <;> simp [HasPath, items?]

theorem hasPath_list_iff {items : List Value} {p : List Step} :
    (list items).HasPath p ↔ p = [] ∨ ∃ i w q, p = .place i :: q ∧ items[i]? = some w ∧ w.HasPath q := by
  cases p with
  | nil => simp [HasPath]
  | cons step p => cases step <;> simp [HasPath, items?]

theorem eq_nil_of_isReading {v : Value} (hv : v.isReading = true) {p : List Step} (h : v.HasPath p) :
    p = [] := by
  cases p with
  | nil => rfl
  | cons step p =>
      cases step with
      | key k =>
          obtain ⟨r, -, rfl, -⟩ := h
          cases hv
      | place i =>
          obtain ⟨items, -, hi, -⟩ := h
          rw [items?_of_isReading hv] at hi
          cases hi

end Value

/-- The paths that a schema may add to a record: into the default of a field, and into the items of
a field on the paths that their schema may add to these. -/
inductive Schema.FillsIn : Schema → List Value.Step → Prop where
  | default {s : Schema} {rule : Rule} {p : List Value.Step} (hr : rule ∈ s.rules)
      (hrequired : rule.required = false) (hn : rule.default ≠ .null) (hp : rule.default.HasPath p) :
      FillsIn s (.key (.text rule.name) :: p)
  | item {s t : Schema} {rule : Rule} {c : Check} {i : Nat} {p : List Value.Step} (hr : rule ∈ s.rules)
      (hc : c ∈ rule.checks) (ht : c.nested? = some t) (hp : FillsIn t p) :
      FillsIn s (.key (.text rule.name) :: .place i :: p)

/-- The paths that a check may add to a list. -/
def Check.FillsIn (c : Check) (p : List Value.Step) : Prop :=
  ∃ t i q, c.nested? = some t ∧ p = .place i :: q ∧ t.FillsIn q

/-- The paths of validated records were sent or are filled in. -/
def Schema.Sources (o : Options) (s : Schema) : Prop :=
  ∀ v r, s.validate o v = .ok (.valid r) → ∀ p, (Value.record r).HasPath p → v.HasPath p ∨ s.FillsIn p

/-! ### What checks add -/

namespace Validation

variable {o : Options} {s : Schema}

/-- In the place of an item is the item, or its validated record. -/
theorem replacement_cases {item : Value} {out : Option Outcome}
    (h : itemOutcome (s.validate o) item = .ok out) :
    replacement item out = item ∨
      ∃ r, replacement item out = .record r ∧ s.validate o item = .ok (.valid r) := by
  rcases out with _ | r | vs
  · exact .inl rfl
  · obtain ⟨e, rfl, hr⟩ := itemOutcome_eq_valid_iff.mp h
    exact .inr ⟨r, rfl, hr⟩
  · exact .inl rfl

theorem hasPath_of_replaced (hs : s.Sources o) {items : List Value} {outs : List (Option Outcome)}
    (houts : ItemsJudged (s.validate o) items outs) {i : Nat} {w : Value}
    (hw : (List.zipWith replacement items outs)[i]? = some w) {p : List Value.Step} (hp : w.HasPath p) :
    ∃ item, items[i]? = some item ∧ (item.HasPath p ∨ s.FillsIn p) := by
  obtain ⟨item, out, hitem, hout, rfl⟩ := List.getElem?_zipWith_eq_some.mp hw
  have hjudged : itemOutcome (s.validate o) item = .ok out := (List.forall₂_iff_zip.mp houts).2
    (List.mem_of_getElem? (List.getElem?_zip_eq_some.mpr ⟨hitem, hout⟩))
  refine ⟨item, hitem, ?_⟩
  rcases replacement_cases hjudged with he | ⟨r, he, hr⟩
  · exact .inl (he ▸ hp)
  · exact hs item r hr p (he ▸ hp)

end Validation

namespace Check

variable {o : Options} {field : String}

theorem Passes.hasPath_of_test {t : Test} {m : Option String} {v w : Value}
    (h : (Check.test t m).Passes o field v w) {p : List Value.Step} (hp : w.HasPath p) : v.HasPath p := by
  cases hl : t.leaves v with
  | true => rwa [h.eq_of_leaves hl] at hp
  | false =>
      obtain ⟨-, s, rfl⟩ := Test.exists_text_of_not_leaves hl
      cases h.remade_of_test with
      | same => exact hp
      | read _ hw =>
          rw [Value.eq_nil_of_isReading hw hp]
          trivial
      | replaced hi => cases hi

/-- A check adds nothing to a value but what the schema of its items fills in. -/
theorem Passes.hasPath {c : Check} (hc : ∀ t, c.nested? = some t → t.Sources o) {v w : Value}
    (h : c.Passes o field v w) {p : List Value.Step} (hp : w.HasPath p) : v.HasPath p ∨ c.FillsIn p := by
  rcases c with ⟨t, m⟩ | ⟨_ | s, m⟩
  · exact .inl (h.hasPath_of_test hp)
  · exact .inl (h.eq_of_items_none ▸ hp)
  · cases hv : v.items? with
    | none => exact .inl (passes_items_of_no_list hv h ▸ hp)
    | some items =>
        obtain ⟨firsts, -, hfirsts, rfl, -⟩ := (passes_items_iff hv).mp h
        rcases Value.hasPath_list_iff.mp hp with rfl | ⟨i, w, q, rfl, hw, hq⟩
        · exact .inl (Value.hasPath_nil v)
        · obtain ⟨item, hitem, hsource⟩ := hasPath_of_replaced (hc s rfl) hfirsts hw hq
          exact hsource.imp (fun hq => ⟨items, item, hv, hitem, hq⟩) fun hq => ⟨s, i, q, rfl, rfl, hq⟩

theorem hasPath_of_chain {checks : List Check} (hc : ∀ c ∈ checks, ∀ t, c.nested? = some t → t.Sources o)
    {v w : Value} (h : Check.chain o field checks v = .ok (.passed w)) {p : List Value.Step} (hp : w.HasPath p) :
    v.HasPath p ∨ ∃ c ∈ checks, c.FillsIn p := by
  -- along the chain, every path of the value under way is one of the first or has been filled in
  refine chain_passed_induction (P := fun x => ∀ p, x.HasPath p → v.HasPath p ∨ ∃ c ∈ checks, c.FillsIn p)
    (fun c hm x y hpass hx p hy => ?_) h (fun p hp => .inl hp) p hp
  rcases hpass.hasPath (hc c hm) hy with hy | hfills
  · exact hx p hy
  · exact .inr ⟨c, hm, hfills⟩

end Check

/-! ### What rules add -/

/-- What a rule records was sent under the name of its field, or is filled in. -/
theorem Rule.Judged.hasPath {o : Options} {s : Schema} (hs : ∀ t ∈ s.nested, t.Sources o) {rule : Rule}
    (hr : rule ∈ s.rules) {d : Entries} {part : Contribution} (h : rule.Judged o d part) {w : Value}
    (hw : part.value = some w) {p : List Value.Step} (hp : w.HasPath p) :
    (Value.record d).HasPath (.key (.text rule.name) :: p) ∨ s.FillsIn (.key (.text rule.name) :: p) := by
  have hsent {v : Value} (hv : d.get? rule.name = some v) (hp : v.HasPath p) :
      (Value.record d).HasPath (.key (.text rule.name) :: p) := ⟨d, v, rfl, Entries.mem_of_get? hv, hp⟩
  cases h with
  | skipped => exact .inl (hsent hw hp)
  | failed => cases hw
  | missing ha hv =>
      cases hrequired : rule.required with
      | true =>
          rw [absent_of_required hrequired] at hw
          cases hw
      | false =>
          cases hd : rule.default.isNull with
          | true =>
              rw [absent_value_of_isNull hrequired hd hv] at hw
              exact .inl (hsent hw hp)
          | false =>
              rw [absent_of_not_required hrequired, hd] at hw
              cases hw
              exact .inr (.default hr hrequired (Value.isNull_eq_false_iff.mp hd) hp)
  | passed ha hv hn hc =>
      cases hw
      rcases Check.hasPath_of_chain (Schema.forall_nested_of_rule hs hr) hc hp with hp | ⟨c, hm, hfills⟩
      · exact .inl (hsent hv hp)
      · obtain ⟨t, i, q, ht, rfl, hq⟩ := hfills
        exact .inr (.item hr hm ht hq)

/-- **The parts of a validated record.**  Every path of a validated record was sent or is filled
in. -/
theorem Schema.hasPath_of_validate (o : Options) (s : Schema) : s.Sources o := by
  induction s using nesting_induction with
  | step s hs =>
      intro v r h p hp
      obtain ⟨d, rfl⟩ := exists_record_of_validate_eq_valid h
      obtain ⟨parts, hparts, -, -, rfl⟩ := validate_record_eq_valid_iff.mp h
      rcases Value.hasPath_record_iff.mp hp with rfl | ⟨k, w, q, rfl, hm, hq⟩
      · exact .inl (Value.hasPath_nil _)
      rcases List.mem_append.mp hm with hm | hm
      · obtain ⟨part, hpart, hw⟩ := List.mem_filterMap.mp hm
        obtain ⟨w', hw', he⟩ := Option.map_eq_some_iff.mp hw
        cases he
        obtain ⟨rule, hr, hj⟩ := exists_left_of_mem_forall₂ hparts hpart
        rw [hj.name_eq]
        exact hj.hasPath hs hr hw' hq
      · exact .inl ⟨d, w, rfl, (List.mem_filter.mp hm).1, hq⟩

/-! ### Updates -/

namespace Schema

/-- Whether nothing stands in for any field of a schema that may be missing. -/
def hasNoDefault (s : Schema) : Bool := s.rules.all fun rule => rule.required || rule.default.isNull

theorem not_fillsIn {s : Schema} (hs : s.everywhere hasNoDefault = true) (p : List Value.Step) :
    ¬ s.FillsIn p := by
  intro h
  induction h with
  | default hr hrequired hn =>
      have hrule := List.all_eq_true.mp (everywhere_iff.mp hs).1 _ hr
      rw [hrequired, Bool.false_or, Value.isNull_iff] at hrule
      exact hn hrule
  | item hr hc ht _ ih => exact ih ((everywhere_iff.mp hs).2 _ (mem_nested_iff.mpr ⟨_, hr, _, hc, ht⟩))

/-- What the schema of an update fills in, it fills into items. -/
theorem fillsIn_derivePartial_iff {base : Schema} {name : Option String} {p : List Value.Step} :
    (base.derivePartial name).FillsIn p ↔
      ∃ rule ∈ base.rules, ∃ c ∈ rule.checks, ∃ q, p = .key (.text rule.name) :: q ∧ c.FillsIn q := by
  constructor
  · intro h
    cases h with
    | default hr _ hn =>
        obtain ⟨rule, -, rfl⟩ := List.mem_map.mp hr
        exact absurd rfl hn
    | @item _ t _ c i q hr hc ht hq =>
        obtain ⟨rule, hrule, rfl⟩ := List.mem_map.mp hr
        exact ⟨rule, hrule, c, hc, _, rfl, t, i, q, ht, rfl, hq⟩
  · rintro ⟨rule, hrule, c, hc, -, rfl, t, i, q, ht, rfl, hq⟩
    have hmem : rule.asOptional ∈ (base.derivePartial name).rules := List.mem_map_of_mem hrule
    exact @FillsIn.item _ t rule.asOptional c i q hmem hc ht hq

/-- **Updates write what was sent.**  Every path of a record validated for an update was sent, or
leads into an item of a list, where the schema of the items fills it in.  If no schema nested in
that of the update, at any depth, has a default, every path was sent. -/
theorem derivePartial_sent (base : Schema) (name : Option String) {o : Options} {d r : Entries}
    (h : (base.derivePartial name).validate o (.record d) = .ok (.valid r)) :
    (∀ p, (Value.record r).HasPath p → (Value.record d).HasPath p ∨
      ∃ rule ∈ base.rules, ∃ c ∈ rule.checks, ∃ t i q, c.nested? = some t ∧ t.FillsIn q ∧
        p = .key (.text rule.name) :: .place i :: q) ∧
    ((∀ t ∈ base.nested, t.everywhere hasNoDefault = true) →
      ∀ p, (Value.record r).HasPath p → (Value.record d).HasPath p) := by
  have hsources (p : List Value.Step) (hp : (Value.record r).HasPath p) :=
    (hasPath_of_validate o _ _ r h p hp).imp_right fillsIn_derivePartial_iff.mp
  constructor
  · intro p hp
    refine (hsources p hp).imp_right ?_
    rintro ⟨rule, hrule, c, hc, -, rfl, t, i, q, ht, rfl, hq⟩
    exact ⟨rule, hrule, c, hc, t, i, q, ht, hq, rfl⟩
  · intro hdefaults p hp
    refine (hsources p hp).resolve_right ?_
    rintro ⟨rule, hrule, c, hc, -, -, t, i, q, ht, -, hq⟩
    exact not_fillsIn (hdefaults t (mem_nested_iff.mpr ⟨rule, hrule, c, hc, ht⟩)) q hq

end Schema

open Catalogue in
/-- A basket with lines, each for a number of pieces that may be left out. -/
def basket (pieces : Value) : Schema := ⟨"Basket", [
  required "customer" [string],
  required "lines" [plain (.array none), .items (some ⟨"BasketLine", [
    required "article" [string],
    defaulting "pieces" [integerFrom 1] pieces]⟩) none]]⟩

/-- An update of a basket with one line, and what it is validated to if a line is for one piece by
default. -/
def sentBasket : Entries := [(.text "lines", .list [.record [(.text "article", .text "lamp")]])]

def filledBasket : Entries :=
  [(.text "lines", .list [.record [(.text "article", .text "lamp"), (.text "pieces", .int 1)]])]

/-- With the pieces as a text, and what it is validated to where texts are converted. -/
def writtenBasket : Entries :=
  [(.text "lines", .tuple [.record [(.text "article", .text "lamp"), (.text "pieces", .text "2")]])]

def readBasket : Entries :=
  [(.text "lines", .list [.record [(.text "article", .text "lamp"), (.text "pieces", .int 2)]])]

theorem Schema.derivePartial_sent_basket :
    (((basket (.int 1)).derivePartial none).validate {} (.record sentBasket) = .ok (.valid filledBasket) ∧
      ∀ p, (Value.record filledBasket).HasPath p → (Value.record sentBasket).HasPath p ∨
        ∃ rule ∈ (basket (.int 1)).rules, ∃ c ∈ rule.checks, ∃ t i q, c.nested? = some t ∧ t.FillsIn q ∧
          p = .key (.text rule.name) :: .place i :: q) ∧
    ((basket .null).derivePartial none).validate ⟨true, true⟩ (.record writtenBasket) =
        .ok (.valid readBasket) ∧
      ∀ p, (Value.record readBasket).HasPath p → (Value.record writtenBasket).HasPath p := by
  have hfilled : ((basket (.int 1)).derivePartial none).validate {} (.record sentBasket) =
      .ok (.valid filledBasket) := by rfl
  have hread : ((basket .null).derivePartial none).validate ⟨true, true⟩ (.record writtenBasket) =
      .ok (.valid readBasket) := by rfl
  have hdefaults : ∀ t ∈ (basket .null).nested, t.everywhere hasNoDefault = true := by decide
  exact ⟨⟨hfilled, (derivePartial_sent _ none hfilled).1⟩, hread, (derivePartial_sent _ none hread).2 hdefaults⟩

/-- The number of pieces in the line is new. -/
theorem filledBasket_not_sent :
    ((basket (.int 1)).derivePartial none).validate {} (.record sentBasket) = .ok (.valid filledBasket) ∧
      (Value.record filledBasket).HasPath [.key (.text "lines"), .place 0, .key (.text "pieces")] ∧
      ¬ (Value.record sentBasket).HasPath [.key (.text "lines"), .place 0, .key (.text "pieces")] := by
  refine ⟨by rfl, ?_, ?_⟩
  · simp [Value.HasPath, filledBasket, Value.items?]
  · simp [Value.HasPath, sentBasket, Value.items?]

end Intake
