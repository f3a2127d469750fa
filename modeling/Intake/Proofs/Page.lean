import Intake.Proofs.Merging
import Intake.Proofs.Query

/-!
# Proofs — Page — the page of a list that is asked for

Every schema of a request for a list begins with the rules of a page, and no filter behind them has
the name of one of these (`Catalogue.rules_listing`), so that they are in force as they are.  A
validated request therefore has the number of a page from one on and a size between one and a
hundred, whatever was sent, and what it passes over is no negative number (`Entries.IsPaged`).

Conversely every such page can be asked for, with its entries in any order.  Both together are
`Catalogue.validate_page`.
-/

namespace Intake

open Validation

/-! ### Integers within bounds -/

theorem Number.lessThan_int (a b : Int) : (int a).lessThan (int b) = decide (a < b) := by
  have hscaled (n : Int) : Extent.scaled n 0 (min 0 0) = n := mul_one n
  have hcompare : (int a).compare? (int b) =
      some (compare (Extent.scaled a 0 (min 0 0)) (Extent.scaled b 0 (min 0 0))) := rfl
  rw [lessThan, hcompare, hscaled, hscaled, Bool.eq_iff_iff, beq_iff_eq, Option.some.injEq, decide_eq_true_iff]
  exact Int.compare_eq_lt

namespace Test

theorem outOfBounds_eq_ok_none_iff {n : Number} {least most : Option Number} :
    outOfBounds n least most = .ok none ↔
      (∀ low ∈ least, n.lessThan low = false) ∧ ∀ high ∈ most, high.lessThan n = false := by
  unfold outOfBounds
  split
  · rename_i low hlow
    obtain ⟨hmem, hless⟩ := Option.filter_eq_some_iff.mp hlow
    rw [bind_pure_eq_ok_iff]
    constructor
    · rintro ⟨_, -, h⟩
      cases h
    · rintro ⟨h, -⟩
      rw [h low hmem] at hless
      cases hless
  · rename_i high _ hhigh
    obtain ⟨hmem, hless⟩ := Option.filter_eq_some_iff.mp hhigh
    rw [bind_pure_eq_ok_iff]
    constructor
    · rintro ⟨_, -, h⟩
      cases h
    · rintro ⟨-, h⟩
      rw [h high hmem] at hless
      cases hless
  · rename_i hlow hhigh
    simpa [Option.filter_eq_none_iff] using And.intro hlow hhigh

/-- An integer test accepts the integers within its bounds and nothing else. -/
theorem accepts_integer_iff (least most : Option Int) {v : Value} :
    (integer (least.map .int) (most.map .int)).accepts v = true ↔
      ∃ n, v = .int n ∧ (∀ low ∈ least, low ≤ n) ∧ ∀ high ∈ most, n ≤ high := by
  rw [accepts_iff]
  cases v with
  | int n => simp [examine, outOfBounds_eq_ok_none_iff, Number.lessThan_int]
  | _ => simp [examine]

end Test

/-! ### Requests for a page -/

/-- The record asks for a page that there may be, with a hundred records at most. -/
structure Entries.IsPaged (r : Entries) : Prop where
  page  : ∃ n : Int, r.get? "page" = some (.int n) ∧ 1 ≤ n
  limit : ∃ n : Int, r.get? "limit" = some (.int n) ∧ 1 ≤ n ∧ n ≤ 100
  skip  : ∀ v, r.get? "skip" = some v → v ≠ .null → ∃ n : Int, v = .int n ∧ 0 ≤ n

/-- A request for a page and nothing else. -/
def Entries.ofPage (page limit skip : Int) : Entries :=
  [(.text "page", .int page), (.text "limit", .int limit), (.text "skip", .int skip)]

/-- Texts are keys that differ if they are not equal. -/
theorem Entries.distinctKeys_of_texts {r : Entries} (names : List String) (hd : names.Nodup)
    (hkeys : r.keys.Perm (names.map .text)) : r.DistinctKeys := by
  have htext : ∀ k ∈ r.keys, ∃ name, k = .text name := fun k hk => by
    obtain ⟨name, -, rfl⟩ := List.mem_map.mp (hkeys.mem_iff.mp hk)
    exact ⟨name, rfl⟩
  have hnodup : r.keys.Nodup := by
    rw [hkeys.nodup_iff]
    exact hd.map fun _ _ heq => Value.text.inj heq
  refine hnodup.imp_of_mem fun hk _ hne => ?_
  obtain ⟨name, rfl⟩ := htext _ hk
  rw [Bool.eq_false_iff]
  exact fun hsame => hne (Value.text_sameAs_iff.mp hsame).symm

/-- What is found in a request for a page, whatever the order of its entries. -/
theorem Entries.get?_ofPage {page limit skip : Int} {d : Entries} (hd : d.Perm (ofPage page limit skip)) :
    d.get? "page" = some (.int page) ∧ d.get? "limit" = some (.int limit) ∧ d.get? "skip" = some (.int skip) ∧
      ∀ name ∉ ["page", "limit", "skip"], d.get? name = none := by
  have hkeys : d.keys.Perm (["page", "limit", "skip"].map .text) := hd.map Prod.fst
  have hdistinct : d.DistinctKeys := distinctKeys_of_texts _ (by decide) hkeys
  have hget : ∀ name v, (.text name, v) ∈ ofPage page limit skip → d.get? name = some v := fun name v hm =>
    get?_of_mem hdistinct (hd.mem_iff.mpr hm)
  refine ⟨hget _ _ ?_, hget _ _ ?_, hget _ _ ?_, fun name hname => get?_eq_none_of_not_mem fun hkey => hname ?_⟩
  · simp [ofPage]
  · simp [ofPage]
  · simp [ofPage]
  · obtain ⟨name', hname', heq⟩ := List.mem_map.mp (hkeys.mem_iff.mp hkey)
    cases heq
    exact hname'

/-! ### Fields of integers -/

theorem Rule.keeps_none {o : Options} {rule : Rule} (hopt : rule.required = false) (hdef : rule.default.isNull = true) :
    rule.Keeps o none :=
  ⟨fun _ => ⟨hopt, hdef⟩, fun _ hv => nomatch hv⟩

open Catalogue in
/-- An integer within the bounds of its field has nothing about it to be changed. -/
theorem Rule.keeps_int {o : Options} (least most : Option Int) {name : String} {default : Value} {n : Int}
    (hlow : ∀ low ∈ least, low ≤ n) (hhigh : ∀ high ∈ most, n ≤ high) :
    (defaulting name [plain (.integer (least.map .int) (most.map .int))] default).Keeps o (some (.int n)) := by
  refine ⟨(fun hv => nomatch hv), fun v hv _ => ?_⟩
  cases hv
  exact Check.chain_singleton_passed_iff.mpr
    (Check.passes_test_self ((Test.accepts_integer_iff least most).mpr ⟨n, rfl, hlow, hhigh⟩))

namespace Schema

variable {o : Options} {s : Schema} {d r : Entries}

/-- What is recorded in a field of integers is an integer within the bounds. -/
theorem exists_int_validated (least most : Option Int) (hs : s.everywhere isSteady = true)
    (h : s.validate o (.record d) = .ok (.valid r)) {name : String} {default : Value}
    (hrule : Catalogue.defaulting name [Catalogue.plain (.integer (least.map .int) (most.map .int))] default ∈ s.rules)
    {v : Value} (hv : r.get? name = some v) (hn : v ≠ .null) :
    ∃ n, v = .int n ∧ (∀ low ∈ least, low ≤ n) ∧ ∀ high ∈ most, n ≤ high := by
  have hchain := (keeps_validated hs h hrule rfl).checked v hv hn
  exact (Test.accepts_integer_iff least most).mp (Check.chain_singleton_passed_iff.mp hchain).accepts

/-- A field with a default has a value in every validated record. -/
theorem exists_validated_of_default (hs : s.everywhere isSteady = true)
    (h : s.validate o (.record d) = .ok (.valid r)) {name : String} {checks : List Check} {default : Value}
    (hrule : Catalogue.defaulting name checks default ∈ s.rules) (hdef : default ≠ .null) :
    ∃ v, r.get? name = some v ∧ v ≠ .null := by
  have hkeeps := keeps_validated hs h hrule rfl
  have hvalue : r.getD name ≠ .null := fun hv => hdef (Value.isNull_iff.mp (hkeeps.missing hv).2)
  obtain ⟨v, hv, -, hn⟩ := Entries.exists_of_getD_ne_null hvalue
  exact ⟨v, hv, hn⟩

open Catalogue in
/-- Where the rules of a page are in force, every validated record asks for a page that there may
be. -/
theorem isPaged_validated (hs : s.everywhere isSteady = true) (hpage : ∀ rule ∈ pagination.rules, rule ∈ s.rules)
    (h : s.validate o (.record d) = .ok (.valid r)) : r.IsPaged := by
  simp only [pagination, List.forall_mem_cons] at hpage
  obtain ⟨hpage, hlimit, hskip, -⟩ := hpage
  refine ⟨?_, ?_, fun v hv hn => ?_⟩
  · obtain ⟨v, hv, hn⟩ := exists_validated_of_default hs h hpage nofun
    obtain ⟨n, rfl, hlow, -⟩ := exists_int_validated (some 1) none hs h hpage hv hn
    exact ⟨n, hv, hlow 1 rfl⟩
  · obtain ⟨v, hv, hn⟩ := exists_validated_of_default hs h hlimit nofun
    obtain ⟨n, rfl, hlow, hhigh⟩ := exists_int_validated (some 1) (some 100) hs h hlimit hv hn
    exact ⟨n, hv, hlow 1 rfl, hhigh 100 rfl⟩
  · obtain ⟨n, rfl, hlow, -⟩ := exists_int_validated (some 0) none hs h hskip hv hn
    exact ⟨n, rfl, hlow 0 rfl⟩

end Schema

namespace Catalogue

/-- Filters under names of their own leave the rules of a page as they are. -/
theorem rules_listing {filters : List Rule} (h : ((pagination.rules ++ filters).map (·.name)).Nodup) (name : String) :
    (listing name filters).rules = pagination.rules ++ filters := by
  have hpage : mergeRules [] pagination.rules = pagination.rules := mergeRules_of_nodup (by decide)
  have hrules : (listing name filters).rules = mergeRules (mergeRules [] pagination.rules) filters := rfl
  rw [hrules, hpage, mergeRules_of_nodup h]

theorem lists_eq : lists = [
    listAcademicYears, listTerms, listGrades, listEnrollments, listEnrollmentDetails, listClassrooms,
    listDegreePrograms, listStudyPlans, listCourses, listPrerequisites, listCourseSections, listSchedules] := by
  rfl

theorem exists_listing_of_mem : ∀ s ∈ lists, ∃ name filters, s = listing name filters ∧
    ((pagination.rules ++ filters).map (·.name)).Nodup ∧
    (filters.all fun rule => !rule.required && rule.default.isNull) = true := by
  simp only [lists_eq, List.forall_mem_cons, List.not_mem_nil, false_imp_iff, implies_true, and_true]
  and_intros
  all_goals exact ⟨_, _, rfl, by decide, by decide⟩

theorem rules_of_mem : ∀ s ∈ pagination :: lists, ∃ filters, s.rules = pagination.rules ++ filters ∧
    (filters.all fun rule => !rule.required && rule.default.isNull) = true := by
  refine List.forall_mem_cons.mpr ⟨⟨[], (List.append_nil _).symm, rfl⟩, fun s hs => ?_⟩
  obtain ⟨name, filters, rfl, hd, hopt⟩ := exists_listing_of_mem s hs
  exact ⟨filters, rules_listing hd name, hopt⟩

section

variable {o : Options} {s : Schema} {filters : List Rule} {page limit skip : Int} {d : Entries}

theorem keeps_ofPage (hpage : 1 ≤ page) (hlimit : 1 ≤ limit) (hmost : limit ≤ 100) (hskip : 0 ≤ skip)
    (hd : d.Perm (Entries.ofPage page limit skip)) : ∀ rule ∈ pagination.rules, rule.Keeps o (d.get? rule.name) := by
  obtain ⟨hgetPage, hgetLimit, hgetSkip, -⟩ := Entries.get?_ofPage hd
  simp only [pagination, List.forall_mem_cons, defaulting, optional, hgetPage, hgetLimit, hgetSkip]
  refine ⟨?_, ?_, ?_, nofun⟩
  · exact Rule.keeps_int (some 1) none (by simpa using hpage) nofun
  · exact Rule.keeps_int (some 1) (some 100) (by simpa using hlimit) (by simpa using hmost)
  · exact Rule.keeps_int (some 0) none (by simpa using hskip) nofun

theorem fieldNames_of_rules (hr : s.rules = pagination.rules ++ filters) :
    s.fieldNames = ["page", "limit", "skip"] ++ filters.map (·.name) := by
  rw [Schema.fieldNames, hr, List.map_append]
  rfl

theorem declaredEntries_ofPage (hr : s.rules = pagination.rules ++ filters)
    (hnone : ∀ name ∈ filters.map (·.name), d.get? name = none) (hd : d.Perm (Entries.ofPage page limit skip)) :
    s.declaredEntries d = .ofPage page limit skip := by
  obtain ⟨hgetPage, hgetLimit, hgetSkip, -⟩ := Entries.get?_ofPage hd
  have hrest : (filters.map (·.name)).filterMap (fun name => (d.get? name).map fun v => (Value.text name, v)) = [] := by
    refine List.filterMap_eq_nil_iff.mpr fun name hname => ?_
    rw [hnone name hname]
    rfl
  rw [Schema.declaredEntries, fieldNames_of_rules hr, List.filterMap_append, hrest]
  simp [hgetPage, hgetLimit, hgetSkip, Entries.ofPage]

theorem strays_ofPage (hr : s.rules = pagination.rules ++ filters) (hd : d.Perm (Entries.ofPage page limit skip)) :
    strays s d = [] := by
  refine List.filter_eq_nil_iff.mpr fun e he => ?_
  have hm : e ∈ Entries.ofPage page limit skip := hd.mem_iff.mp he
  simp only [Entries.ofPage, List.mem_cons, List.not_mem_nil, or_false] at hm
  rcases hm with rfl | rfl | rfl <;> simp [Schema.declares, fieldNames_of_rules hr]

/-- A request for a page and nothing else is valid as it is, if there may be such a page. -/
theorem validate_ofPage (hr : s.rules = pagination.rules ++ filters)
    (hopt : (filters.all fun rule => !rule.required && rule.default.isNull) = true) (hs : s.fieldNames.Nodup)
    (hpage : 1 ≤ page) (hlimit : 1 ≤ limit) (hmost : limit ≤ 100) (hskip : 0 ≤ skip)
    (hd : d.Perm (Entries.ofPage page limit skip)) :
    s.validate o (.record d) = .ok (.valid (.ofPage page limit skip)) := by
  have hnone : ∀ name ∈ filters.map (·.name), d.get? name = none := fun name hname => by
    rw [fieldNames_of_rules hr] at hs
    exact (Entries.get?_ofPage hd).2.2.2 name fun hmem => List.disjoint_of_nodup_append hs hmem hname
  have hfilters : ∀ rule ∈ filters, rule.Keeps o (d.get? rule.name) := fun rule hrule => by
    have hrule' := List.all_eq_true.mp hopt rule hrule
    rw [Bool.and_eq_true, Bool.not_eq_true'] at hrule'
    rw [hnone rule.name (List.mem_map_of_mem hrule)]
    exact Rule.keeps_none hrule'.1 hrule'.2
  have hkeeps : ∀ rule ∈ s.rules, rule.Keeps o (d.get? rule.name) := by
    rw [hr, List.forall_mem_append]
    exact ⟨keeps_ofPage hpage hlimit hmost hskip hd, hfilters⟩
  have hvalid := Schema.validate_of_judged (fun rule hrule => (hkeeps rule hrule).judged)
    (unknownReport_eq_nil (strays_ofPage hr hd) o)
  rwa [declaredEntries_ofPage hr hnone hd, strays_ofPage hr hd, List.append_nil] at hvalid

end

/-- **Pages of lists.**  A validated request for a list asks for a page that there may be, whatever
was sent; and every such page can be asked for by itself, under every schema of a list and all
options. -/
theorem validate_page {s : Schema} (hs : s = pagination ∨ s ∈ lists) (o : Options) :
    (∀ d r, s.validate o (.record d) = .ok (.valid r) → r.IsPaged) ∧
    ∀ page limit skip : Int, 1 ≤ page → 1 ≤ limit → limit ≤ 100 → 0 ≤ skip →
      ∀ d, d.Perm (Entries.ofPage page limit skip) →
        s.validate o (.record d) = .ok (.valid (.ofPage page limit skip)) := by
  have hm : s ∈ pagination :: lists := List.mem_cons.mpr hs
  have hsteady := isSteady_of_mem s (mem_of_mem_lists hm)
  obtain ⟨filters, hr, hopt⟩ := rules_of_mem s hm
  refine ⟨fun d r h => ?_, fun page limit skip hpage hlimit hmost hskip d hd => ?_⟩
  · refine Schema.isPaged_validated hsteady (fun rule hrule => ?_) h
    rw [hr]
    exact List.mem_append_left _ hrule
  · exact validate_ofPage hr hopt (Schema.nodup_of_everywhere hsteady) hpage hlimit hmost hskip hd

/-- A request for schedules with a page in other digits than usual, and no size. -/
def scheduleRequest : Entries := [
  (.text "weekday", .text "Monday"),
  (.text "page", .text " +٣ "),
  (.text "skip", .null),
  (.text "limit", .null)]

def validatedScheduleRequest : Entries := [
  (.text "page", .int 3),
  (.text "limit", .int 10),
  (.text "skip", .null),
  (.text "weekday", .text "Monday")]

theorem validate_page_schedules :
    listSchedules ∈ lists ∧
    listSchedules.validate ⟨true, true⟩ (.record scheduleRequest) = .ok (.valid validatedScheduleRequest) ∧
    validatedScheduleRequest.IsPaged ∧
    listSchedules.validate ⟨true, true⟩
        (.record [(.text "limit", .int 100), (.text "skip", .int 0), (.text "page", .int (10 ^ 30))]) =
      .ok (.valid [(.text "page", .int (10 ^ 30)), (.text "limit", .int 100), (.text "skip", .int 0)]) := by
  have hmem : listSchedules ∈ lists := by simp [lists_eq]
  have hvalid : listSchedules.validate ⟨true, true⟩ (.record scheduleRequest) =
      .ok (.valid validatedScheduleRequest) := by rfl
  obtain ⟨hpaged, hpages⟩ := validate_page (.inr hmem) ⟨true, true⟩
  refine ⟨hmem, hvalid, hpaged _ _ hvalid, ?_⟩
  refine hpages (10 ^ 30) 100 0 (by decide) (by decide) (by decide) (by decide) _ ?_
  exact List.perm_append_singleton (Value.text "page", Value.int (10 ^ 30))
    [(.text "limit", .int 100), (.text "skip", .int 0)]

end Catalogue

end Intake
