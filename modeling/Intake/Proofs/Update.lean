import Intake.Proofs.Arrangement
import Intake.Proofs.Independence
import Intake.Proofs.Lasting
import Intake.Proofs.Patch

/-!
# Proofs — Update — valid updates of valid records

A schema *updates* another if each rule of the other is vouched for by one of its own
(`Rule.VouchesFor`): a rule for the same field under the same condition, which fills nothing in and
whose checks pass only what the checks of the other rule pass as it is.  The partial schema is of
this kind, with the rule of an identifier or without.

A valid update then overrides a valid record.  Every value in the patched record comes from one of
the two, and a rule that applied there has nothing to change about it (`Schema.keeps_patchedBy`).
So the patched record is valid exactly if nothing is reported by the rules that apply to it and did
not apply where the value of their field comes from (`Schema.exists_valid_patchedBy_iff`); and if
there are no such rules, as under a schema without conditions, it is valid as it is
(`Schema.validate_patchedBy`).
-/

namespace Intake

open Validation

/-! ### One rule -/

/-- A rule that lets nothing through but what another rule, for the same field, leaves as it is. -/
structure Rule.VouchesFor (o : Options) (rule' rule : Rule) : Prop where
  name_eq      : rule'.name = rule.name
  condition_eq : rule'.condition = rule.condition
  default_null : rule'.default.isNull = true
  passes : ∀ v w, Check.chain o rule.name rule'.checks v = .ok (.passed w) →
    Check.chain o rule.name rule.checks w = .ok (.passed w)

/-- Whether the rule applied where the value of its field comes from, which is the update if there
is one in it and the record otherwise. -/
def Rule.hasSeen (rule : Rule) (d u : Entries) : Bool :=
  if (u.getD rule.name).isNull then rule.appliesTo d else rule.appliesTo u

variable {o : Options} {d u : Entries}

namespace Rule

theorem asOptional_vouchesFor {rule : Rule} (ho : rule.isOrderly = true)
    (hs : ∀ c ∈ rule.checks, c.Settled o) : rule.asOptional.VouchesFor o rule where
  name_eq := rfl
  condition_eq := rfl
  default_null := rfl
  passes _ _ h := Check.chain_passed_again hs (rule.pairwise_undisturbed ho o) h

theorem VouchesFor.appliesTo_eq {rule rule' : Rule} (h : rule'.VouchesFor o rule) (r : Entries) :
    rule'.appliesTo r = rule.appliesTo r := by
  unfold Rule.appliesTo
  rw [h.condition_eq]

/-- A field that an update leaves open stays so. -/
theorem Settles.getD_eq_null {rule : Rule} {r : Entries} (h : rule.Settles o u r)
    (hd : rule.default.isNull = true) (hv : u.getD rule.name = .null) : r.getD rule.name = .null := by
  have hr : r.get? rule.name = u.get? rule.name := by
    cases ha : rule.appliesTo u with
    | false => exact h.skipped ha
    | true => rw [h.missing ha hv, if_pos hd]
  unfold Entries.getD at hv ⊢
  rw [hr]
  exact hv

/-- What an update says of a field, a rule that is vouched for has nothing to change about. -/
theorem VouchesFor.keeps {rule rule' : Rule} (h : rule'.VouchesFor o rule) {r : Entries}
    (hs : rule'.Settles o u r) (ha : rule.appliesTo u = true) (hv : u.getD rule.name ≠ .null) :
    ∃ w, r.get? rule.name = some w ∧ w ≠ .null ∧ rule.Keeps o (some w) := by
  obtain ⟨v, hg, -, hn⟩ := Entries.exists_of_getD_ne_null hv
  rw [← h.name_eq] at hg
  obtain ⟨w, hw, hl⟩ := hs.checked ((h.appliesTo_eq u).trans ha) v hg hn
  rw [h.name_eq] at hw hl
  have hc := Check.chain_passed_iff_leads.mpr hl
  have hnull := Check.chain_ne_null hc hn
  refine ⟨w, hw, hnull, fun he => absurd he hnull, fun x hx _ => ?_⟩
  cases hx
  exact h.passes v w hc

end Rule

namespace Schema

variable {s t : Schema} {r p : Entries} {except : List String}

/-! ### A record that every rule leaves as it is -/

theorem validate_of_judged
    (h : ∀ rule ∈ s.rules, rule.Judged o r { name := rule.name, value := r.get? rule.name })
    (hu : unknownReport o s r = .ok []) :
    s.validate o (.record r) = .ok (.valid (s.declaredEntries r ++ strays s r)) := by
  refine validate_record_eq_valid_iff.mpr
    ⟨s.rules.map fun rule => { name := rule.name, value := r.get? rule.name }, ?_, ?_, hu, ?_⟩
  · unfold Rule.AllJudged
    rw [List.forall₂_map_right_iff, List.forall₂_same]
    exact h
  · intro part hpart
    obtain ⟨rule, -, rfl⟩ := List.mem_map.mp hpart
    rfl
  · simp only [declaredEntries, recorded, fieldNames, List.filterMap_map]
    rfl

theorem settled_of_everywhere (hs : s.everywhere isSteady = true) {rule : Rule} (hrule : rule ∈ s.rules) :
    ∀ c ∈ rule.checks, c.Settled o := by
  obtain ⟨-, hnest⟩ := everywhere_iff.mp hs
  intro c hc
  refine Check.settled_of_nested (forall_nested_of_rule (fun n hn => ?_) hrule c hc)
  exact lasting_of_isSteady o (hnest n hn)

theorem nodup_of_everywhere (hs : s.everywhere isSteady = true) : s.fieldNames.Nodup :=
  (isSteady_iff.mp (everywhere_iff.mp hs).1).1

theorem asOptional_vouchesFor (hs : s.everywhere isSteady = true) {rule : Rule} (hrule : rule ∈ s.rules) :
    rule.asOptional.VouchesFor o rule := by
  obtain ⟨-, hrules⟩ := isSteady_iff.mp (everywhere_iff.mp hs).1
  exact Rule.asOptional_vouchesFor (hrules rule hrule).1 (settled_of_everywhere hs hrule)

/-- A rule that applied has nothing to change about the field of a validated record. -/
theorem keeps_validated (hs : s.everywhere isSteady = true)
    (h : s.validate o (.record d) = .ok (.valid r)) {rule : Rule} (hrule : rule ∈ s.rules)
    (ha : rule.appliesTo d = true) : rule.Keeps o (r.get? rule.name) := by
  obtain ⟨hnames, hrules⟩ := isSteady_iff.mp (everywhere_iff.mp hs).1
  obtain ⟨ho, hdef, -⟩ := hrules rule hrule
  obtain ⟨parts, hp, hn, -, rfl⟩ := validate_record_eq_valid_iff.mp h
  obtain ⟨part, hpart, hj⟩ := hp.exists_of_mem hrule
  rw [← hj.name_eq, hp.get?_of_mem hnames hpart]
  exact hj.keeps (hn part hpart) ha hdef ho (settled_of_everywhere hs hrule)

theorem get?_validated_of_keepsField (hnames : s.fieldNames.Nodup)
    (h : s.validate o (.record d) = .ok (.valid r)) {c : Condition} (hc : s.keepsField c = true)
    {name : String} (hname : c.field? = some name) : r.get? name = d.get? name := by
  obtain ⟨parts, hp, hn, -, rfl⟩ := validate_record_eq_valid_iff.mp h
  obtain ⟨name', hname', hverb⟩ := keepsField_iff.mp hc
  obtain rfl : name' = name := Option.some.inj (hname'.symm.trans hname)
  exact hp.get?_eq_of_isVerbatim hn hnames hverb

/-- Where entries that are not declared are forbidden, a validated record has none. -/
theorem declares_of_forbidden (ho : o.forbidUnknown = true) (h : s.validate o (.record d) = .ok (.valid r))
    {k : Value} (hk : k ∈ r.keys) : s.declares k = true := by
  obtain ⟨front, rfl, hfront⟩ := keys_validated h
  obtain ⟨-, -, -, hu, -⟩ := validate_record_eq_valid_iff.mp h
  have hnone : strays s d = [] := by
    rw [← kept_eq_strays hu, kept, if_pos ho]
  rw [hnone, List.append_nil] at hk
  exact declares_of_mem_keys hfront hk

/-! ### A patched record -/

/-- What is valid under a schema may override what is valid under another, except under some
names. -/
structure Updates (o : Options) (t s : Schema) (except : List String) : Prop where
  vouched  : ∀ rule ∈ s.rules, ∃ rule' ∈ t.rules, rule'.VouchesFor o rule
  declared : ∀ name ∈ t.fieldNames, name ∈ s.fieldNames ∨ name ∈ except
  apart    : ∀ name ∈ s.fieldNames, name ∉ except
  distinct : t.fieldNames.Nodup

theorem unknownReport_patchedBy (ht : t.Updates o s except) (hr : s.validate o (.record d) = .ok (.valid r))
    (hp : t.validate o (.record u) = .ok (.valid p)) :
    unknownReport o s (r.patchedBy p except) = .ok [] := by
  cases ho : o.forbidUnknown with
  | false => simp [unknownReport, ho]
  | true =>
      refine unknownReport_eq_nil (List.filter_eq_nil_iff.mpr fun e he => ?_) o
      have hdeclared : s.declares e.1 = true := by
        rcases Entries.mem_keys_patchedBy (List.mem_map_of_mem he) with hk | ⟨hk, hexcept⟩
        · exact declares_of_forbidden ho hr hk
        · obtain ⟨name, hname, hkey⟩ := exists_name_of_declares (declares_of_forbidden ho hp hk)
          rw [hkey, declares_text]
          exact (ht.declared name hname).resolve_right fun hmem => hexcept name hmem hkey
      simp [hdeclared]

section

variable (hs : s.everywhere isSteady = true) (ht : t.Updates o s except) (hu : u.DistinctKeys)
  (hr : s.validate o (.record d) = .ok (.valid r)) (hp : t.validate o (.record u) = .ok (.valid p))

include hs ht hu hr hp

/-- A rule that has seen the value of its field has nothing to change about it. -/
theorem keeps_patchedBy {rule : Rule} (hrule : rule ∈ s.rules) (hseen : rule.hasSeen d u = true) :
    rule.Keeps o ((r.patchedBy p except).get? rule.name) := by
  have hpatch : p.DistinctKeys := distinctKeys_validated ht.distinct hu hp
  have hname : rule.name ∉ except := ht.apart _ (List.mem_map_of_mem hrule)
  obtain ⟨rule', hrule', hv⟩ := ht.vouched rule hrule
  have hsettles := settles_of_mem ht.distinct hp hrule'
  unfold Rule.hasSeen at hseen
  by_cases hnull : u.getD rule.name = .null
  · rw [hnull, Value.isNull_null, if_pos rfl] at hseen
    have hopen : p.getD rule.name = .null := by
      rw [← hv.name_eq] at hnull ⊢
      exact hsettles.getD_eq_null hv.default_null hnull
    rw [Entries.get?_patchedBy_of_null r hpatch hname hopen]
    exact keeps_validated hs hr hrule hseen
  · rw [if_neg (mt Value.isNull_iff.mp hnull)] at hseen
    obtain ⟨w, hw, hn, hkeeps⟩ := hv.keeps hsettles hseen hnull
    rw [Entries.get?_patchedBy_of_ne_null r hpatch hname hw hn]
    exact hkeeps

/-- A patched record is valid if the rules say so that have not seen the value of their field. -/
theorem exists_valid_patchedBy_iff :
    (∃ m, s.validate o (.record (r.patchedBy p except)) = .ok (.valid m)) ↔
      ∀ rule ∈ s.rules, rule.appliesTo (r.patchedBy p except) = true → rule.hasSeen d u = false →
        rule.report o (r.patchedBy p except) = .ok [] := by
  rw [exists_valid_iff]
  constructor
  · rintro ⟨hall, -⟩ rule hrule _ _
    exact hall rule hrule
  · intro hall
    refine ⟨fun rule hrule => ?_, unknownReport_patchedBy ht hr hp⟩
    cases ha : rule.appliesTo (r.patchedBy p except) with
    | false => exact Rule.report_of_not_appliesTo ha
    | true =>
        cases hseen : rule.hasSeen d u with
        | false => exact hall rule hrule ha hseen
        | true =>
            have hkeeps := keeps_patchedBy hs ht hu hr hp hrule hseen
            exact Rule.report_eq_ok_iff.mpr ⟨_, hkeeps.judged, rfl⟩

/-- A rule applies to a patched record as it did where the field comes from that its condition looks
at. -/
theorem appliesTo_patchedBy {rule : Rule} {c : Condition} (hcond : rule.condition = some c)
    (hc : s.keepsField c = true) (hc' : t.keepsField c = true) {name : String}
    (hname : c.field? = some name) (hexcept : name ∉ except) :
    rule.appliesTo (r.patchedBy p except) =
      if (u.getD name).isNull then rule.appliesTo d else rule.appliesTo u := by
  have hnames := nodup_of_everywhere hs
  have hpatch : p.DistinctKeys := distinctKeys_validated ht.distinct hu hp
  have hfield := get?_validated_of_keepsField hnames hr hc hname
  have hfield' := get?_validated_of_keepsField ht.distinct hp hc' hname
  simp only [Rule.appliesTo, hcond]
  by_cases hnull : u.getD name = .null
  · rw [hnull, Value.isNull_null, if_pos rfl]
    refine Condition.holds_congr hname ?_
    rw [Entries.get?_patchedBy_of_null r hpatch hexcept, hfield]
    rwa [Entries.getD, hfield']
  · rw [if_neg (mt Value.isNull_iff.mp hnull)]
    obtain ⟨v, hg, -, hn⟩ := Entries.exists_of_getD_ne_null hnull
    refine Condition.holds_congr hname ?_
    rw [Entries.get?_patchedBy_of_ne_null r hpatch hexcept (hfield'.trans hg) hn, hg]

/-- A patched record is valid as it is where every rule has seen the value of its field. -/
theorem validate_patchedBy (hd : d.DistinctKeys)
    (hseen : ∀ rule ∈ s.rules, rule.appliesTo (r.patchedBy p except) = true → rule.hasSeen d u = true) :
    ∃ m, s.validate o (.record (r.patchedBy p except)) = .ok (.valid m) ∧ m.DistinctKeys ∧
      m.Perm (r.patchedBy p except) := by
  have hnames := nodup_of_everywhere hs
  have hdistinct : (r.patchedBy p except).DistinctKeys :=
    (distinctKeys_validated hnames hd hr).overriddenBy _
  have hvalid := validate_of_judged (fun rule hrule => ?_) (unknownReport_patchedBy ht hr hp)
  · exact ⟨_, hvalid, distinctKeys_validated hnames hdistinct hvalid,
      perm_declaredEntries_append_strays hnames hdistinct⟩
  · cases ha : rule.appliesTo (r.patchedBy p except) with
    | false => exact .skipped ha
    | true => exact (keeps_patchedBy hs ht hu hr hp hrule (hseen rule hrule ha)).judged

end

end Schema

end Intake
