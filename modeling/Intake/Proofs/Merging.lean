import Mathlib.Data.List.Induction
import Mathlib.Data.List.Nodup
import Intake.Catalogue.User
import Intake.Definition

/-!
# Proofs — Merging — the algebra of schemas

To merge rules is to keep one rule for each name, the last one, in the place of the first
(`Rule.onePerName_eq`).  So a merge depends on nothing but the order in which names come up first
and on the last rule of each name (`Rule.Agree`), and neither of these is changed by a merge of some
of the rules beforehand.

All laws follow from this one: merging is associative (`mergeRules_assoc`), the rules of a
composition are the merged rules of all its parts (`Schema.rules_compose`), so that compositions
within compositions flatten, and what is done to rules without a change of their names can be done
before or after (`Rule.onePerName_map`).  A merge has no two rules of one name, so every composition
is a schema (`Schema.define_of_nodup`).  `Schema.composition_laws` collects the laws.
-/

namespace Intake

/-! ### First occurrences -/

section

variable {α : Type} [DecidableEq α]

theorem eraseDups_concat (l : List α) (a : α) :
    (l ++ [a]).eraseDups = if a ∈ l then l.eraseDups else l.eraseDups ++ [a] := by
  rw [List.eraseDups_append]
  by_cases ha : a ∈ l <;> simp [List.removeAll, ha, List.eraseDups_cons]

theorem eraseDups_filter (p : α → Bool) (l : List α) : (l.filter p).eraseDups = l.eraseDups.filter p := by
  induction l using List.reverseRecOn with
  | nil => rfl
  | append_singleton l a ih =>
      rw [List.filter_append, eraseDups_concat]
      cases hp : p a with
      | false =>
          rw [List.filter_singleton, hp]
          split <;> simp [ih, hp]
      | true =>
          rw [List.filter_singleton, hp, cond_true, eraseDups_concat, ih]
          by_cases ha : a ∈ l <;> simp [ha, hp]

theorem eraseDups_eraseDups (l : List α) : l.eraseDups.eraseDups = l.eraseDups := by
  induction l using List.reverseRecOn with
  | nil => rfl
  | append_singleton l a ih =>
      rw [eraseDups_concat]
      by_cases ha : a ∈ l
      · rw [if_pos ha, ih]
      · rw [if_neg ha, eraseDups_concat, if_neg (mt List.mem_eraseDups.mp ha), ih]

theorem eraseDups_append_congr {l l' m m' : List α} (hl : l.eraseDups = l'.eraseDups)
    (hm : m.eraseDups = m'.eraseDups) : (l ++ m).eraseDups = (l' ++ m').eraseDups := by
  have hmem (a : α) : l.elem a = l'.elem a := by
    rw [Bool.eq_iff_iff, List.elem_iff, List.elem_iff, ← List.mem_eraseDups, hl, List.mem_eraseDups]
  simp only [List.eraseDups_append, List.removeAll, hmem, eraseDups_filter, hl, hm]

end

/-! ### One rule for each name -/

namespace Rule

/-- Rules with one rule for each name: its last rule, in the place of its first. -/
def onePerName (rules : List Rule) : List Rule := rules.foldl putRule []

/-- The last rule of a name. -/
def last? (rules : List Rule) (name : String) : Option Rule := rules.reverse.find? (·.name == name)

theorem last?_append (rules more : List Rule) (name : String) :
    last? (rules ++ more) name = (last? more name).or (last? rules name) := by
  rw [last?, List.reverse_append, List.find?_append, last?, last?]

theorem last?_concat (rules : List Rule) (new : Rule) (name : String) :
    last? (rules ++ [new]) name = if new.name = name then some new else last? rules name := by
  rw [last?_append, last?, List.reverse_singleton, List.find?_singleton]
  by_cases h : new.name = name <;> simp [h]

theorem last?_eq_none_iff {rules : List Rule} {name : String} :
    last? rules name = none ↔ name ∉ rules.map (·.name) := by
  simp [last?]

/-- A rule is the last of its name where no other has the name. -/
theorem last?_eq_some_iff {rules : List Rule} (hd : (rules.map (·.name)).Nodup) {name : String} {rule : Rule} :
    last? rules name = some rule ↔ rule ∈ rules ∧ rule.name = name := by
  constructor
  · intro h
    exact ⟨List.mem_reverse.mp (List.mem_of_find?_eq_some h), by simpa using List.find?_some h⟩
  · rintro ⟨hrule, rfl⟩
    cases hl : last? rules rule.name with
    | none => exact absurd (List.mem_map_of_mem hrule) (last?_eq_none_iff.mp hl)
    | some other =>
        have hname : other.name = rule.name := by simpa using List.find?_some hl
        have hother := List.mem_reverse.mp (List.mem_of_find?_eq_some hl)
        rw [List.inj_on_of_nodup_map hd hother hrule hname]

end Rule

theorem names_putRule (rules : List Rule) (new : Rule) :
    (putRule rules new).map (·.name) =
      if new.name ∈ rules.map (·.name) then rules.map (·.name) else rules.map (·.name) ++ [new.name] := by
  induction rules with
  | nil => rfl
  | cons rule rules ih =>
      rw [putRule]
      by_cases h : rule.name = new.name
      · simp [h]
      · rw [if_neg h, List.map_cons, ih]
        by_cases hm : new.name ∈ rules.map (·.name) <;> simp [hm, Ne.symm h]

/-- A rule that is put takes the place of every rule of its name. -/
theorem mem_putRule {rules : List Rule} (hd : (rules.map (·.name)).Nodup) {new rule : Rule}
    (h : rule ∈ putRule rules new) : rule = new ∨ rule ∈ rules ∧ rule.name ≠ new.name := by
  induction rules with
  | nil => exact .inl (List.mem_singleton.mp h)
  | cons first rules ih =>
      rw [List.map_cons, List.nodup_cons] at hd
      rw [putRule] at h
      by_cases hfirst : first.name = new.name
      · rw [if_pos hfirst, List.mem_cons] at h
        refine h.imp_right fun hrule => ⟨List.mem_cons_of_mem _ hrule, fun hname => hd.1 ?_⟩
        exact hfirst.trans hname.symm ▸ List.mem_map_of_mem hrule
      · rw [if_neg hfirst, List.mem_cons] at h
        rcases h with rfl | h
        · exact .inr ⟨List.mem_cons_self .., hfirst⟩
        · exact (ih hd.2 h).imp_right fun ⟨hrule, hne⟩ => ⟨List.mem_cons_of_mem _ hrule, hne⟩

namespace Rule

theorem onePerName_concat (rules : List Rule) (new : Rule) :
    onePerName (rules ++ [new]) = putRule (onePerName rules) new := by
  rw [onePerName, List.foldl_concat, onePerName]

/-- Each name is in the place of its first rule. -/
theorem names_onePerName (rules : List Rule) :
    (onePerName rules).map (·.name) = (rules.map (·.name)).eraseDups := by
  induction rules using List.reverseRecOn with
  | nil => rfl
  | append_singleton rules new ih =>
      rw [onePerName_concat, names_putRule, List.map_append, List.map_singleton, eraseDups_concat, ih]
      simp only [List.mem_eraseDups]

theorem nodup_names_onePerName (rules : List Rule) : ((onePerName rules).map (·.name)).Nodup := by
  induction rules using List.reverseRecOn with
  | nil => exact .nil
  | append_singleton rules new ih =>
      rw [onePerName_concat, names_putRule]
      split
      · exact ih
      · rename_i hnew
        rw [← List.concat_eq_append]
        exact ih.concat hnew

/-- No rule is kept but the last of its name. -/
theorem last?_of_mem_onePerName {rules : List Rule} {rule : Rule} (h : rule ∈ onePerName rules) :
    last? rules rule.name = some rule := by
  induction rules using List.reverseRecOn generalizing rule with
  | nil => cases h
  | append_singleton rules new ih =>
      rw [onePerName_concat] at h
      rw [last?_concat]
      rcases mem_putRule (nodup_names_onePerName rules) h with rfl | ⟨hrule, hne⟩
      · rw [if_pos rfl]
      · rw [if_neg (Ne.symm hne), ih hrule]

/-- **First place, last rule.** -/
theorem onePerName_eq (rules : List Rule) :
    onePerName rules = (rules.map (·.name)).eraseDups.filterMap (last? rules) := by
  rw [← names_onePerName, List.filterMap_map]
  refine Eq.trans ?_ (List.filterMap_congr fun rule hrule => (last?_of_mem_onePerName hrule).symm)
  exact List.filterMap_some.symm

theorem last?_onePerName (rules : List Rule) (name : String) : last? (onePerName rules) name = last? rules name := by
  cases hl : last? (onePerName rules) name with
  | none =>
      rw [last?_eq_none_iff, names_onePerName, List.mem_eraseDups] at hl
      exact (last?_eq_none_iff.mpr hl).symm
  | some rule =>
      obtain ⟨hrule, rfl⟩ := (last?_eq_some_iff (nodup_names_onePerName rules)).mp hl
      exact (last?_of_mem_onePerName hrule).symm

/-- Names come up first in the same order in two lists of rules, and have the same last rules. -/
structure Agree (rules rules' : List Rule) : Prop where
  names : (rules.map (·.name)).eraseDups = (rules'.map (·.name)).eraseDups
  last  : ∀ name, last? rules name = last? rules' name

theorem Agree.refl (rules : List Rule) : Agree rules rules := ⟨rfl, fun _ => rfl⟩

theorem agree_onePerName (rules : List Rule) : Agree (onePerName rules) rules where
  names := by rw [names_onePerName, eraseDups_eraseDups]
  last := last?_onePerName rules

theorem Agree.append {rules rules' more more' : List Rule} (h : Agree rules rules') (hm : Agree more more') :
    Agree (rules ++ more) (rules' ++ more') where
  names := by
    rw [List.map_append, List.map_append]
    exact eraseDups_append_congr h.names hm.names
  last name := by rw [last?_append, last?_append, h.last, hm.last]

theorem Agree.onePerName_eq {rules rules' : List Rule} (h : Agree rules rules') :
    onePerName rules = onePerName rules' := by
  rw [Rule.onePerName_eq, Rule.onePerName_eq, h.names, funext h.last]

end Rule

/-! ### Merging -/

theorem mergeRules_eq (base overrides : List Rule) :
    mergeRules base overrides = Rule.onePerName (base ++ overrides) := by
  rw [mergeRules, Rule.onePerName, List.foldl_append]

/-- **Merging is associative.** -/
theorem mergeRules_assoc (a b c : List Rule) :
    mergeRules (mergeRules a b) c = mergeRules a (mergeRules b c) := by
  have hleft := (Rule.agree_onePerName (a ++ b)).append (.refl c)
  have hright := (Rule.Agree.refl a).append (Rule.agree_onePerName (b ++ c))
  simp only [mergeRules_eq, hleft.onePerName_eq, hright.onePerName_eq, List.append_assoc]

theorem putRule_map {f : Rule → Rule} (hf : ∀ rule, (f rule).name = rule.name) (rules : List Rule) (new : Rule) :
    putRule (rules.map f) (f new) = (putRule rules new).map f := by
  induction rules with
  | nil => rfl
  | cons rule rules ih =>
      rw [List.map_cons, putRule, putRule, hf, hf, ih]
      split <;> rfl

/-- What leaves names alone can be done before a merge or after it. -/
theorem Rule.onePerName_map {f : Rule → Rule} (hf : ∀ rule, (f rule).name = rule.name) (rules : List Rule) :
    onePerName (rules.map f) = (onePerName rules).map f := by
  have hhom : rules.foldl (fun rules rule => putRule rules (f rule)) (List.map f []) =
      (rules.foldl putRule []).map f := List.foldl_hom (List.map f) (putRule_map hf)
  rw [onePerName, List.foldl_map]
  exact hhom

/-! ### Rules of different names -/

theorem putRule_of_not_mem {rules : List Rule} {new : Rule} (h : new.name ∉ rules.map (·.name)) :
    putRule rules new = rules ++ [new] := by
  induction rules with
  | nil => rfl
  | cons rule rules ih =>
      rw [List.map_cons, List.mem_cons, not_or] at h
      rw [putRule, if_neg (Ne.symm h.1), ih h.2, List.cons_append]

theorem Rule.onePerName_of_nodup {rules : List Rule} (h : (rules.map (·.name)).Nodup) : onePerName rules = rules := by
  induction rules using List.reverseRecOn with
  | nil => rfl
  | append_singleton rules new ih =>
      rw [List.map_append, List.map_singleton, List.nodup_append_comm, List.singleton_append, List.nodup_cons] at h
      rw [onePerName_concat, ih h.2, putRule_of_not_mem h.1]

/-- Where no name occurs twice, merging is to put one list behind the other. -/
theorem mergeRules_of_nodup {base overrides : List Rule} (h : ((base ++ overrides).map (·.name)).Nodup) :
    mergeRules base overrides = base ++ overrides := by
  rw [mergeRules_eq, Rule.onePerName_of_nodup h]

/-! ### Definitions that are accepted -/

theorem Rule.collect_of_nodup {schema : String} {seen : List String} {rules : List Rule}
    (hd : (rules.map (·.name)).Nodup) (hs : ∀ name ∈ rules.map (·.name), name ∉ seen) :
    Rule.collect schema seen (rules.map .inl) = .ok rules := by
  induction rules generalizing seen with
  | nil => rfl
  | cons rule rules ih =>
      rw [List.map_cons, List.nodup_cons] at hd
      rw [List.map_cons, List.forall_mem_cons] at hs
      have hrest : ∀ name ∈ rules.map (·.name), name ∉ rule.name :: seen := fun name hname => by
        rw [List.mem_cons, not_or]
        exact ⟨fun heq => hd.1 (heq ▸ hname), hs.2 name hname⟩
      rw [List.map_cons, Rule.collect, if_neg (by simpa using hs.1), ih hd.2 hrest]
      rfl

namespace Schema

/-- Rules without two of one name make a schema. -/
theorem define_of_nodup {name : String} {rules : List Rule} (hd : (rules.map (·.name)).Nodup) :
    define name (rules.map .inl) = .ok ⟨name, rules⟩ := by
  rw [define, Rule.collect_of_nodup hd fun _ _ => List.not_mem_nil]
  rfl

/-! ### Compositions -/

/-- The rules of a composition are the merged rules of all its parts. -/
theorem rules_compose (name : String) (parts : List Schema) :
    (compose name parts).rules = Rule.onePerName (parts.flatMap (·.rules)) := by
  -- rules that are merged with further parts come to what all of them together come to
  have hfrom (rules : List Rule) : parts.foldl (fun rules part => mergeRules rules part.rules)
      (Rule.onePerName rules) = Rule.onePerName (rules ++ parts.flatMap (·.rules)) := by
    induction parts generalizing rules with
    | nil => rw [List.foldl_nil, List.flatMap_nil, List.append_nil]
    | cons part parts ih =>
        have hmerge := ((Rule.agree_onePerName rules).append (.refl part.rules)).onePerName_eq
        rw [List.foldl_cons, mergeRules_eq, hmerge, ih, List.flatMap_cons, List.append_assoc]
  exact hfrom []

theorem rules_compose_run (name inner : String) (before run after : List Schema) :
    (compose name (before ++ [compose inner run] ++ after)).rules = (compose name (before ++ run ++ after)).rules := by
  have hrun := ((Rule.Agree.refl (before.flatMap (·.rules))).append
    (Rule.agree_onePerName (run.flatMap (·.rules)))).append (.refl (after.flatMap (·.rules)))
  simp only [rules_compose, List.flatMap_append, List.flatMap_singleton, hrun.onePerName_eq]

theorem rules_withIdentifier (s : Schema) (identifier : Rule) (name : Option String) (other part : String) :
    (s.withIdentifier identifier name).rules = (compose other [s, ⟨part, [identifier]⟩]).rules := by
  rw [withIdentifier, mergeRules_eq, rules_compose]
  simp

/-- The partial schema of a composition is the composition of the partial schemas. -/
theorem derivePartial_compose {name : String} (hname : name ≠ "") (other : String) (parts : List Schema) :
    (compose other parts).derivePartial (some name) = compose name (parts.map (·.derivePartial none)) :=
  calc (compose other parts).derivePartial (some name)
      = ⟨name, (compose other parts).rules.map (·.asOptional)⟩ := by simp [derivePartial, nameOr, hname]
    _ = ⟨name, Rule.onePerName ((parts.flatMap (·.rules)).map (·.asOptional))⟩ := by
        rw [rules_compose, Rule.onePerName_map (f := Rule.asOptional) fun _ => rfl]
    _ = ⟨name, Rule.onePerName ((parts.map (·.derivePartial none)).flatMap (·.rules))⟩ := by
        rw [List.map_flatMap, List.flatMap_map]
        rfl
    _ = compose name (parts.map (·.derivePartial none)) := by
        rw [← rules_compose name]
        rfl

/-- **The laws of composition.**  A merge has one rule for each name, in the place of the first rule
of this name and equal to the last; merging is associative; every composition is a schema, and a
composition in the place of its parts makes no difference; an identifier is one more part; and to
relax a composition is to compose what has been relaxed. -/
theorem composition_laws :
    (∀ a b : List Rule, (mergeRules a b).map (·.name) = ((a ++ b).map (·.name)).eraseDups ∧
      ∀ rule ∈ mergeRules a b, Rule.last? (a ++ b) rule.name = some rule) ∧
    (∀ a b c : List Rule, mergeRules (mergeRules a b) c = mergeRules a (mergeRules b c)) ∧
    (∀ name parts, define name ((compose name parts).rules.map .inl) = .ok (compose name parts)) ∧
    (∀ name inner before run after,
      (compose name (before ++ [compose inner run] ++ after)).rules = (compose name (before ++ run ++ after)).rules) ∧
    (∀ (s : Schema) identifier name other part,
      (s.withIdentifier identifier name).rules = (compose other [s, ⟨part, [identifier]⟩]).rules) ∧
    ∀ name, name ≠ "" → ∀ other parts,
      (compose other parts).derivePartial (some name) = compose name (parts.map (·.derivePartial none)) := by
  refine ⟨fun a b => ?_, mergeRules_assoc, fun name parts => ?_, rules_compose_run, rules_withIdentifier,
    fun name hname => derivePartial_compose hname⟩
  · rw [mergeRules_eq]
    exact ⟨Rule.names_onePerName _, fun rule => Rule.last?_of_mem_onePerName⟩
  · refine define_of_nodup ?_
    rw [rules_compose]
    exact Rule.nodup_names_onePerName _

/-- A room may be asked for, and has to be for a weekday. -/
def roomRules : List Rule := [
  Catalogue.optional "room" [Catalogue.string],
  Catalogue.optional "weekday" [Catalogue.string],
  Catalogue.optional "room" [Catalogue.maxLength 9]]

def roomForWeekday : Rule := Catalogue.onlyIf (.present "weekday") (Catalogue.required "room" [Catalogue.uuid])

theorem composition_laws_user :
    (mergeRules roomRules [roomForWeekday]).map (·.name) = ["room", "weekday"] ∧
    roomForWeekday ∈ mergeRules roomRules [roomForWeekday] ∧
    Rule.last? (roomRules ++ [roomForWeekday]) "room" = some roomForWeekday ∧
    "UserPatch" ≠ "" ∧
    (compose "User" [Catalogue.createUser, Catalogue.userProfile]).derivePartial (some "UserPatch") =
      compose "UserPatch" [Catalogue.createUser.derivePartial none, Catalogue.userProfile.derivePartial none] := by
  obtain ⟨hmerge, -, -, -, -, hpartial⟩ := composition_laws
  have hmem : roomForWeekday ∈ mergeRules roomRules [roomForWeekday] := List.mem_cons_self ..
  have hname : "UserPatch" ≠ "" := by decide
  exact ⟨by decide, hmem, (hmerge roomRules [roomForWeekday]).2 _ hmem, hname,
    hpartial "UserPatch" hname "User" [Catalogue.createUser, Catalogue.userProfile]⟩

end Schema

end Intake
