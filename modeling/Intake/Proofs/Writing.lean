import Mathlib.Algebra.Group.Nat.Defs
import Intake.Proofs.Remaking

/-!
# Proofs — Writing — what can be written

The one thing that makes writing a value fault is an integer of too many digits.  A value is
*writable* if no integer in it is too long, keys of records included, and so is a test if none of
its bounds is.

A computation that has an answer under a condition, and faults for nothing but an integer when the
condition does not hold, is said to be of the kind `AnswersIf`; sequences and traversals of such
computations are of this kind.  So the literal form of a value (`Value.literal_answersIf`), and a
test on a value (`Test.examine_answersIf`), which writes the value to compare it with words or to
count its places and writes a bound for its message.
-/

namespace Intake

/-- A computation that has an answer under a condition, and without it faults at most for an integer
that is too long to be written. -/
def AnswersIf {α : Type} (p : Prop) (x : Except Fault α) : Prop :=
  ∀ f, x = .error f → f = .integerTooLong ∧ ¬ p

namespace AnswersIf

variable {α β : Type} {p q : Prop} {x : Except Fault α}

theorem ok (a : α) : AnswersIf p (.ok a : Except Fault α) := nofun

theorem mono (h : AnswersIf p x) (hq : q → p) : AnswersIf q x := by
  intro f hf
  obtain ⟨he, hp⟩ := h f hf
  exact ⟨he, fun hq' => hp (hq hq')⟩

theorem bind {f : α → Except Fault β} (hx : AnswersIf p x) (hf : ∀ a, x = .ok a → AnswersIf p (f a)) :
    AnswersIf p (x >>= f) := by
  intro e he
  cases x with
  | error f =>
      cases he
      exact hx _ rfl
  | ok a => exact hf a rfl e he

theorem bind_pure (hx : AnswersIf p x) (f : α → β) : AnswersIf p (x >>= fun a => pure (f a)) :=
  hx.bind fun _ _ => .ok _

theorem mapM {f : α → Except Fault β} {xs : List α} (h : ∀ a ∈ xs, AnswersIf p (f a)) :
    AnswersIf p (xs.mapM f) := by
  induction xs with
  | nil => exact .ok []
  | cons a xs ih =>
      obtain ⟨ha, hxs⟩ := List.forall_mem_cons.mp h
      rw [List.mapM_cons]
      exact ha.bind fun b _ => (ih hxs).bind_pure _

theorem cases (h : AnswersIf p x) : (∃ a, x = .ok a) ∨ x = .error .integerTooLong ∧ ¬ p := by
  cases x with
  | ok a => exact .inl ⟨a, rfl⟩
  | error f =>
      obtain ⟨rfl, hp⟩ := h f rfl
      exact .inr ⟨rfl, hp⟩

end AnswersIf

/-! ### What can be written -/

namespace Number

/-- An integer of no more digits than are written. -/
def Integer.isWritable (n : Int) : Bool :=
  decide ((Nat.toDigits 10 n.natAbs).length ≤ maxNumeralDigits)

def isWritable : Number → Bool
  | .int n   => Integer.isWritable n
  | .float _ => true

theorem Integer.isWritable_iff {n : Int} : isWritable n = true ↔ n.natAbs < 10 ^ maxNumeralDigits := by
  rw [isWritable, decide_eq_true_eq]
  exact Nat.length_toDigits_le_iff (by decide) (by decide)

theorem Integer.write_answersIf (n : Int) : AnswersIf (isWritable n = true) (write n) := by
  unfold write isWritable
  split
  · exact .ok _
  · rename_i h
    intro f hf
    cases hf
    exact ⟨rfl, by simpa using h⟩

theorem Integer.write_of_isWritable {n : Int} (h : isWritable n = true) :
    write n = .ok (String.ofList (digits n)) := by
  rw [write, if_pos (of_decide_eq_true h)]

theorem Integer.write_of_not_isWritable {n : Int} (h : isWritable n = false) :
    write n = .error .integerTooLong := by
  rw [isWritable, decide_eq_false_iff_not] at h
  rw [write, if_neg h]

theorem write_answersIf (n : Number) : AnswersIf (n.isWritable = true) n.write := by
  cases n with
  | int n => exact Integer.write_answersIf n
  | float x => exact .ok _

theorem places_answersIf (n : Number) : AnswersIf (n.isWritable = true) n.places := by
  cases n with
  | int n => exact (Integer.write_answersIf n).bind_pure _
  | float x => cases x <;> exact .ok _

end Number

namespace Value

mutual

/-- A value in which no integer is too long, keys of records included. -/
def isWritable : Value → Bool
  | .int n     => Number.Integer.isWritable n
  | .list xs   => areWritable xs
  | .tuple xs  => areWritable xs
  | .record es => entriesWritable es
  | _          => true

def areWritable : List Value → Bool
  | []      => true
  | x :: xs => x.isWritable && areWritable xs

def entriesWritable : Entries → Bool
  | []             => true
  | (k, v) :: rest => k.isWritable && v.isWritable && entriesWritable rest

end

theorem areWritable_iff {xs : List Value} :
    areWritable xs = true ↔ ∀ x ∈ xs, x.isWritable = true := by
  induction xs with
  | nil => simp [areWritable]
  | cons x xs ih => simp [areWritable, ih]

theorem entriesWritable_iff {es : Entries} :
    entriesWritable es = true ↔ ∀ e ∈ es, e.1.isWritable = true ∧ e.2.isWritable = true := by
  induction es with
  | nil => simp [entriesWritable]
  | cons e es ih =>
      obtain ⟨k, v⟩ := e
      simp [entriesWritable, ih]

theorem isWritable_of_mem_items? {v x : Value} {items : List Value} (hv : v.isWritable = true)
    (hi : v.items? = some items) (hx : x ∈ items) : x.isWritable = true := by
  cases v with
  | list xs | tuple xs =>
      cases hi
      rw [isWritable, areWritable_iff] at hv
      exact hv x hx
  | _ => cases hi

theorem isWritable_of_get? {r : Entries} {name : String} {v : Value}
    (hr : (Value.record r).isWritable = true) (h : r.get? name = some v) : v.isWritable = true := by
  rw [isWritable] at hr
  induction r with
  | nil => cases h
  | cons e r ih =>
      obtain ⟨k, w⟩ := e
      simp only [entriesWritable, Bool.and_eq_true] at hr
      cases k with
      | text s =>
          simp only [Entries.get?] at h
          split at h
          · cases h
            exact hr.1.2
          · exact ih hr.2 h
      | _ => exact ih hr.2 h

/-! ### Writing values -/

mutual

theorem literal_answersIf : ∀ v : Value, AnswersIf (v.isWritable = true) v.literal
  | .null | .bool true | .bool false | .float _ | .text _ | .date _ | .moment _ => .ok _
  | .int n => Number.Integer.write_answersIf n
  | .list xs => by
      rw [literal]
      exact (literals_answersIf xs).bind_pure _
  | .tuple [] => .ok _
  | .tuple [x] => by
      rw [literal]
      refine ((literal_answersIf x).mono fun h => ?_).bind_pure _
      simpa [isWritable, areWritable] using h
  | .tuple (x :: y :: xs) => by
      simp only [literal]
      exact (literals_answersIf (x :: y :: xs)).bind_pure _
  | .record es => by
      rw [literal]
      exact (entryLiterals_answersIf es).bind_pure _

theorem literals_answersIf : ∀ xs : List Value, AnswersIf (areWritable xs = true) (literals xs)
  | [] => .ok _
  | x :: xs => by
      rw [literals, areWritable, Bool.and_eq_true]
      refine ((literal_answersIf x).mono And.left).bind fun s _ => ?_
      exact ((literals_answersIf xs).mono And.right).bind_pure _

theorem entryLiterals_answersIf :
    ∀ es : Entries, AnswersIf (entriesWritable es = true) (entryLiterals es)
  | [] => .ok _
  | (k, v) :: es => by
      rw [entryLiterals, entriesWritable, Bool.and_eq_true, Bool.and_eq_true]
      refine ((literal_answersIf k).mono fun h => h.1.1).bind fun key _ => ?_
      refine ((literal_answersIf v).mono fun h => h.1.2).bind fun value _ => ?_
      exact ((entryLiterals_answersIf es).mono And.right).bind_pure _

end

theorem display_answersIf (v : Value) : AnswersIf (v.isWritable = true) v.display := by
  cases v with
  | text | date | moment => exact .ok _
  | _ => exact literal_answersIf _

end Value

/-! ### Running tests -/

namespace Test

/-- A test that has not been left open. -/
def isSpecified : Test → Bool
  | .unspecified => false
  | _            => true

/-- A test in which no bound is too long. -/
def isWritable : Test → Bool
  | .integer least most       => least.all Number.isWritable && most.all Number.isWritable
  | .number least most places =>
    least.all Number.isWritable && most.all Number.isWritable && places.all Number.Integer.isWritable
  | .maxLength n | .minLength n => Number.Integer.isWritable n
  | .array minSize            => minSize.all Number.Integer.isWritable
  | _                         => true

theorem outOfBounds_answersIf (n : Number) (least most : Option Number) :
    AnswersIf (least.all Number.isWritable = true ∧ most.all Number.isWritable = true)
      (outOfBounds n least most) := by
  unfold outOfBounds
  split
  · rename_i low hlow
    obtain ⟨rfl, -⟩ := Option.filter_eq_some_iff.mp hlow
    exact ((Number.write_answersIf low).mono And.left).bind_pure _
  · rename_i high _ hhigh
    obtain ⟨rfl, -⟩ := Option.filter_eq_some_iff.mp hhigh
    exact ((Number.write_answersIf high).mono And.right).bind_pure _
  · exact .ok _

theorem tooManyPlaces_answersIf (t : Test) (n : Number) (places : Option Int) :
    AnswersIf (n.isWritable = true ∧ places.all Number.Integer.isWritable = true)
      (tooManyPlaces t n places) := by
  cases places with
  | none => exact .ok _
  | some p =>
      refine ((Number.places_answersIf n).mono And.left).bind fun k _ => ?_
      split
      · exact ((Number.Integer.write_answersIf p).mono And.right).bind_pure _
      · exact .ok _

theorem lengthTest_answersIf (t : Test) (v : Value) (n : Int) (condition : Int → Bool)
    (relation : String) :
    AnswersIf (Number.Integer.isWritable n = true) (lengthTest t v n condition relation) := by
  have hfailed : AnswersIf (Number.Integer.isWritable n = true) (lengthTest.failed t n relation) :=
    (Number.Integer.write_answersIf n).bind_pure _
  unfold lengthTest
  split
  · split
    · exact .ok _
    · exact hfailed
  · exact hfailed

/-- A test faults only over an integer in the value or among its own bounds. -/
theorem examine_answersIf {t : Test} (ht : t.isSpecified = true) (v : Value) :
    AnswersIf (t.isWritable = true ∧ v.isWritable = true) (t.examine v) := by
  cases t with
  | integer least most =>
      cases v with
      | int n =>
          refine (outOfBounds_answersIf (.int n) least most).mono fun h => ?_
          simpa [isWritable] using h.1
      | _ => exact .ok _
  | number least most places =>
      simp only [examine]
      split
      · exact .ok _
      · rename_i n hn
        have hbounds := outOfBounds_answersIf n least most
        have hplaces := tooManyPlaces_answersIf (.number least most places) n places
        split
        · exact .ok _
        · refine (hplaces.mono fun h => ?_).bind fun found _ => ?_
          · simp only [isWritable, Bool.and_eq_true] at h
            refine ⟨?_, h.1.2⟩
            cases v <;> cases hn
            · exact h.2
            · rfl
          · cases found with
            | some f => exact .ok _
            | none =>
                refine hbounds.mono fun h => ?_
                simp only [isWritable, Bool.and_eq_true] at h
                exact h.1.1
  | oneOf words =>
      exact ((Value.display_answersIf v).mono And.right).bind fun _ _ => .ok _
  | maxLength n =>
      have hlength := lengthTest_answersIf (.maxLength n) v n (decide <| · ≤ n) "shorter"
      exact hlength.mono fun h => h.1
  | minLength n =>
      have hlength := lengthTest_answersIf (.minLength n) v n (decide <| n ≤ ·) "longer"
      exact hlength.mono fun h => h.1
  | array minSize =>
      simp only [examine]
      split
      · exact .ok _
      · exact .ok _
      · split
        · refine ((Number.Integer.write_answersIf _).mono fun h => ?_).bind_pure _
          simpa [isWritable] using h.1
        · exact .ok _
  | boolean | date => cases v <;> exact .ok _
  | unspecified => cases ht
  | _ => exact .ok _

theorem coerce_isWritable (t : Test) {v : Value} (hv : v.isWritable = true) :
    (t.coerce v).isWritable = true := by
  cases hl : t.leaves v with
  | true => rwa [coerce_of_leaves hl]
  | false =>
      obtain ⟨hr, s, rfl⟩ := exists_text_of_not_leaves hl
      cases t with
      | date =>
          simp only [coerce]
          split <;> rfl
      | integer | number | boolean => rfl
      | _ => cases hr

end Test

end Intake
