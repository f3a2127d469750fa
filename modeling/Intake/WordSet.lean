/-!
# WordSet — sets of words

A set of words is kept in ascending order without repetition, so that equal sets are equal lists and
a set is always shown in order.
-/

namespace Intake

/-- A word at its place in an ascending list. -/
def insertWord (w : String) : List String → List String
  | []      => [w]
  | x :: xs => if w < x then w :: x :: xs else if w = x then x :: xs else x :: insertWord w xs

theorem mem_insertWord {w y : String} {xs : List String} :
    y ∈ insertWord w xs ↔ y = w ∨ y ∈ xs := by
  induction xs with
  | nil => simp [insertWord]
  | cons x xs ih =>
    simp only [insertWord]
    split
    · simp
    · split
      · next h => subst h; simp
      · simp only [List.mem_cons, ih]
        constructor
        · rintro (h | h | h) <;> simp [h]
        · rintro (h | h | h) <;> simp [h]

theorem pairwise_insertWord {w : String} {xs : List String} (h : xs.Pairwise (· < ·)) :
    (insertWord w xs).Pairwise (· < ·) := by
  induction xs with
  | nil => simp [insertWord]
  | cons x xs ih =>
    obtain ⟨hx, hxs⟩ := List.pairwise_cons.1 h
    simp only [insertWord]
    split
    · next hw =>
      refine List.pairwise_cons.2 ⟨fun y hy => ?_, h⟩
      rcases List.mem_cons.1 hy with rfl | hy
      · exact hw
      · exact String.lt_trans hw (hx y hy)
    · next hw =>
      split
      · exact h
      · next hne =>
        refine List.pairwise_cons.2 ⟨fun y hy => ?_, ih hxs⟩
        rcases mem_insertWord.1 hy with rfl | hy
        · refine String.not_le.1 fun hle => hne ?_
          exact String.le_antisymm hle (String.not_lt.1 hw)
        · exact hx y hy

structure WordSet where
  words  : List String
  sorted : words.Pairwise (· < ·)
deriving DecidableEq

namespace WordSet

def empty : WordSet := ⟨[], .nil⟩

def insert (s : WordSet) (w : String) : WordSet := ⟨insertWord w s.words, pairwise_insertWord s.sorted⟩

def ofList (ws : List String) : WordSet := ws.foldr (fun w s => s.insert w) empty

def contains (s : WordSet) (w : String) : Bool := s.words.contains w

/-- The words in ascending order. -/
def listing (s : WordSet) : String := ", ".intercalate s.words

end WordSet

end Intake
