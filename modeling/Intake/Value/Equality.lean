import Intake.Value

/-!
# Value — Equality — when two values are the same

Truth values and numbers are the same if their quantities are, lists only as lists and tuples only
as tuples, and records if they hold the same values under the same keys, in whatever order.
-/

namespace Intake.Value

mutual

def sameAs : Value → Value → Bool
  | .null,      .null      => true
  | .text s,    .text t    => s == t
  | .date d,    .date e    => decide (d = e)
  | .moment m,  .moment n  => m.sameAs n
  | .list xs,   .list ys   => sameItems xs ys
  | .tuple xs,  .tuple ys  => sameItems xs ys
  | .record es, .record fs => es.length == fs.length && sameEntries es fs
  | .bool a,    w          => sameQuantity (.int a.toInt) w
  | .int n,     w          => sameQuantity (.int n) w
  | .float x,   w          => sameQuantity (.float x) w
  | _,          _          => false

/-- Item by item, and equally many. -/
def sameItems : List Value → List Value → Bool
  | [],      []      => true
  | x :: xs, y :: ys => x.sameAs y && sameItems xs ys
  | _,       _       => false

/-- Each entry of the first record has one of the same key and value in the second. -/
def sameEntries : Entries → Entries → Bool
  | [],             _  => true
  | (k, v) :: rest, fs => fs.any (fun f => k.sameAs f.1 && v.sameAs f.2) && sameEntries rest fs

/-- A quantity against a value that may have one. -/
def sameQuantity (n : Number) (w : Value) : Bool :=
  match w.quantity? with
  | some m => n.sameAs m
  | none   => false

end

example : sameAs (.bool true) (.float (.ofRatio false 1 1)) = true := by decide +kernel
example : sameAs (.list [.int 1]) (.tuple [.int 1]) = false := by decide
example : sameAs (.record [(.int 1, .null), (.text "a", .int 2)])
    (.record [(.text "a", .int 2), (.bool true, .null)]) = true := by decide +kernel

end Intake.Value
