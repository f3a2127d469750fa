import Intake.Text.Blank
import Intake.Text.DecimalDigit
import Intake.Text.WordCharacter

/-!
# Pattern — Node — the structure of a regular expression

A pattern is built from characters, sets and anchors by sequence, choice, repetition, groups,
looking ahead and references back to what a group has matched.
-/

namespace Intake

namespace Pattern

/-- The named classes of characters. -/
inductive Category where
  | digit
  | blank
  | word
deriving DecidableEq

def Category.holds : Category → Char → Bool
  | .digit, c => Text.isDecimalDigit c
  | .blank, c => Text.isBlank c
  | .word,  c => Text.isWordCharacter c

/-- The character of ASCII that a character is read as where case does not count, if there is one.
Beyond ASCII these are the capital I with a point and the small one without, the long s, and the
sign of the kelvin. -/
def uncased? (c : Char) : Option Char :=
  if c.toNat < 0x80 then some c.toLower
  else if c.toNat = 0x130 ∨ c.toNat = 0x131 then some 'i'
  else if c.toNat = 0x17F then some 's'
  else if c.toNat = 0x212A then some 'k'
  else none

/-- What a set lists: code points from one to another, or a category or its complement. -/
inductive SetItem where
  | range (low high : Nat)
  | category (k : Category) (negated : Bool)
  /-- Code points of ASCII where case does not count. -/
  | caseless (low high : Nat)
deriving DecidableEq

def SetItem.holds : SetItem → Char → Bool
  | .range low high,     c => low ≤ c.toNat && c.toNat ≤ high
  | .category k negated, c => k.holds c != negated
  | .caseless low high,  c =>
    (uncased? c).any fun d =>
      (low ≤ d.toNat && d.toNat ≤ high) || (low ≤ d.toUpper.toNat && d.toUpper.toNat ≤ high)

inductive Anchor where
  /-- At the start of the text. -/
  | start
  /-- At the end of the text, or before a line feed that ends it. -/
  | lineEnd
  /-- At the end of the text. -/
  | textEnd
  /-- Between a word character and anything else. -/
  | boundary
  | notBoundary
deriving DecidableEq

/-- In which order the numbers of repetitions are tried. -/
inductive Appetite where
  /-- The most first. -/
  | greedy
  /-- The fewest first. -/
  | lazy
  /-- The most only. -/
  | possessive
deriving DecidableEq

inductive Node where
  | empty
  | char (c : Char)
  /-- Any character but a line feed. -/
  | any
  | set (negated : Bool) (items : List SetItem)
  | anchor (a : Anchor)
  | seq (first second : Node)
  | alt (first second : Node)
  /-- At least `least` times and at most `most` times. -/
  | repeated (least : Nat) (most : Option Nat) (appetite : Appetite) (body : Node)
  | group (index : Nat) (body : Node)
  /-- What follows matches the body, or does not; nothing is consumed. -/
  | look (negated : Bool) (body : Node)
  /-- The text that a group has matched last. -/
  | reference (index : Nat)
deriving DecidableEq

namespace Node

/-- One node after another. -/
def sequence : List Node → Node
  | []      => .empty
  | [a]     => a
  | a :: as => .seq a (sequence as)

/-- The first of several that leads to a match. -/
def choice : List Node → Node
  | []      => .empty
  | [a]     => a
  | a :: as => .alt a (choice as)

/-- A character of a category. -/
def ofCategory (k : Category) (negated : Bool) : Node := .set negated [.category k false]

/-- The character with a code point; a surrogate is no character and matches nothing. -/
def ofCode (n : Nat) : Node :=
  if n.isValidChar then .char (Char.ofNat n) else .set false []

/-- The node where case does not count for its characters and sets, which should be of ASCII. -/
def caseless : Node → Node
  | .char c                    => if c.isAlpha then .set false [.caseless c.toNat c.toNat] else .char c
  | .set negated items         => .set negated (items.map fun
    | .range low high => .caseless low high
    | item            => item)
  | .seq a b                   => .seq a.caseless b.caseless
  | .alt a b                   => .alt a.caseless b.caseless
  | .repeated least most app a => .repeated least most app a.caseless
  | .group i a                 => .group i a.caseless
  | .look negated a            => .look negated a.caseless
  | a                          => a

end Node

end Pattern

end Intake
