import Intake.Pattern.Node

/-!
# Pattern — Match — matching with backtracking

Matching a node takes a state and a continuation, which says what has to follow; the result is the
final state of the first way to match both, in the order in which alternatives and numbers of
repetitions are tried.  A round of a repetition beyond the least number is tried only where the text
has moved since the round before began, so that every repetition ends.
-/

namespace Intake.Pattern

/-- The character before the place reached, the text from there on, and what the groups have
matched. -/
structure State where
  before : Option Char
  rest   : List Char
  groups : List (Nat × List Char)
deriving DecidableEq

abbrev Continuation := State → Option State

abbrev Matcher := State → Continuation → Option State

namespace State

def start (s : List Char) : State := ⟨none, s, []⟩

/-- One character of a class. -/
def step (p : Char → Bool) (s : State) (k : Continuation) : Option State :=
  match s.rest with
  | []        => none
  | c :: rest => if p c then k ⟨some c, rest, s.groups⟩ else none

/-- A given text, character by character. -/
def spell : List Char → State → Continuation → Option State
  | [],      s, k => k s
  | c :: cs, s, k => s.step (· == c) fun t => spell cs t k

/-- What was matched on the way to a later state. -/
def passed (s t : State) : List Char := s.rest.take (s.rest.length - t.rest.length)

def capture (index : Nat) (text : List Char) (s : State) : State :=
  { s with groups := (index, text) :: s.groups }

def isWordAt : Option Char → Bool
  | some c => Text.isWordCharacter c
  | none   => false

end State

/-- No place of the empty text is at a boundary or away from one. -/
def Anchor.holds : Anchor → State → Bool
  | .start,       s => s.before.isNone
  | .lineEnd,     s => s.rest == [] || s.rest == ['\n']
  | .textEnd,     s => s.rest == []
  | .boundary,    s => State.isWordAt s.before != State.isWordAt s.rest.head?
  | .notBoundary, s =>
    State.isWordAt s.before == State.isWordAt s.rest.head? && (s.before.isSome || !s.rest.isEmpty)

/-- Exactly so many rounds. -/
def times (m : Matcher) : Nat → Matcher
  | 0,     s, k => k s
  | n + 1, s, k => m s fun t => times m n t k

/-- Up to so many further rounds, none after a round that began where this one would. -/
def further (m : Matcher) (greedy : Bool) : Nat → Option Nat → Matcher
  | 0,     _,    s, k => k s
  | n + 1, last, s, k =>
    if last = some s.rest.length then k s
    else if greedy then (m s fun t => further m greedy n (some s.rest.length) t k) <|> k s
    else k s <|> m s fun t => further m greedy n (some s.rest.length) t k

/-- The first way to match, with no return to the others. -/
def committed (m : Matcher) : Matcher := fun s k => (m s some).bind k

/-- At least `least` rounds and at most `most`; the length of the text bounds the rounds that can
move. -/
def repetition (m : Matcher) (least : Nat) (most : Option Nat) (greedy : Bool) : Matcher := fun s k =>
  times m least s fun t =>
    let rounds := t.rest.length + 1
    further m greedy (match most with | some n => min (n - least) rounds | none => rounds) none t k

def repetitionWith (m : Matcher) (least : Nat) (most : Option Nat) : Appetite → Matcher
  | .greedy     => repetition m least most true
  | .lazy       => repetition m least most false
  | .possessive => committed (repetition (committed m) least most true)

namespace Node

def run : Node → Matcher
  | .empty,                s, k => k s
  | .char c,               s, k => s.step (· == c) k
  | .any,                  s, k => s.step (· != '\n') k
  | .set negated items,    s, k => s.step (fun c => items.any (·.holds c) != negated) k
  | .anchor a,             s, k => if a.holds s then k s else none
  | .seq a b,              s, k => a.run s fun t => b.run t k
  | .alt a b,              s, k => a.run s k <|> b.run s k
  | .repeated lo hi app a, s, k => repetitionWith a.run lo hi app s k
  | .group i a,            s, k => a.run s fun t => k (t.capture i (s.passed t))
  | .look false a,         s, k =>
    match a.run s some with
    | some t => k { s with groups := t.groups }
    | none   => none
  | .look true a,          s, k =>
    match a.run s some with
    | some _ => none
    | none   => k s
  | .reference i,          s, k =>
    match s.groups.lookup i with
    | some text => s.spell text k
    | none      => none

/-- A node matches a text if some way to match it ends at the end of the text. -/
def isMatch (a : Node) (s : List Char) : Bool :=
  (a.run (.start s) fun t => if t.rest.isEmpty then some t else none).isSome

end Node

example : (Node.repeated 0 none .greedy (.alt .empty (.char 'a'))).isMatch ['a', 'a'] = true := by decide
example : (Node.repeated 0 none .possessive .any).isMatch ['a', '\n'] = false := by decide
example : (Node.seq (.group 1 (.alt (.char 'a') .any)) (.reference 1)).isMatch ['b', 'b'] = true := by decide

end Intake.Pattern
