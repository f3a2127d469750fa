import Intake.Pattern.Fault
import Intake.Pattern.Node

/-!
# Pattern — Reader — reading a regular expression

A pattern is read from left to right, with a stack of the groups that are open.  A backslash takes
the character behind it, so that a backslash at the very end is a fault as soon as the text in front
of it is consumed.

Of the syntax of regular expressions the following is not read, and refused: looking behind (`(?<=`
and `(?<!`), flags within a pattern (`(?i)`, `(?i:`), groups that depend on another one (`(?(1)`),
and characters by their name (`\N`).  The name of a group is of word characters, which beyond ASCII
are not quite the characters of an identifier.  Numbers of repetitions and of groups have no upper
limit.
-/

namespace Intake.Pattern

/-- What is left of a pattern, and how much was read before it. -/
structure Source where
  position : Nat
  rest     : List Char

/-- A character, or a backslash with the character behind it. -/
inductive Token where
  | plain (c : Char)
  | escape (c : Char)
deriving DecidableEq

def Token.text : Token → List Char
  | .plain c  => [c]
  | .escape c => ['\x5C', c]

abbrev Reading := Except Fault

def fail {α : Type} (problem : Problem) (position : Nat) : Reading α := .error ⟨problem, position⟩

namespace Source

/-- A source that is not a single backslash. -/
def checked (s : Source) : Reading Source :=
  if s.rest = ['\x5C'] then fail .trailingBackslash s.position else .ok s

def advance (s : Source) (width : Nat) : Reading Source :=
  checked ⟨s.position + width, s.rest.drop width⟩

/-- The token in front and what follows it. -/
def next? (s : Source) : Reading (Option (Token × Source)) :=
  match s.rest with
  | []             => .ok none
  | '\x5C' :: c :: _ => do return some (.escape c, ← s.advance 2)
  | c :: _         => do return some (.plain c, ← s.advance 1)

/-- Whether a character is in front, and what follows it. -/
def skip? (s : Source) (c : Char) : Reading (Option Source) :=
  if s.rest.head? = some c then do return some (← s.advance 1) else .ok none

/-- Up to so many characters of a class. -/
def takeUpTo (p : Char → Bool) : Nat → Source → Reading (List Char × Source)
  | 0,     s => .ok ([], s)
  | n + 1, s =>
    match s.rest with
    | []     => .ok ([], s)
    | c :: _ =>
      if p c then do
        let (cs, t) ← takeUpTo p n (← s.advance 1)
        return (c :: cs, t)
      else .ok ([], s)

def takeDigits (s : Source) : Reading (List Char × Source) := s.takeUpTo Char.isDigit s.rest.length

end Source

def isOctalDigit (c : Char) : Bool := '0' ≤ c && c ≤ '7'

def isHexDigit (c : Char) : Bool := c.isDigit || ('a' ≤ c && c ≤ 'f') || ('A' ≤ c && c ≤ 'F')

def hexDigit (c : Char) : Nat :=
  if c.isDigit then c.toNat - 0x30 else if c.toNat < 0x61 then c.toNat - 0x37 else c.toNat - 0x57

/-- The number that digits denote in a base. -/
def valueIn (base : Nat) (ds : List Char) : Nat := ds.foldl (fun n c => base * n + hexDigit c) 0

/-- The controls that have an escape of their own. -/
def controlCode? : Char → Option Nat
  | 'a'    => some 0x07
  | 'f'    => some 0x0C
  | 'n'    => some 0x0A
  | 'r'    => some 0x0D
  | 't'    => some 0x09
  | 'v'    => some 0x0B
  | '\x5C' => some 0x5C
  | _      => none

/-- The categories, in lower case, and their complements, in upper case. -/
def category? : Char → Option (Category × Bool)
  | 'd' => some (.digit, false)
  | 'D' => some (.digit, true)
  | 's' => some (.blank, false)
  | 'S' => some (.blank, true)
  | 'w' => some (.word, false)
  | 'W' => some (.word, true)
  | _   => none

def anchor? : Char → Option Anchor
  | 'A' => some .start
  | 'Z' => some .textEnd
  | 'b' => some .boundary
  | 'B' => some .notBoundary
  | _   => none

/-- How many hexadecimal digits follow an escape by number. -/
def hexWidth? : Char → Option Nat
  | 'x' => some 2
  | 'u' => some 4
  | 'U' => some 8
  | _   => none

def isAsciiLetter (c : Char) : Bool := c.isAlpha

/-- A code point in exactly so many hexadecimal digits. -/
def readHex (c : Char) (width start : Nat) (s : Source) : Reading (Nat × Source) := do
  let (ds, s) ← s.takeUpTo isHexDigit width
  if ds.length ≠ width then fail (.incompleteEscape ('\x5C' :: c :: ds)) start
  else if 0x10FFFF < valueIn 16 ds then fail (.badEscape ('\x5C' :: c :: ds)) start
  else return (valueIn 16 ds, s)

/-- A code point in octal digits. -/
def octalCode (ds : List Char) (start : Nat) : Reading Nat :=
  if 0o377 < valueIn 8 ds then fail (.octalTooLarge ('\x5C' :: ds)) start else .ok (valueIn 8 ds)

/-- A letter that is no escape; every other character stands for itself. -/
def selfEscape (c : Char) (start : Nat) : Reading Nat :=
  if isAsciiLetter c then fail (.badEscape ['\x5C', c]) start else .ok c.toNat

/-- One end of a range, or a category, which is no end of one. -/
inductive SetAtom where
  | code (n : Nat)
  | category (k : Category) (negated : Bool)

def SetAtom.item : SetAtom → SetItem
  | .code n             => .range n n
  | .category k negated => .category k negated

/-- An escape in a set. -/
def readSetEscape (c : Char) (start : Nat) (s : Source) : Reading (SetAtom × Source) := do
  match controlCode? c, category? c, hexWidth? c with
  | some n, _, _                 => return (.code n, s)
  | _, some (k, negated), _      => return (.category k negated, s)
  | _, _, some width             =>
    let (n, s) ← readHex c width start s
    return (.code n, s)
  | _, _, _                      =>
    if c = 'b' then return (.code 0x08, s)
    else if isOctalDigit c then
      let (ds, s) ← s.takeUpTo isOctalDigit 2
      return (.code (← octalCode (c :: ds) start), s)
    else if c.isDigit then fail (.badEscape ['\x5C', c]) start
    else return (.code (← selfEscape c start), s)

/-- The atom of a token that was read from `start`. -/
def readSetAtom (t : Token) (start : Nat) (s : Source) : Reading (SetAtom × Source) :=
  match t with
  | .plain c  => .ok (.code c.toNat, s)
  | .escape c => readSetEscape c start s

/-- A range needs two code points in order. -/
def rangeOf (low high : SetAtom) (lowToken highToken : Token) (s : Source) : Reading SetItem :=
  let fault := fail (.badRange lowToken.text highToken.text)
    (s.position - (lowToken.text.length + 1 + highToken.text.length))
  match low, high with
  | .code m, .code n => if n < m then fault else .ok (.range m n)
  | _,       _       => fault

/-- The items of a set up to its closing bracket, which is an item if it comes first.  The set was
opened at `opened`. -/
def readSetItems (opened : Nat) : Nat → List SetItem → Source → Reading (List SetItem × Source)
  | 0,        _,     _ => fail .unterminatedSet opened
  | fuel + 1, items, s => do
    let some (t, rest) ← s.next? | fail .unterminatedSet opened
    if t = .plain ']' && !items.isEmpty then return (items.reverse, rest)
    else
      let (low, rest) ← readSetAtom t s.position rest
      match ← rest.skip? '-' with
      | none      => readSetItems opened fuel (low.item :: items) rest
      | some rest =>
        let some (u, after) ← rest.next? | fail .unterminatedSet opened
        if u = .plain ']' then return ((.range 0x2D 0x2D :: low.item :: items).reverse, after)
        else
          let (high, after) ← readSetAtom u rest.position after
          let item ← rangeOf low high t u after
          readSetItems opened fuel (item :: items) after

/-- A set behind its opening bracket. -/
def readSet (opened : Nat) (s : Source) : Reading (Node × Source) := do
  match ← s.skip? '^' with
  | some s =>
    let (items, s) ← readSetItems opened (s.rest.length + 1) [] s
    return (.set true items, s)
  | none   =>
    let (items, s) ← readSetItems opened (s.rest.length + 1) [] s
    return (.set false items, s)

/-- How an element of a sequence may be repeated. -/
inductive Role where
  | anchor
  | repeated
  | other
deriving DecidableEq

/-- A sequence that is being read, with the alternatives before it; both in reverse. -/
structure Level where
  branches : List Node := []
  items    : List (Node × Role) := []

namespace Level

def push (l : Level) (a : Node) (role : Role := .other) : Level :=
  { l with items := (a, role) :: l.items }

/-- The sequence read so far. -/
def branch (l : Level) : Node := .sequence (l.items.reverse.map (·.1))

def split (l : Level) : Level := ⟨l.branch :: l.branches, []⟩

def close (l : Level) : Node := .choice (l.branch :: l.branches).reverse

end Level

inductive Opening where
  | capture (index : Nat)
  | plain
  /-- Matched in the first way that there is. -/
  | atomic
  | look (negated : Bool)

def Opening.close : Opening → Node → Node
  | .capture i, a    => .group i a
  | .plain, a        => a
  | .atomic, a       => .repeated 1 (some 1) .possessive a
  | .look negated, a => .look negated a

/-- A group that is open: what opened it, where, and the level around it. -/
structure Frame where
  opening : Opening
  start   : Nat
  outer   : Level

/-- The state of a reading: the innermost level, the open groups, how many groups capture, and the
names that some of these have. -/
structure Progress where
  level  : Level := {}
  frames : List Frame := []
  groups : Nat := 0
  names  : List (List Char × Nat) := []

namespace Progress

def push (p : Progress) (a : Node) (role : Role := .other) : Progress :=
  { p with level := p.level.push a role }

def isOpen (p : Progress) (index : Nat) : Bool :=
  p.frames.any fun f => match f.opening with
    | .capture i => i == index
    | _          => false

def enter (p : Progress) (opening : Opening) (start : Nat) : Progress :=
  { p with level := {}, frames := ⟨opening, start, p.level⟩ :: p.frames }

/-- A group that captures begins. -/
def capture (p : Progress) (start : Nat) : Progress :=
  { p.enter (.capture (p.groups + 1)) start with groups := p.groups + 1 }

/-- The element that a repetition at `position` applies to, and the level without it. -/
def target (p : Progress) (position : Nat) : Reading (Node × Level) :=
  match p.level.items with
  | []                    => fail .nothingToRepeat position
  | (_, .anchor) :: _     => fail .nothingToRepeat position
  | (_, .repeated) :: _   => fail .multipleRepeat position
  | (a, .other) :: before => .ok (a, { p.level with items := before })

end Progress

/-- The bounds of a repetition in braces; without a comma both are the one number, and an absent
bound is none. -/
structure Bounds where
  least : Nat
  most  : Option Nat

/-- The bounds behind an opening brace, if they are well formed. -/
def readBounds? (s : Source) : Reading (Option (Bounds × Source)) := do
  if s.rest.head? = some '\x7d' then return none
  else
    let (low, t) ← s.takeDigits
    let (high, t) ← match ← t.skip? ',' with
      | some t => t.takeDigits
      | none   => pure (low, t)
    let some t ← t.skip? '\x7d' | return none
    let least := valueIn 10 low
    let most := if high.isEmpty then none else some (valueIn 10 high)
    match most with
    | some n => if n < least then fail .reversedBounds s.position else return some (⟨least, most⟩, t)
    | none   => return some (⟨least, most⟩, t)

/-- A repetition of the last element, with the mark of its appetite. -/
def readRepetition (p : Progress) (position : Nat) (b : Bounds) (s : Source) :
    Reading (Progress × Source) := do
  let (a, level) ← p.target position
  let finish (appetite : Appetite) (s : Source) : Progress × Source :=
    ({ p with level := level.push (.repeated b.least b.most appetite a) .repeated }, s)
  match ← s.skip? '?' with
  | some s => return finish .lazy s
  | none   =>
    match ← s.skip? '+' with
    | some s => return finish .possessive s
    | none   => return finish .greedy s

/-- A reference to a group, or a code point in three octal digits. -/
def readNumber (p : Progress) (c : Char) (start : Nat) (s : Source) : Reading (Node × Source) := do
  let (more, s) ← s.takeUpTo Char.isDigit 1
  let (last, s) ←
    if (c :: more).all isOctalDigit && !more.isEmpty then s.takeUpTo isOctalDigit 1 else pure ([], s)
  if !last.isEmpty then return (.ofCode (← octalCode (c :: more ++ last) start), s)
  else
    let index := valueIn 10 (c :: more)
    if p.groups < index then fail (.unknownGroup index) (start + 1)
    else if p.isOpen index then fail .openGroup start
    else return (.reference index, s)

/-- An escape outside of a set. -/
def readEscape (p : Progress) (c : Char) (start : Nat) (s : Source) : Reading (Progress × Source) := do
  match anchor? c, category? c, controlCode? c, hexWidth? c with
  | some a, _, _, _            => return (p.push (.anchor a) .anchor, s)
  | _, some (k, negated), _, _ => return (p.push (.ofCategory k negated), s)
  | _, _, some n, _            => return (p.push (.ofCode n), s)
  | _, _, _, some width        =>
    let (n, s) ← readHex c width start s
    return (p.push (.ofCode n), s)
  | _, _, _, _                 =>
    if c = '0' then
      let (ds, s) ← s.takeUpTo isOctalDigit 2
      return (p.push (.ofCode (valueIn 8 (c :: ds))), s)
    else if c.isDigit then
      let (a, s) ← readNumber p c start s
      return (p.push a, s)
    else return (p.push (.ofCode (← selfEscape c start)), s)

/-- Word characters, of which the first is no digit. -/
def isGroupName (name : List Char) : Bool :=
  name.all Text.isWordCharacter && !(name.head?.any Text.isDecimalDigit)

/-- A name up to what closes it.  The name began at `start`. -/
def readGroupName (closing : Char) (start : Nat) : Nat → List Char → Source → Reading (List Char × Source)
  | 0,        _,    _ => fail .missingGroupName start
  | fuel + 1, name, s => do
    match ← s.next? with
    | none           =>
      fail (if name.isEmpty then .missingGroupName else .unterminatedGroupName closing) start
    | some (t, rest) =>
      if t ≠ .plain closing then readGroupName closing start fuel (name ++ t.text) rest
      else if name.isEmpty then fail .missingGroupName start
      else if isGroupName name then return (name, rest)
      else fail (.badGroupName name) start

/-- A group with a name that no group before has. -/
def readNamedGroup (p : Progress) (start : Nat) (s : Source) : Reading (Progress × Source) := do
  let (name, rest) ← readGroupName '>' s.position (s.rest.length + 1) [] s
  match p.names.lookup name with
  | some i => fail (.repeatedGroupName name (p.groups + 1) i) s.position
  | none   => return ({ p.capture start with names := (name, p.groups + 1) :: p.names }, rest)

/-- A reference to a group by its name. -/
def readNamedReference (p : Progress) (s : Source) : Reading (Progress × Source) := do
  let (name, rest) ← readGroupName ')' s.position (s.rest.length + 1) [] s
  match p.names.lookup name with
  | some i =>
    if p.isOpen i then fail .openGroup s.position else return (p.push (.reference i), rest)
  | none   => fail (.unknownGroupName name) s.position

/-- The source behind a comment, which began at `start`. -/
def skipComment (start : Nat) : Nat → Source → Reading Source
  | 0,        _ => fail .unterminatedComment start
  | fuel + 1, s => do
    let some (t, rest) ← s.next? | fail .unterminatedComment start
    if t = .plain ')' then return rest else skipComment start fuel rest

/-- What is in parentheses, the first of which was at `start`, behind a question mark. -/
def readExtension (p : Progress) (start : Nat) (s : Source) : Reading (Progress × Source) := do
  let some (t, rest) ← s.next? | fail .unexpectedEnd s.position
  match t with
  | .plain ':' => return (p.enter .plain start, rest)
  | .plain '>' => return (p.enter .atomic start, rest)
  | .plain '=' => return (p.enter (.look false) start, rest)
  | .plain '!' => return (p.enter (.look true) start, rest)
  | .plain '#' => return (p, ← skipComment start (rest.rest.length + 1) rest)
  | .plain 'P' =>
    match ← rest.skip? '<', ← rest.skip? '=' with
    | some rest, _         => readNamedGroup p start rest
    | none,      some rest => readNamedReference p rest
    | none,      none      =>
      let some (u, _) ← rest.next? | fail .unexpectedEnd rest.position
      fail (.unknownExtension (['?', 'P'] ++ u.text)) (s.position - 1)
  | .plain '<' =>
    let some (u, _) ← rest.next? | fail .unexpectedEnd rest.position
    fail (.unknownExtension (['?', '<'] ++ u.text)) (s.position - 1)
  | t          => fail (.unknownExtension ('?' :: t.text)) (s.position - 1)

/-- What is in parentheses, the first of which was at `start`. -/
def readOpening (p : Progress) (start : Nat) (s : Source) : Reading (Progress × Source) := do
  match ← s.skip? '?' with
  | none   => return (p.capture start, s)
  | some s => readExtension p start s

/-- A closing parenthesis at `position` ends the innermost group. -/
def readClosing (p : Progress) (position : Nat) : Reading Progress :=
  match p.frames with
  | []              => fail .unbalancedParenthesis position
  | frame :: frames =>
    .ok { p with level := frame.outer.push (frame.opening.close p.level.close), frames }

/-- A character that is not escaped, which was at `position`. -/
def readPlain (p : Progress) (c : Char) (position : Nat) (s : Source) : Reading (Progress × Source) := do
  match c with
  | '|'    => return ({ p with level := p.level.split }, s)
  | '('    => readOpening p position s
  | ')'    => return (← readClosing p position, s)
  | '['    =>
    let (a, s) ← readSet position s
    return (p.push a, s)
  | '.'    => return (p.push .any, s)
  | '^'    => return (p.push (.anchor .start) .anchor, s)
  | '$'    => return (p.push (.anchor .lineEnd) .anchor, s)
  | '*'    => readRepetition p position ⟨0, none⟩ s
  | '+'    => readRepetition p position ⟨1, none⟩ s
  | '?'    => readRepetition p position ⟨0, some 1⟩ s
  | '\x7b' =>
    match ← readBounds? s with
    | some (b, s) => readRepetition p position b s
    | none        => return (p.push (.char c), s)
  | c      => return (p.push (.char c), s)

/-- The pattern from a source on.  A closing parenthesis with no group to close is a fault even
before a backslash at the very end. -/
def readFrom : Nat → Progress → Source → Reading Node
  | 0,        p, _ => .ok p.level.close
  | fuel + 1, p, s => do
    if s.rest.head? = some ')' && p.frames.isEmpty then fail .unbalancedParenthesis s.position
    match ← s.next? with
    | none             =>
      match p.frames with
      | []         => return p.level.close
      | frame :: _ => fail .unterminatedGroup frame.start
    | some (t, rest) =>
      let (p, rest) ← match t with
        | .plain c  => readPlain p c s.position rest
        | .escape c => readEscape p c s.position rest
      readFrom fuel p rest

/-- The node that a text denotes. -/
def Node.read (s : List Char) : Reading Node := do
  readFrom (s.length + 1) {} (← Source.checked ⟨0, s⟩)

end Intake.Pattern
