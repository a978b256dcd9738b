import FilterConsole.Log.Pattern.CharSet

/-! Patterns for texts, with the edges between characters that they may ask for. Of several ways to match a text the
earlier one is preferred: alternatives count from left to right, repetitions take as much as they can or, if they are
reluctant, as little as they can. -/

namespace FilterConsole.Log

/-- What may be asked of the place between two characters. A line ends at a line feed or, if carriage returns count, at
one of them or at both together. -/
inductive Edge where
  | textStart
  | textEnd
  | lineStart (returns : Bool)
  | lineEnd (returns : Bool)
  | word
  | noWord
  | wordStart
  | wordEnd
  deriving DecidableEq, Repr

namespace Edge

def isWordy (c : Option Char) : Bool := c.any CharSet.word.contains

/-- Whether a place is such an edge, by the characters on either side; there is none at an end of the text. -/
def holds (before after : Option Char) : Edge → Bool
  | textStart => before.isNone
  | textEnd => after.isNone
  | lineStart returns =>
    before.all (· == '\n') || (returns && before == some '\r' && after != some '\n')
  | lineEnd returns =>
    after.all (· == '\n') && !(returns && before == some '\r' && after == some '\n') ||
      (returns && after == some '\r')
  | word => isWordy before != isWordy after
  | noWord => isWordy before == isWordy after
  | wordStart => !isWordy before && isWordy after
  | wordEnd => isWordy before && !isWordy after

def holdsAfter (before : Option Char) : Edge → Bool
  | textStart => before.isNone
  | lineStart _ => before.all (· == '\n')
  | _ => false

end Edge

/-- Patterns: a character of a set, an edge, two patterns in a row, a choice between two, repetitions from once or from
no time on, and numbered groups, which are unlike each other. -/
inductive Pattern where
  | empty
  | oneOf (s : CharSet)
  | edge (e : Edge)
  | append (p q : Pattern)
  | either (p q : Pattern)
  | onceOrMore (reluctant : Bool) (p : Pattern)
  | many (reluctant : Bool) (p : Pattern)
  | group (number : Nat) (p : Pattern)
  deriving DecidableEq, Repr

namespace Pattern

def least : Pattern → Nat
  | empty | edge _ | many .. => 0
  | oneOf _ => 1
  | append p q => p.least + q.least
  | either p q => min p.least q.least
  | onceOrMore _ p | group _ p => p.least

def optional (reluctant : Bool) (p : Pattern) : Pattern := if reluctant then either empty p else either p empty

/-- Any number of matches. If one of them may be empty, the first one is tried before it is left out. -/
def anyNumber (reluctant : Bool) (p : Pattern) : Pattern :=
  if 0 < p.least then many reluctant p else optional reluctant (onceOrMore reluctant p)

def parts : Pattern → List Pattern
  | empty => []
  | append p q => p.parts ++ q.parts
  | p => [p]

def ofParts : List Pattern → Pattern
  | [] => empty
  | [p] => p
  | p :: ps => append p (ofParts ps)

def sequence (ps : List Pattern) : Pattern := ofParts (ps.flatMap parts)

def common (ps qs : List Pattern) : List Pattern := ((ps.zip qs).takeWhile fun (p, q) => p == q).map (·.1)

def ofAlternatives : List Pattern → Pattern
  | [] => empty
  | [p] => p
  | p :: ps => either p (ofAlternatives ps)

/-- Alternatives, the preferred one first. Parts that all of them start with are matched before one is chosen. -/
def choice (ps : List Pattern) : Pattern :=
  let alternatives := ps.map parts
  let start := match alternatives with
    | first :: others => if alternatives.all (1 < ·.length) then others.foldl common first else []
    | [] => []
  sequence (start ++ [ofAlternatives (alternatives.map fun a => ofParts (a.drop start.length))])

end Pattern

end FilterConsole.Log
