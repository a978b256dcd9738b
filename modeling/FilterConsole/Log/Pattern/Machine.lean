import FilterConsole.Log.Pattern.Basic

/-! Patterns as machines: numbered places, and how a match goes on from each of them. -/

namespace FilterConsole.Log

/-- What happens at a place: the match ends, takes a character, asks for an edge, or has two ways of which the first
one is preferred. -/
inductive Place where
  | done
  | char (s : CharSet) (next : Nat)
  | edge (e : Edge) (next : Nat)
  | fork (first second : Nat)
  deriving DecidableEq, Repr

structure Machine where
  places : Array Place
  start : Nat
  deriving Repr

namespace Machine

def place (m : Machine) (n : Nat) : Place := m.places[n]?.getD .done

def add (m : Machine) (p : Place) : Machine := ⟨m.places.push p, m.places.size⟩

def replace (m : Machine) (n : Nat) (p : Place) : Machine := { m with places := m.places.setIfInBounds n p }

def loop (m : Machine) (reluctant : Bool) (part : Machine → Machine) : Machine :=
  let inner := part (m.add .done)
  inner.replace m.places.size (if reluctant then .fork m.start inner.start else .fork inner.start m.start)

def prepend (m : Machine) : Pattern → Machine
  | .empty => m
  | .oneOf s => m.add (.char s m.start)
  | .edge e => m.add (.edge e m.start)
  | .append p q => (m.prepend q).prepend p
  | .either p q =>
    let first := m.prepend p
    let second := { first with start := m.start }.prepend q
    second.add (.fork first.start second.start)
  | .onceOrMore reluctant p => m.loop reluctant (·.prepend p)
  | .many reluctant p => { m.loop reluctant (·.prepend p) with start := m.places.size }
  | .group _ p => m.prepend p

def ofPattern (p : Pattern) : Machine := prepend ⟨#[.done], 0⟩ p

def forks (m : Machine) (holds : Edge → Bool) (n : Nat) : List Nat :=
  match m.place n with
  | .done | .char .. => []
  | .edge e next => if holds e then [next] else []
  | .fork first second => [first, second]

def isOpen (m : Machine) (n : Nat) : Bool :=
  match m.place n with
  | .fork .. => false
  | _ => true

def isDone (m : Machine) (n : Nat) : Bool := m.place n == .done

def after? (m : Machine) (c : Char) (n : Nat) : Option Nat :=
  match m.place n with
  | .char s next => if s.contains c then some next else none
  | _ => none

def learns (m : Machine) (known holds : Edge → Bool) (n : Nat) : Bool :=
  match m.place n with
  | .edge e _ => holds e && !known e
  | _ => false

def visit (m : Machine) (holds : Edge → Bool) : Nat → List Nat → List Nat → List Nat
  | 0, seen, _ | _, seen, [] => seen
  | k + 1, seen, n :: todo =>
    if seen.contains n then m.visit holds k seen todo else m.visit holds k (n :: seen) (m.forks holds n ++ todo)

/-- All open places that steps without characters lead to, each once and where it is met first. A place leads to two
others at most. -/
def spread (m : Machine) (holds : Edge → Bool) (ns : List Nat) : List Nat :=
  ((m.visit holds (ns.length + 2 * m.places.size) [] ns).filter m.isOpen).reverse

end Machine

end FilterConsole.Log
