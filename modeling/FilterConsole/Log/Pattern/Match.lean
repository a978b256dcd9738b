import FilterConsole.Log.Pattern.Machine

/-! Matching a pattern: where its matches are after each character of a text. A match may begin anywhere but has to end
with the text, and a preferred match that ends earlier hides all others. -/

namespace FilterConsole.Log

namespace Machine

/-- How far the matching has come: the open places that matches are at, whether a match may still begin, and the last
character. -/
structure Progress where
  places : List Nat
  searching : Bool
  last : Option Char
  deriving DecidableEq, Repr

def begin (m : Machine) : Progress := ⟨m.spread (Edge.holdsAfter none) [m.start], true, none⟩

def settled (m : Machine) (p : Progress) (next : Option Char) : List Nat :=
  let holds := Edge.holds p.last next
  if p.places.any (m.learns (Edge.holdsAfter p.last) holds) then m.spread holds p.places else p.places

def endsInside (m : Machine) (c : Char) : Bool :=
  1 < c.utf8Size && (m.spread (Edge.holds (some c) (some c)) [m.start]).any m.isDone

/-- A match that has ended hides what is less preferred, and it is no use to look for another one. -/
def advance (m : Machine) (p : Progress) (c : Char) : Progress :=
  let places := m.settled p (some c)
  let searching := p.searching && !places.any m.isDone && !m.endsInside c
  let next := (places.takeWhile fun n => !m.isDone n).filterMap (m.after? c)
  ⟨m.spread (Edge.holdsAfter (some c)) (if searching then next ++ [m.start] else next), searching, some c⟩

end Machine

def Pattern.matchesText (p : Pattern) (s : String) : Bool :=
  let m := Machine.ofPattern p
  (m.settled (s.toList.foldl m.advance m.begin) none).any m.isDone

end FilterConsole.Log
