/-! Sets of characters that patterns are made of. -/

namespace FilterConsole.Log

inductive CharSet where
  | nothing
  | range (first last : Char)
  | union (s t : CharSet)
  | without (s t : CharSet)
  | anyCase (s : CharSet)
  deriving DecidableEq, Repr

namespace CharSet

def otherCase (c : Char) : Char := if c.isUpper then c.toLower else c.toUpper

def contains : CharSet → Char → Bool
  | nothing, _ => false
  | range first last, c => first ≤ c && c ≤ last
  | union s t, c => s.contains c || t.contains c
  | without s t, c => s.contains c && !t.contains c
  | anyCase s, c => s.contains c || s.contains (otherCase c)

def single (c : Char) : CharSet := range c c

def all : CharSet := range '\x00' (.ofNat 0x10FFFF)

def complement (s : CharSet) : CharSet := without all s

def inter (s t : CharSet) : CharSet := without s (without s t)

def symmDiff (s t : CharSet) : CharSet := union (without s t) (without t s)

def ofRanges (ranges : List (Char × Char)) : CharSet :=
  ranges.foldl (fun s (first, last) => s.union (range first last)) nothing

def digits : CharSet := range '0' '9'

def lower : CharSet := range 'a' 'z'

def upper : CharSet := range 'A' 'Z'

def letters : CharSet := union lower upper

def word : CharSet := union letters (union digits (single '_'))

def spaces : CharSet := union (range '\t' '\r') (single ' ')

def marks : CharSet := ofRanges [('!', '/'), (':', '@'), ('[', '\x60'), ('\x7b', '~')]

def ofName? : String → Option CharSet
  | "alnum" => some (union letters digits)
  | "alpha" => some letters
  | "ascii" => some (range '\x00' '\x7f')
  | "blank" => some (union (single '\t') (single ' '))
  | "cntrl" => some (union (range '\x00' '\x1f') (single '\x7f'))
  | "digit" => some digits
  | "graph" => some (range '!' '~')
  | "lower" => some lower
  | "print" => some (range ' ' '~')
  | "punct" => some marks
  | "space" => some spaces
  | "upper" => some upper
  | "word" => some word
  | "xdigit" => some (union digits (union (range 'a' 'f') (range 'A' 'F')))
  | _ => none

end CharSet

end FilterConsole.Log
