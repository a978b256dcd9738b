import FilterConsole.Text.Split

/-! Names in other scripts written in ASCII: first the ASCII characters, then where the others stand among them, in
numbers of varying length. -/

namespace FilterConsole.Punycode

def digit? (c : Char) : Option Nat :=
  if c.isLower then some (c.toNat - 'a'.toNat)
  else if c.isUpper then some (c.toNat - 'A'.toNat)
  else if c.isDigit then some (c.toNat - '0'.toNat + 26)
  else none

def threshold (place bias : Nat) : Nat := min 26 (max 1 (place - bias))

def number? (bias place weight sum : Nat) : List Char → Option (Nat × List Char)
  | [] => none
  | c :: cs => do
    let d ← digit? c
    let t := threshold place bias
    if d < t then return (sum + d * weight, cs)
    else number? bias (place + 36) (weight * (36 - t)) (sum + d * weight) cs

def settle (delta count : Nat) : Nat × Nat :=
  if 455 < delta then settle (delta / 35) (count + 1) else (delta, count)
termination_by delta
decreasing_by omega

def adapt (delta size : Nat) (first : Bool) : Nat :=
  let delta := if first then delta / 700 else delta / 2
  let (delta, count) := settle (delta + delta / size) 0
  36 * count + 36 * delta / (delta + 38)

/-- How far the reading of a name has come: the characters so far, where and which the last one was, and the bias. -/
structure Progress where
  done : List Char
  index : Nat := 0
  code : Nat := 128
  bias : Nat := 72

def insertAll? : Nat → Progress → List Char → Option (List Char)
  | _, p, [] => some p.done
  | 0, _, _ => none
  | n + 1, p, cs => do
    let (index, rest) ← number? p.bias 36 1 p.index cs
    let size := p.done.length + 1
    let code := p.code + index / size
    if !code.isValidChar then none
    insertAll? n ⟨p.done.insertIdx (index % size) (.ofNat code), index % size + 1, code,
      adapt (index - p.index) size (p.code = 128 && p.index = 0)⟩ rest

def decode? (cs : List Char) : Option (List Char) :=
  match (splitOn '-' cs).reverse with
  | numbers :: basic@(_ :: _) =>
    insertAll? numbers.length { done := "-".toList.intercalate basic.reverse } numbers
  | _ => insertAll? cs.length { done := [] } cs

end FilterConsole.Punycode
