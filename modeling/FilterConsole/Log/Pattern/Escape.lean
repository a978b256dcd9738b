import FilterConsole.Log.Pattern.Basic
import FilterConsole.Log.Pattern.Flags
import FilterConsole.Text.Ascii

/-! Single characters and sets in patterns, and what a backslash makes of the characters behind it. -/

namespace FilterConsole.Log

inductive Escape where
  | char (c : Char) (asByte : Bool)
  | set (s : CharSet)
  | edge (e : Edge)
  deriving DecidableEq, Repr

namespace Escape

def isAscii (c : Char) : Bool := c.toNat < 128

def digits? (f : Flags) : Nat → List Char → Option (List Nat × List Char)
  | 0, cs => some ([], cs)
  | _ + 1, [] => none
  | n + 1, c :: cs => do
    let d ← if isAscii c then Ascii.hexValue? (Ascii.byte c) else none
    let (ds, rest) ← digits? f n (f.skip cs)
    return (d :: ds, rest)

def numbered? (f : Flags) (size : Nat) (cs : List Char) : Option (Char × List Char) := do
  let (ds, rest) ← digits? f size (f.skip cs)
  let n := ds.foldl (fun n d => n * 16 + d) 0
  if n.isValidChar then some (.ofNat n, rest) else none

/-- Sets have a letter only among bytes. -/
def set? (f : Flags) (s : CharSet) : Option Escape := if f.contains .unicode then none else some (.set s)

def mark? (c : Char) : Option Escape :=
  if isAscii c && !c.isAlphanum && c != '<' && c != '>' then some (.char c false) else none

def ofChar? (f : Flags) : Char → Option Escape
  | 'a' => some (.char '\x07' false)
  | 'f' => some (.char '\x0c' false)
  | 'n' => some (.char '\n' false)
  | 'r' => some (.char '\r' false)
  | 't' => some (.char '\t' false)
  | 'v' => some (.char '\x0b' false)
  | 'd' => set? f .digits
  | 's' => set? f .spaces
  | 'w' => set? f .word
  | 'A' => some (.edge .textStart)
  | 'z' => some (.edge .textEnd)
  | 'b' => some (.edge .word)
  | 'B' => some (.edge .noWord)
  | '<' => some (.edge .wordStart)
  | '>' => some (.edge .wordEnd)
  | c => mark? c

def read? (f : Flags) : List Char → Option (Escape × List Char)
  | [] => none
  | 'x' :: cs => (numbered? f 2 cs).map fun (c, rest) => (char c true, rest)
  | 'u' :: cs => (numbered? f 4 cs).map fun (c, rest) => (char c false, rest)
  | 'U' :: cs => (numbered? f 8 cs).map fun (c, rest) => (char c false, rest)
  | c :: cs => (ofChar? f c).map fun e => (e, cs)

end Escape

namespace Flags

/-- A set as the flags have it. Only letters of ASCII have another case, and only where characters are bytes. -/
def set? (f : Flags) (s : CharSet) : Option CharSet :=
  if !f.contains .anyCase then some s
  else if f.contains .unicode then none
  else some (.anyCase s)

def char? (f : Flags) (c : Char) (asByte : Bool) : Option CharSet :=
  if asByte && !f.contains .unicode && !Escape.isAscii c then none else f.set? (.single c)

def range? (f : Flags) (first last : Char) : Option CharSet :=
  if last < first || (!f.contains .unicode && !Escape.isAscii last) then none else f.set? (.range first last)

def dot? (f : Flags) : Option CharSet :=
  if !f.contains .unicode then none
  else if f.contains .dotAll then some .all
  else if f.contains .returns then some (.complement (.union (.single '\n') (.single '\r')))
  else some (.complement (.single '\n'))

end Flags

end FilterConsole.Log
