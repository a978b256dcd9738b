import FilterConsole.Text.Blank
import FilterConsole.Text.Split

/-! Flags that change how a pattern is read, from where they are set to the end of the group. -/

namespace FilterConsole.Log

inductive Flag where
  | anyCase
  | multiline
  | dotAll
  | returns
  | swapped
  | unicode
  | spaced
  deriving DecidableEq, Repr

abbrev Flags := List Flag

namespace Flags

def initial : Flags := [.unicode]

def ofChar? : Char → Option Flag
  | 'i' => some .anyCase
  | 'm' => some .multiline
  | 's' => some .dotAll
  | 'R' => some .returns
  | 'U' => some .swapped
  | 'u' => some .unicode
  | 'x' => some .spaced
  | _ => none

/-- Flags to set and, after a minus sign, at least one to clear. None of them stands twice. -/
def change? (f : Flags) (cs : List Char) : Option Flags := do
  let (on, off) ← match splitOn '-' cs with
    | [on] => some (on, [])
    | [on, off] => if off.isEmpty then none else some (on, off)
    | _ => none
  let on ← on.mapM ofChar?
  let off ← off.mapM ofChar?
  if (on ++ off).eraseDups.length = (on ++ off).length then some (on ++ f.filter fun x => !off.contains x) else none

/-- Drops blanks and comments, which begin with a number sign and end with the line. -/
def skipRemarks : Bool → List Char → List Char
  | _, [] => []
  | true, c :: cs => skipRemarks (c != '\n') cs
  | false, c :: cs =>
    if c == '#' then skipRemarks true cs
    else if isBlank c then skipRemarks false cs
    else c :: cs

def skip (f : Flags) (cs : List Char) : List Char := if f.contains .spaced then skipRemarks false cs else cs

/-- The character that seems to follow. Inside a comment that follows it is the first one of the comment. -/
def peek (f : Flags) (cs : List Char) : Option Char :=
  if f.contains .spaced then
    match cs.dropWhile isBlank with
    | '#' :: cs => (cs.dropWhile isBlank).head?
    | cs => cs.head?
  else cs.head?

end Flags

end FilterConsole.Log
