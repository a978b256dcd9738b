import FilterConsole.Log.Pattern.Class
import FilterConsole.Text.Alphanumeric

/-! Reading a pattern from its text, from left to right with the groups around the current place. -/

namespace FilterConsole.Log

inductive PatternFault where
  | malformed
  | unicodeWords
  deriving DecidableEq, Repr

namespace Pattern

structure Item where
  pattern : Pattern
  depth : Nat
  repeatable : Bool
  deriving DecidableEq, Repr

namespace Item

def plain (p : Pattern) : Item := ⟨p, 0, true⟩

def join (build : List Pattern → Pattern) : List Item → Item
  | [i] => i
  | is => ⟨build (is.map (·.pattern)), if is.isEmpty then 0 else (is.foldl (fun d i => max d i.depth) 0) + 1, true⟩

end Item

/-- A group so far: its number if it has one, the flags that are set after it, the alternatives before the current one
and the items of that one, each latest first. -/
structure Group where
  number : Option Nat
  flags : Flags
  before : List Item := []
  items : List Item := []

namespace Group

def add (g : Group) (i : Item) : Group := { g with items := i :: g.items }

def alternative (g : Group) : Item := Item.join sequence g.items.reverse

def whole (g : Group) : Item := Item.join choice (g.alternative :: g.before).reverse

def closed (g : Group) : Item :=
  let i := g.whole
  ⟨g.number.elim i.pattern (group · i.pattern), i.depth + 1, true⟩

end Group

/-- How far the reading of a pattern has come: the current flags and group, the groups around it, inner ones first, the
number and the names of the groups that have been opened, and whether an edge of words needs more than ASCII. -/
structure Reading where
  flags : Flags := .initial
  group : Group := { number := none, flags := .initial }
  outer : List Group := []
  groups : Nat := 0
  names : List String := []
  unicodeWords : Bool := false

namespace Reading

def add (r : Reading) (i : Item) : Reading := { r with group := r.group.add i }

def enter (r : Reading) (number : Option Nat) (flags : Flags) : Reading :=
  { r with flags, group := { number, flags := r.flags }, outer := r.group :: r.outer }

def enterNext (r : Reading) : Reading := { r.enter (some r.groups) r.flags with groups := r.groups + 1 }

def isName : List Char → Bool
  | [] => false
  | c :: cs => (c == '_' || isAlphabetic c) && cs.all fun c => isAlphanumeric c || "_.[]".toList.contains c

def enterNamed? (r : Reading) (cs : List Char) : Option (Reading × List Char) :=
  match cs.span (· != '>') with
  | (name, _ :: rest) =>
    if isName name && !r.names.contains (.ofList name) then
      some ({ r.enterNext with names := .ofList name :: r.names }, rest)
    else none
  | _ => none

/-- What follows an opening bracket: a group with a name, flags up to the end of the current group or for a group
without a number, or a group with a number. -/
def openGroup? (r : Reading) (cs : List Char) : Option (Reading × List Char) :=
  match r.flags.skip cs with
  | '?' :: 'P' :: '<' :: cs | '?' :: '<' :: cs => r.enterNamed? cs
  | '?' :: cs => do
    let (change, rest) := cs.span fun c => c != ':' && c != ')'
    let flags ← r.flags.change? change
    match rest with
    | ':' :: rest => return (r.enter none flags, rest)
    | _ :: rest =>
      if change.isEmpty then none else return ({ r.add ⟨empty, 0, false⟩ with flags }, rest)
    | [] => none
  | cs => some (r.enterNext, cs)

def closeGroup? (r : Reading) : Option Reading :=
  match r.outer with
  | [] => none
  | o :: outer => some { r with flags := r.group.flags, group := o.add r.group.closed, outer }

def alternate (r : Reading) : Reading :=
  { r with group := { r.group with before := r.group.alternative :: r.group.before, items := [] } }

/-- Repeats the last item. A question mark makes the repetition reluctant, and a flag swaps what it does. -/
def repeat? (r : Reading) (times : Bool → Pattern → Pattern) (cs : List Char) : Option (Reading × List Char) :=
  let (marked, rest) := match cs with
    | '?' :: cs => (true, cs)
    | cs => (false, cs)
  match r.group.items with
  | [] => none
  | i :: items =>
    let repeated : Item := ⟨times (marked != r.flags.contains .swapped) i.pattern, i.depth + 1, true⟩
    if i.repeatable then some ({ r with group := { r.group with items := repeated :: items } }, rest) else none

def addEdge (r : Reading) (e : Edge) : Reading :=
  let isWordEdge := [Edge.word, .noWord, .wordStart, .wordEnd].contains e
  { r.add (.plain (.edge e)) with
    unicodeWords := r.unicodeWords || (isWordEdge && r.flags.contains .unicode) }

def lineEdge (f : Flags) (line : Bool → Edge) (text : Edge) : Edge :=
  if f.contains .multiline then line (f.contains .returns) else text

def addSet? (r : Reading) (s : Option CharSet) : Option Reading := s.map fun s => r.add (.plain (oneOf s))

def step? (r : Reading) : List Char → Option (Reading × List Char)
  | [] => none
  | '(' :: cs => r.openGroup? cs
  | ')' :: cs => r.closeGroup?.map fun r => (r, cs)
  | '|' :: cs => some (r.alternate, cs)
  | '?' :: cs => r.repeat? optional cs
  | '*' :: cs => r.repeat? anyNumber cs
  | '+' :: cs => r.repeat? onceOrMore cs
  | '[' :: cs => (Class.read? r.flags cs).map fun (m, rest) => (r.add ⟨oneOf m.set, m.depth, true⟩, rest)
  | '\x7b' :: _ => none
  | '.' :: cs => (r.addSet? r.flags.dot?).map fun r => (r, cs)
  | '^' :: cs => some (r.addEdge (lineEdge r.flags .lineStart .textStart), cs)
  | '$' :: cs => some (r.addEdge (lineEdge r.flags .lineEnd .textEnd), cs)
  | '\\' :: cs => do
    let (escape, rest) ← Escape.read? r.flags cs
    match escape with
    | .char c asByte => return (← r.addSet? (r.flags.char? c asByte), rest)
    | .set s => return (← r.addSet? s, rest)
    | .edge e => return (r.addEdge e, rest)
  | c :: cs => (r.addSet? (r.flags.char? c false)).map fun r => (r, cs)

def finish? : Nat → Reading → List Char → Option Reading
  | n, r, cs =>
    match r.flags.skip cs with
    | [] => some r
    | cs => match n with
      | 0 => none
      | n + 1 => do
        let (r, rest) ← r.step? cs
        finish? n r rest

end Reading

def depthLimit : Nat := 250

def ofText (s : String) : Except PatternFault Pattern :=
  match Reading.finish? s.length {} s.toList with
  | none => .error .malformed
  | some r =>
    if !r.outer.isEmpty || depthLimit < r.group.whole.depth then .error .malformed
    else if r.unicodeWords then .error .unicodeWords
    else .ok r.group.whole.pattern

end Pattern

end FilterConsole.Log
