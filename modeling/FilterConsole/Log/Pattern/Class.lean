import FilterConsole.Log.Pattern.Escape

/-! Classes of characters in brackets: characters, ranges, named classes and classes in brackets, which operators may
combine. -/

namespace FilterConsole.Log

namespace Class

/-- A set together with how deep the brackets and lists in its text are nested. -/
structure Member where
  set : CharSet
  depth : Nat
  deriving DecidableEq, Repr

inductive Operator where
  | inter
  | without
  | symmDiff
  deriving DecidableEq, Repr

def Operator.apply : Operator → CharSet → CharSet → CharSet
  | inter => .inter
  | without => .without
  | symmDiff => .symmDiff

structure Operand where
  before : Option (Member × Operator)
  members : List Member

namespace Operand

def add (o : Operand) (m : Member) : Operand := { o with members := m :: o.members }

def union (o : Operand) : Member :=
  match o.members with
  | [] => ⟨.nothing, 0⟩
  | [m] => m
  | ms => ⟨ms.foldr (fun m s => s.union m.set) .nothing, (ms.foldl (fun d m => max d m.depth) 0) + 1⟩

def value (o : Operand) : Member :=
  match o.before with
  | none => o.union
  | some (m, op) => ⟨op.apply m.set o.union.set, max m.depth o.union.depth + 1⟩

def next (o : Operand) (op : Operator) : Operand := ⟨some (o.value, op), []⟩

end Operand

def item? (f : Flags) : List Char → Option (Escape × List Char)
  | [] => none
  | '\\' :: cs => Escape.read? f cs
  | c :: cs => some (.char c false, cs)

def range? (f : Flags) (cs : List Char) : Option (CharSet × List Char) := do
  let (first, rest) ← item? f cs
  match first, f.skip rest with
  | _, [] => none
  | .set s, '-' :: rest => if (f.peek rest).any fun c => c == ']' || c == '-' then return (s, '-' :: rest) else none
  | .set s, rest => return (s, rest)
  | .char c _, '-' :: rest =>
    if (f.peek rest).any fun c => c == ']' || c == '-' then return (← f.range? c c, '-' :: rest)
    let (last, rest) ← item? f (f.skip rest)
    match last with
    | .char d _ => return (← f.range? c d, rest)
    | _ => none
  | .char c _, rest => return (← f.range? c c, rest)
  | .edge _, _ => none

def named? (f : Flags) : List Char → Option (Option CharSet × List Char)
  | ':' :: cs =>
    let (negated, cs) := match cs with
      | '^' :: cs => (true, cs)
      | cs => (false, cs)
    match cs.span (· != ':'), negated with
    | (name, ':' :: ']' :: rest), negated =>
      (CharSet.ofName? (.ofList name)).map fun s =>
        (if negated then if f.contains .unicode then (f.set? s).map .complement else none else f.set? s, rest)
    | _, _ => none
  | _ => none

def leaf (s : CharSet) : Member := ⟨s, 0⟩

def dashes (f : Flags) : Nat → List Char → Nat × List Char
  | n + 1, '-' :: cs => let (m, rest) := dashes f n (f.skip cs); (m + 1, rest)
  | _, cs => (0, cs)

/-- The start of a class, after its opening bracket: whether it is negated, and the minus signs or the closing bracket
that stand for themselves there. -/
def opening? (f : Flags) (cs : List Char) : Option (Bool × Operand × List Char) := do
  let (negated, cs) := match f.skip cs with
    | '^' :: cs => (true, f.skip cs)
    | cs => (false, cs)
  let (n, rest) := dashes f cs.length cs
  let dash ← if n = 0 then some [] else (f.range? '-' '-').map fun s => List.replicate n (leaf s)
  match n, rest with
  | 0, ']' :: rest => return (negated, ⟨none, [leaf (← f.range? ']' ']')]⟩, f.skip rest)
  | _, rest => return (negated, ⟨none, dash⟩, rest)

/-- A class without its brackets, as it is or negated. Among bytes it would not be one of characters any more. -/
def closed? (f : Flags) (negated : Bool) (o : Operand) : Option Member :=
  if !negated then some ⟨o.value.set, o.value.depth + 1⟩
  else if f.contains .unicode then some ⟨.complement o.value.set, o.value.depth + 1⟩
  else none

def members? (f : Flags) : Nat → Operand → List Char → Option (Operand × List Char)
  | 0, _, _ => none
  | n + 1, o, cs =>
    match f.skip cs with
    | [] => none
    | ']' :: rest => some (o, rest)
    | '&' :: '&' :: rest => members? f n (o.next .inter) rest
    | '-' :: '-' :: rest => members? f n (o.next .without) rest
    | '~' :: '~' :: rest => members? f n (o.next .symmDiff) rest
    | '[' :: rest =>
      match named? f rest with
      | some (s, rest) => s.bind fun s => members? f n (o.add (leaf s)) rest
      | none => do
        let (negated, inner, rest) ← opening? f rest
        let (inner, rest) ← members? f n inner rest
        members? f n (o.add (← closed? f negated inner)) rest
    | rest => do
      let (s, rest) ← range? f rest
      members? f n (o.add (leaf s)) rest

def read? (f : Flags) (cs : List Char) : Option (Member × List Char) := do
  let (negated, o, rest) ← opening? f cs
  let (o, rest) ← members? f (rest.length + 1) o rest
  return (← closed? f negated o, rest)

end Class

end FilterConsole.Log
