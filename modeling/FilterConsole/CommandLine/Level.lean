import FilterConsole.CommandLine.UsageError

/-! The arguments of one level of a command line: options with their values, operands, and the word that begins the
next level. An option's value is attached to it or stands apart. A value that stands apart and an operand wait to be
checked until the next argument that the level knows, or until its end. -/

namespace FilterConsole.CommandLine

structure Flag where
  long : String
  short : Option Char := none
  deriving DecidableEq, Repr

structure Level where
  flags : List Flag := []
  operands : List String := []
  branches : List String := []

abbrev Check := String → String → Except UsageError Unit

abbrev Values := List (String × String)

/-- An argument that waits to be checked; an option may still lack its value. -/
structure Pending where
  name : String
  value : Option String
  deriving DecidableEq, Repr

structure State where
  values : Values := []
  pending : Option Pending := none
  operands : List String
  operandsOnly : Bool := false

def Values.add (vs : Values) (check : Check) (name value : String) : Except UsageError Values :=
  if (vs.lookup name).isSome then .error .shape
  else (check name value).map fun _ => vs ++ [(name, value)]

namespace State

def settle (s : State) (check : Check) : Except UsageError State :=
  match s.pending with
  | none => .ok s
  | some ⟨_, none⟩ => .error .shape
  | some ⟨name, some value⟩ => (s.values.add check name value).map fun values => { s with values, pending := none }

def option (s : State) (check : Check) (flag : Flag) (attached : Option String) : Except UsageError State := do
  let s ← s.settle check
  match attached with
  | none => return { s with pending := some ⟨flag.long, none⟩ }
  | some value => return { s with values := ← s.values.add check flag.long value }

def operand (s : State) (check : Check) (arg : String) : Except UsageError State :=
  match s.operands with
  | [] => .error .shape
  | name :: rest => (s.settle check).map fun s => { s with pending := some ⟨name, some arg⟩, operands := rest }

def lacksValue (s : State) : Bool :=
  match s.pending with
  | some ⟨_, none⟩ => true
  | _ => false

end State

namespace Level

def splitLong (cs : List Char) : String × Option String :=
  (.ofList (cs.takeWhile (· != '=')), (cs.dropWhile (· != '=')).tail?.map .ofList)

def attachedShort : List Char → Option String
  | [] => none
  | '=' :: r => some (.ofList r)
  | cs => some (.ofList cs)

def step (l : Level) (check : Check) (s : State) (arg : String) : Except UsageError State :=
  if s.operandsOnly then s.operand check arg
  else match arg.toList with
    | ['-', '-'] => .ok { s with operandsOnly := true }
    | '-' :: '-' :: cs =>
      match l.flags.find? (·.long == (splitLong cs).1) with
      | some flag => s.option check flag (splitLong cs).2
      | none => .error .shape
    | '-' :: c :: cs =>
      match l.flags.find? (·.short == some c) with
      | some flag => s.option check flag (attachedShort cs)
      | none => .error .shape
    | _ =>
      match s.pending with
      | some ⟨name, none⟩ => .ok { s with pending := some ⟨name, some arg⟩ }
      | _ => s.operand check arg

def scan (l : Level) (check : Check) (s : State) :
    List String → Except UsageError (State × Option (String × List String))
  | [] => .ok (s, none)
  | arg :: rest =>
    if !s.operandsOnly && !s.lacksValue && l.branches.contains arg then .ok (s, some (arg, rest))
    else match l.step check s arg with
      | .ok s => l.scan check s rest
      | .error e => .error e

/-- The values of a level and what the levels below it say. What is wrong below comes before what waits here. -/
def parse {α : Type} (l : Level) (check : Check) (below : String → List String → Except UsageError α)
    (args : List String) : Except UsageError (Values × Option α) := do
  let (s, branch) ← l.scan check { operands := l.operands } args
  let sub ← branch.mapM fun (word, rest) => below word rest
  let s ← s.settle check
  return (s.values, sub)

end Level

end FilterConsole.CommandLine
