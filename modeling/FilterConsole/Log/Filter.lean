import FilterConsole.Log.Directive
import FilterConsole.Log.Pattern.Match

/-! Which events the configured level lets through. Directives without span and value decide on events by where they
come from; those with a span or a field let through what happens inside the spans that they are about. -/

namespace FilterConsole.Log

namespace Directive

def isStatic (d : Directive) : Bool := d.span.isNone && d.field.all (·.value.isNone)

def isDynamic (d : Directive) : Bool := d.span.isSome || d.field.isSome

def sameSubject (d e : Directive) : Bool := d.target == e.target && d.span == e.span && d.field == e.field

def covers (d : Directive) (origin : String) : Bool := d.target.all fun t => t.toList.isPrefixOf origin.toList

def appliesTo (d : Directive) (e : Event) : Bool := d.covers e.origin && d.field.all fun f => e.hasField f.name

/-- `e` says at least as much about an event as `d`, if both apply to it: by its target, else by its field. -/
def isOutdoneBy (d e : Directive) : Bool :=
  let size (d : Directive) : Nat := (d.target.getD "").length
  let field (d : Directive) : String := (d.field.map (·.name)).getD ""
  size d < size e || (size d == size e && field d ≤ field e)

end Directive

/-- A pattern has to match a text; no value of a span is a number. -/
def ValueTest.holds : ValueTest → Value → Bool
  | flag b, .flag c => b == c
  | pattern text, .text s =>
    match Pattern.ofText text with
    | .ok p => p.matchesText s
    | .error _ => false
  | _, _ => false

def FieldTest.holds (f : FieldTest) (s : Span) : Bool :=
  match s.field? f.name with
  | some v => f.value.all (·.holds v)
  | none => false

def Directive.appliesToSpan (d : Directive) (s : Span) : Bool :=
  d.covers s.origin && d.span.all (· == Span.name) && d.field.all (·.holds s)

/-- The directives of a level text, those on the same subject once, and the highest rank that one of them can reach. -/
structure Filter where
  statics : List Directive
  dynamics : List Directive
  hint : Nat
  deriving DecidableEq, Repr

namespace Filter

def pieces (level : String) : List String :=
  ((splitOn ',' level.toList).filter fun cs => !cs.isEmpty).map .ofList

def complaints (level : String) : List String :=
  (pieces level).filterMap fun s =>
    match Directive.ofText s with
    | .ok _ => none
    | .error fault => some ("ignoring \x60" ++ s ++ "\x60: " ++ fault.message)

def latest : List Directive → List Directive
  | [] => []
  | d :: ds => if ds.any (·.sameSubject d) then latest ds else d :: latest ds

/-- The directives of a level text; without any, errors are let through. -/
def ofLevel (level : String) : Filter :=
  let directives : List Directive := match (pieces level).filterMap fun s => (Directive.ofText s).toOption with
    | [] => [⟨Severity.error.rank, none, none, none⟩]
    | ds => ds
  let dynamics := latest (directives.filter (·.isDynamic))
  let hint := if dynamics.any fun d => d.field.any (·.value.isSome) then Severity.trace.rank
    else directives.foldl (fun r d => max r d.rank) 0
  { statics := latest (directives.filter (·.isStatic)), dynamics, hint }

def staticRank (f : Filter) (e : Event) : Nat :=
  let chosen := (f.statics.filter (·.appliesTo e)).foldl (fun best d =>
    match best with
    | some b => if Directive.isOutdoneBy b d then some d else some b
    | none => some d) none
  (chosen.map (·.rank)).getD 0

/-- The rank for all events in a span. There are spans only if events as grave as they are may be let through. -/
def spanRank (f : Filter) (s : Span) : Nat :=
  if f.hint < Span.severity.rank then 0
  else (f.dynamics.filter (·.appliesToSpan s)).foldl (fun r d => max r d.rank) 0

def lets (f : Filter) (e : Event) : Bool :=
  e.severity.rank ≤ f.staticRank e || e.scope.any fun s => e.severity.rank ≤ f.spanRank s

end Filter

end FilterConsole.Log
