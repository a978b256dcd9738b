/-! What the program has to say about a run: events, each with the part of the program that it comes from, inside the
spans of the operations that were going on. -/

namespace FilterConsole.Log

inductive Severity where
  | error
  | warn
  | info
  | debug
  | trace
  deriving DecidableEq, Repr

namespace Severity

/-- How many severities are as grave as this one or graver. -/
def rank : Severity → Nat
  | error => 1
  | warn => 2
  | info => 3
  | debug => 4
  | trace => 5

def name : Severity → String
  | error => "ERROR"
  | warn => "WARN"
  | info => "INFO"
  | debug => "DEBUG"
  | trace => "TRACE"

end Severity

inductive Value where
  | text (s : String)
  | flag (b : Bool)
  deriving DecidableEq, Repr

structure Span where
  origin : String
  fields : List (String × Value)
  deriving DecidableEq, Repr

namespace Span

def name : String := "execute"

def severity : Severity := .info

def field? (s : Span) (name : String) : Option Value := s.fields.lookup name

end Span

structure Event where
  severity : Severity
  origin : String
  message : String
  fields : List String
  scope : List Span
  deriving DecidableEq, Repr

def Event.hasField (e : Event) (name : String) : Bool := name == "message" || e.fields.contains name

end FilterConsole.Log
