/-! How log lines are written. -/

namespace FilterConsole

inductive LogFormat where
  | text
  | json
  deriving DecidableEq, Repr

def LogFormat.name : LogFormat → String
  | text => "text"
  | json => "json"

def LogFormat.ofName? : String → Option LogFormat
  | "text" => some text
  | "json" => some json
  | _ => none

end FilterConsole
