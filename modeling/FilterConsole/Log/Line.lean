import FilterConsole.Config.LogFormat
import FilterConsole.Json.Writer
import FilterConsole.Log.Event

/-! Log lines: events as they are written. -/

namespace FilterConsole.Log

def Event.textLine (e : Event) : String := e.severity.name ++ " " ++ e.message

def Event.jsonLine (e : Event) : String :=
  let json := Json.object [(utf8 "level", .ofText e.severity.name),
    (utf8 "fields", .object [(utf8 "message", .ofText e.message)])]
  (ofUtf8? json.write).getD ""

def Event.line (format : LogFormat) (e : Event) : String :=
  match format with
  | .text => e.textLine
  | .json => e.jsonLine

end FilterConsole.Log
