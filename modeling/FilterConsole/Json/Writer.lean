import FilterConsole.Json.Text

/-! Writing a JSON value without blanks. -/

namespace FilterConsole.Json

open Ascii

def quoted (raw : Bytes) : Bytes := byte '"' :: (raw ++ [byte '"'])

mutual

def write : Json → Bytes
  | .null => utf8 "null"
  | .boolean true => utf8 "true"
  | .boolean false => utf8 "false"
  | .integer i => utf8 (signedNumeral i)
  | .fraction written => written
  | .text raw => quoted raw
  | .array items => byte '[' :: (writeItems items ++ [byte ']'])
  | .object members => byte '\x7b' :: (writeMembers members ++ [byte '\x7d'])

def writeItems : List Json → Bytes
  | [] => []
  | [v] => write v
  | v :: r => write v ++ byte ',' :: writeItems r

def writeMembers : List (Bytes × Json) → Bytes
  | [] => []
  | [(name, v)] => quoted name ++ byte ':' :: write v
  | (name, v) :: r => quoted name ++ byte ':' :: write v ++ byte ',' :: writeMembers r

end

end FilterConsole.Json
