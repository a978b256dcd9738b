import FilterConsole.Log.Event
import FilterConsole.Log.Pattern.Reader
import FilterConsole.Text.Decimal
import FilterConsole.Text.Split

/-! Directives on what is logged. One reads `target[span{field=value}]=level`; all parts but one may be left out,
and a lone level is for all targets. -/

namespace FilterConsole.Log

inductive ValueTest where
  | flag (b : Bool)
  | number
  | pattern (text : String)
  deriving DecidableEq, Repr

structure FieldTest where
  name : String
  value : Option ValueTest
  deriving DecidableEq, Repr

/-- What a directive is about, and the rank of the least grave events that it lets through; none at zero. -/
structure Directive where
  rank : Nat
  target : Option String
  span : Option String
  field : Option FieldTest
  deriving DecidableEq, Repr

inductive DirectiveFault where
  | malformed
  | level
  | pattern (fault : PatternFault)
  deriving DecidableEq, Repr

def DirectiveFault.message : DirectiveFault → String
  | malformed => "invalid filter directive"
  | level =>
    "error parsing level filter: expected one of \"off\", \"error\", \"warn\", \"info\", \"debug\", \"trace\", " ++
      "or a number 0-5"
  | pattern .malformed => "invalid field filter: error building NFA"
  | pattern .unicodeWords =>
    "invalid field filter: unsupported regex feature for DFAs: cannot build DFAs for regexes with Unicode word " ++
      "boundaries; switch to ASCII word boundaries, or heuristically enable Unicode word boundaries or use a " ++
      "different regex engine"

def unsigned (marks : List Char) : List Char → List Char
  | [] => []
  | c :: cs => if marks.contains c then cs else c :: cs

def levelRank? (s : String) : Option Nat :=
  match readDigits? (unsigned ['+'] s.toList) with
  | some n => if n ≤ Severity.trace.rank then some n else none
  | none =>
    match s.toLower with
    | "off" => some 0
    | "error" => some Severity.error.rank
    | "warn" => some Severity.warn.rank
    | "info" => some Severity.info.rank
    | "debug" => some Severity.debug.rank
    | "trace" => some Severity.trace.rank
    | _ => none

/-- A whole number, a fraction with or without digits on either side of the point, and perhaps an exponent. -/
def isDecimal (cs : List Char) : Bool :=
  let (mantissa, rest) := cs.span fun c => c != 'e' && c != 'E'
  let isMantissa := match splitOn '.' mantissa with
    | [whole] => (readDigits? whole).isSome
    | [whole, part] => (readDigits? (whole ++ part)).isSome
    | _ => false
  isMantissa && match rest with
    | [] => true
    | _ :: exponent => (readDigits? (unsigned ['+', '-'] exponent)).isSome

def isNumber (s : String) : Bool :=
  let cs := unsigned ['+', '-'] s.toList
  ["inf", "infinity", "nan"].contains (String.ofList cs).toLower || isDecimal cs

def ValueTest.ofText (s : String) : Except DirectiveFault ValueTest :=
  if s == "true" then .ok (.flag true)
  else if s == "false" then .ok (.flag false)
  else if isNumber s then .ok .number
  else match Pattern.ofText s with
    | .ok _ => .ok (.pattern s)
    | .error fault => .error (.pattern fault)

/-- A name and perhaps a value; a second equals sign ends the value. -/
def FieldTest.ofText (s : String) : Except DirectiveFault FieldTest :=
  match splitOn '=' s.toList with
  | name :: value :: _ => do return ⟨.ofList name, some (← ValueTest.ofText (.ofList value))⟩
  | _ => .ok ⟨s, none⟩

namespace Directive

/-- The characters that decide how a directive is divided, each with the one that counts for its part. Blanks around a
directive do not divide it, but its parts are counted off from its start with the blanks. -/
abbrev Cells := List (Char × Char)

def part (cells : Cells) : String := .ofList (cells.map (·.2))

def before (marks : List Char) (cells : Cells) : Cells × Cells := cells.span fun c => !marks.contains c.1

/-- The rank in what follows the equals sign; without a level everything is let through. -/
def rankOf (level : String) : Except DirectiveFault Nat :=
  if level.isEmpty then .ok Severity.trace.rank
  else match levelRank? level with
    | some rank => .ok rank
    | none => .error .level

def rankAfterSpan (tail : String) : Cells → Except DirectiveFault Nat
  | [] => .ok Severity.trace.rank
  | ('=', _) :: level => rankOf (part level ++ tail)
  | _ => .error .malformed

/-- The part on spans, after its opening bracket: a name, a field in braces, or both. The field is looked into last. -/
def spanned (target : Option String) (tail : String) (cells : Cells) : Except DirectiveFault Directive := do
  let (name, rest) := before [']', '\x7b'] cells
  match rest with
  | (']', _) :: rest => return ⟨← rankAfterSpan tail rest, target, some (part name), none⟩
  | ('\x7b', _) :: rest =>
    match before ['\x7d'] rest with
    | (field, _ :: (']', _) :: rest) =>
      if field.isEmpty then throw .malformed
      let rank ← rankAfterSpan tail rest
      let span := if name.isEmpty then none else some (part name)
      return ⟨rank, target, span, some (← FieldTest.ofText (part field))⟩
    | _ => throw .malformed
  | _ => throw .malformed

/-- A directive starts with a word, which is a level if it can be one, or with the part on spans. -/
def ofText (s : String) : Except DirectiveFault Directive :=
  let decisive := strip isBlank s.toList
  let cells : Cells := decisive.zip s.toList
  let tail := String.ofList (s.toList.drop decisive.length)
  match cells with
  | [] => .error .malformed
  | ('[', _) :: rest => spanned none tail rest
  | (c, _) :: _ =>
    if !(isAlphanumeric c || "-:_".toList.contains c) then .error .malformed
    else
      let (word, rest) := before ['=', '['] cells
      match rest with
      | ('=', _) :: level => do return ⟨← rankOf (part level ++ tail), some (part word), none, none⟩
      | _ :: rest => spanned (some (part word)) tail rest
      | [] =>
        match levelRank? (part word ++ tail) with
        | some rank => .ok ⟨rank, none, none, none⟩
        | none => .ok ⟨Severity.trace.rank, some (part word ++ tail), none, none⟩

end Directive

end FilterConsole.Log
