import FilterConsole.Text.Decimal

/-! Quoted texts of TOML: literal ones between single quotes, and basic ones with escapes between double quotes. Three
quotes in a row enclose a text of several lines. -/

namespace FilterConsole.Toml

abbrev singleQuote : Char := '\x27'

def isSpace (c : Char) : Bool := c == ' ' || c == '\t'

def isPlain (c : Char) : Bool := c == '\t' || (' ' ≤ c && c != '\x7f')

def breaksLine (c : Char) (rest : List Char) : Bool :=
  c == '\n' || (c == '\r' && rest.head? == some '\n')

def afterBreak? : List Char → Option (List Char)
  | '\n' :: r => some r
  | '\r' :: '\n' :: r => some r
  | _ => none

def isHexDigit (c : Char) : Bool := c.isDigit || ('a' ≤ c && c ≤ 'f') || ('A' ≤ c && c ≤ 'F')

def digitValue (c : Char) : Nat :=
  if c.isDigit then c.toNat - 48 else if 'a' ≤ c then c.toNat - 87 else c.toNat - 55

def valueIn (base : Nat) (digits : List Char) : Nat :=
  digits.foldl (fun n c => n * base + digitValue c) 0

def codePoint? (digits : List Char) : Option Char :=
  if digits.all isHexDigit && (valueIn 16 digits).isValidChar then some (.ofNat (valueIn 16 digits)) else none

def escaped? : Char → Option Char
  | 'b' => some '\x08'
  | 't' => some '\t'
  | 'n' => some '\n'
  | 'f' => some '\x0c'
  | 'r' => some '\r'
  | 'e' => some '\x1b'
  | '"' => some '"'
  | '\\' => some '\\'
  | _ => none

def withFront (cs : List Char) (scanned : Option (List Char × List Char)) : Option (List Char × List Char) :=
  scanned.map fun (s, rest) => (cs ++ s, rest)

def scanLiteral (lines : Bool) : List Char → Option (List Char × List Char)
  | [] => none
  | c :: r =>
    if c == singleQuote then
      if !lines then some ([], r)
      else match r with
        | '\x27' :: '\x27' :: r =>
          match r with
          | '\x27' :: '\x27' :: r => some ([c, c], r)
          | '\x27' :: r => some ([c], r)
          | r => some ([], r)
        | _ => withFront [c] (scanLiteral lines r)
    else if isPlain c || (lines && breaksLine c r) then withFront [c] (scanLiteral lines r)
    else none

/-- A backslash at the end of a line drops the break and the blanks around it. The scan stands in the text, behind
such a backslash with the break ahead, or at the blanks of a later line. -/
inductive Fold where
  | inText
  | beforeBreak
  | afterBreak
  deriving DecidableEq

def scanBasic (lines : Bool) (fold : Fold) : List Char → Option (List Char × List Char)
  | [] => none
  | c :: r =>
    if fold = .beforeBreak then
      if isSpace c || (c == '\r' && breaksLine c r) then scanBasic lines .beforeBreak r
      else if c == '\n' then scanBasic lines .afterBreak r
      else none
    else if fold = .afterBreak && (isSpace c || breaksLine c r) then scanBasic lines .afterBreak r
    else if c == '"' then
      if !lines then some ([], r)
      else match r with
        | '"' :: '"' :: r =>
          match r with
          | '"' :: '"' :: r => some ([c, c], r)
          | '"' :: r => some ([c], r)
          | r => some ([], r)
        | _ => withFront [c] (scanBasic lines .inText r)
    else if c == '\\' then
      match r with
      | 'x' :: h₁ :: h₂ :: r =>
        (codePoint? [h₁, h₂]).bind fun c => withFront [c] (scanBasic lines .inText r)
      | 'u' :: h₁ :: h₂ :: h₃ :: h₄ :: r =>
        (codePoint? [h₁, h₂, h₃, h₄]).bind fun c => withFront [c] (scanBasic lines .inText r)
      | 'U' :: h₁ :: h₂ :: h₃ :: h₄ :: h₅ :: h₆ :: h₇ :: h₈ :: r =>
        (codePoint? [h₁, h₂, h₃, h₄, h₅, h₆, h₇, h₈]).bind fun c =>
          withFront [c] (scanBasic lines .inText r)
      | e :: r =>
        if lines && e == '\n' then scanBasic lines .afterBreak r
        else if lines && (isSpace e || breaksLine e r) then scanBasic lines .beforeBreak r
        else (escaped? e).bind fun c => withFront [c] (scanBasic lines .inText r)
      | [] => none
    else if isPlain c || (lines && breaksLine c r) then withFront [c] (scanBasic lines .inText r)
    else none

def scanQuoted : List Char → Option (String × List Char)
  | '"' :: r => (scanBasic false .inText r).map fun (s, rest) => (.ofList s, rest)
  | '\x27' :: r => (scanLiteral false r).map fun (s, rest) => (.ofList s, rest)
  | _ => none

/-- A quoted text, and what follows it. A line break right behind three opening quotes is not part of it. -/
def scanText : List Char → Option (String × List Char)
  | '"' :: '"' :: '"' :: r =>
    (scanBasic true .inText ((afterBreak? r).getD r)).map fun (s, rest) => (.ofList s, rest)
  | '\x27' :: '\x27' :: '\x27' :: r =>
    (scanLiteral true ((afterBreak? r).getD r)).map fun (s, rest) => (.ofList s, rest)
  | cs => scanQuoted cs

end FilterConsole.Toml
