import FilterConsole.Calendar

/-! Dates and times of TOML. They are checked against the calendar and the clock. -/

namespace FilterConsole

def isLeapYear (year : Nat) : Bool := year % 4 == 0 && (year % 100 != 0 || year % 400 == 0)

def daysInMonth (year month : Nat) : Nat :=
  if month == 2 then if isLeapYear year then 29 else 28
  else if month == 4 || month == 6 || month == 9 || month == 11 then 30
  else 31

namespace Toml

def pairIn (low high : Nat) (tens units : Char) : Bool :=
  match readDigits? [tens, units] with
  | some n => low ≤ n && n ≤ high
  | none => false

def isDate : List Char → Bool
  | [y₁, y₂, y₃, y₄, '-', m₁, m₂, '-', d₁, d₂] =>
    match readDigits? [y₁, y₂, y₃, y₄], readDigits? [m₁, m₂] with
    | some year, some month => 1 ≤ month && month ≤ 12 && pairIn 1 (daysInMonth year month) d₁ d₂
    | _, _ => false
  | _ => false

def isSecond : List Char → Bool
  | s₁ :: s₂ :: r =>
    pairIn 0 60 s₁ s₂ &&
      match r with
      | [] => true
      | '.' :: r => (readDigits? r).isSome
      | _ => false
  | _ => false

def isTime : List Char → Bool
  | h₁ :: h₂ :: ':' :: m₁ :: m₂ :: r =>
    pairIn 0 23 h₁ h₂ && pairIn 0 59 m₁ m₂ &&
      match r with
      | [] => true
      | ':' :: r => isSecond r
      | _ => false
  | _ => false

def isZonedTime (cs : List Char) : Bool :=
  let (time, zone) := cs.span fun c => c.isDigit || c == ':' || c == '.'
  isTime time &&
    match zone with
    | [] => true
    | ['Z'] | ['z'] => true
    | [sign, h₁, h₂, ':', m₁, m₂] =>
      (sign == '+' || sign == '-') && pairIn 0 23 h₁ h₂ && pairIn 0 59 m₁ m₂
    | _ => false

def isInstant (cs : List Char) : Bool :=
  isDate cs || isTime cs ||
    (isDate (cs.take 10) &&
      match cs.drop 10 with
      | c :: r => (c == 'T' || c == 't' || c == ' ') && isZonedTime r
      | [] => false)

end Toml

end FilterConsole
