/-! What can be wrong with a command line. -/

namespace FilterConsole

inductive NumeralFault where
  | empty
  | invalidDigit
  | tooLarge
  deriving DecidableEq, Repr

def NumeralFault.text : NumeralFault → String
  | empty => "cannot parse integer from empty string"
  | invalidDigit => "invalid digit found in string"
  | tooLarge => "number too large to fit in target type"

inductive UsageError where
  | sortField (value : String)
  | sortDirection (value : String)
  | logFormat (value : String)
  | address (value : String)
  | seconds (fault : NumeralFault)
  | shape
  deriving DecidableEq, Repr

def UsageError.reason : UsageError → Option String
  | sortField value => some ("unknown sort field '" ++ value ++ "'")
  | sortDirection value => some ("unknown sort direction '" ++ value ++ "'")
  | logFormat value => some ("unknown log format '" ++ value ++ "'")
  | address value => some ("Invalid IPv4 address: " ++ value)
  | seconds fault => some fault.text
  | shape => none

end FilterConsole
