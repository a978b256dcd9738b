import FilterConsole.Endpoint
import FilterConsole.Text.Decimal

/-! Why an operation of the console fails, what it tells the operator, and where it sends him. -/

namespace FilterConsole

inductive TransportFailure where
  | notDelivered (endpoint : Endpoint)
  | refused (status : Nat) (endpoint : Endpoint)
  | undecodable (endpoint : Endpoint)
  | malformedOverride (domain : String) (octets : List UInt8)
  | reported (text : String)
  deriving DecidableEq, Repr

def octetList (octets : List UInt8) : String :=
  "[" ++ String.intercalate ", " (octets.map fun o => numeral o.toNat) ++ "]"

def TransportFailure.text : TransportFailure → String
  | notDelivered e => "request error for " ++ e.name
  | refused status e => "HTTP " ++ numeral status ++ " for " ++ e.name
  | undecodable e => "decode error for " ++ e.name
  | malformedOverride domain octets => "malformed override address for " ++ domain ++ ": " ++ octetList octets
  | reported text => text

inductive ConsoleError where
  | unauthorized
  | missingCredential
  | transport (failure : TransportFailure)
  | timeout (polls : UInt32)
  | cancelled
  | updateInProgress
  | invalidDomainName (name : String)
  | invalidAddress (text : String)
  | invalidAutoUpdateInterval (seconds : UInt64)
  deriving DecidableEq, Repr

namespace ConsoleError

def message : ConsoleError → String
  | unauthorized => "Credential rejected by the filtering service"
  | missingCredential => "No credential stored; log in first"
  | transport failure => "Transport error: " ++ failure.text
  | timeout polls => "Filter update not visible after " ++ numeral polls.toNat ++ " polls"
  | cancelled => "Filter update watch cancelled"
  | updateInProgress => "A filter update is already being watched"
  | invalidDomainName name => "Invalid domain name: " ++ name
  | invalidAddress text => "Invalid IPv4 address: " ++ text
  | invalidAutoUpdateInterval seconds => "Invalid auto-update interval: " ++ numeral seconds.toNat

def requiresLogin : ConsoleError → Bool
  | unauthorized | missingCredential => true
  | _ => false

end ConsoleError

inductive Surface where
  | login
  | notice
  deriving DecidableEq, Repr

def ConsoleError.surface (loginOnAnyFailure : Bool) (e : ConsoleError) : Surface :=
  if e.requiresLogin || loginOnAnyFailure then .login else .notice

end FilterConsole
