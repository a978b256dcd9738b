import FilterConsole.Binary64
import FilterConsole.Table
import FilterConsole.Timestamp

/-! Mean latency per resolver. Latencies are added exactly and rounded once the total is known, so the order of the
records does not matter. -/

namespace FilterConsole

/-- One query as the service logged it; without a resolver it was answered by the service itself. -/
structure RoundTrip where
  resolver : Option String
  sent : Timestamp
  received : Timestamp
  deriving DecidableEq, Repr

/-- Nanoseconds from sending to receiving, negative where the clock went back. -/
def RoundTrip.latency (r : RoundTrip) : Int := r.received.since r.sent

structure Tally where
  samples : Nat
  total : Int
  deriving DecidableEq, Repr

structure Latency where
  samples : Nat
  average : Binary64
  deriving DecidableEq, Repr

def Tally.add (t : Option Tally) (latency : Int) : Tally :=
  match t with
  | none => ⟨1, latency⟩
  | some t => ⟨t.samples + 1, t.total + latency⟩

/-- Mean nanoseconds, then milliseconds, each division rounded. -/
def Tally.latency (t : Tally) : Latency :=
  ⟨t.samples, ((Binary64.ofInt t.total).div (.ofInt t.samples)).div (.ofInt 1000000)⟩

/-- Counts and totals per resolver; records without a resolver count nowhere. -/
def tally (records : List RoundTrip) : Table Tally :=
  records.foldl (fun t r => match r.resolver with
    | none => t
    | some name => t.insert name (Tally.add (t.get? name) r.latency)) ∅

def latencies (records : List RoundTrip) : Table Latency :=
  (tally records).map fun _ t => t.latency

end FilterConsole
