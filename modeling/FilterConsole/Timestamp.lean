/-! Instants as the filtering service writes them: whole seconds since the epoch and nanoseconds beside them. The
nanoseconds may exceed a second; order and distance take them as they are. -/

namespace FilterConsole

/-- Seconds since 1970-01-01 00:00:00 UTC and nanoseconds added to them. -/
structure Timestamp where
  secs : Int64
  nanos : UInt32
  deriving DecidableEq, Repr, Inhabited

namespace Timestamp

def ofSecs (n : UInt64) : Timestamp :=
  ⟨if n.toNat < 0x8000000000000000 then Int64.ofNat n.toNat else Int64.maxValue, 0⟩

def since (t earlier : Timestamp) : Int :=
  (t.secs.toInt - earlier.secs.toInt) * 1000000000 + t.nanos.toNat - earlier.nanos.toNat

def cmp (s t : Timestamp) : Ordering :=
  (compare s.secs.toInt t.secs.toInt).then (compare s.nanos.toNat t.nanos.toNat)

end Timestamp

end FilterConsole
