/-!
# Counters of a registry

Counters wrap around at 64 bits. The round-trip time is an average that each completed call moves:
`n` calls of average `a` and one more of `x` give `(x + n * a) / (n + 1)`, rounded down, where sum
and product stop at the largest counter.
-/

namespace SoapRelay

structure RegistryStats where
  registered : UInt64
  completed : UInt64
  timedOut : UInt64
  cancelled : UInt64
  /-- Replies that found nobody waiting. -/
  late : UInt64
  /-- The average round trip of completed calls, in microseconds. -/
  roundTrip : UInt64
  samples : UInt64
  deriving DecidableEq, Repr

namespace RegistryStats

def zero : RegistryStats := ⟨0, 0, 0, 0, 0, 0, 0⟩

def largest : Nat := 0xffffffffffffffff

/-- The average of `n` calls and one more of `x`. -/
def average (n a x : Nat) : Nat :=
  min largest (x + min largest (n * a)) / (n + 1)

/-- Takes the round trip of a completed call into the average. -/
def addRoundTrip (s : RegistryStats) (micros : Nat) : RegistryStats :=
  let x := (UInt64.ofNat micros).toNat
  { s with
    roundTrip := UInt64.ofNat (average s.samples.toNat s.roundTrip.toNat x)
    samples := s.samples + 1 }

end RegistryStats

end SoapRelay
