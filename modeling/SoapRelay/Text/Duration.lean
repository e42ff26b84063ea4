/-!
# Spans of time in messages

A span is written in the largest of the units `s`, `ms`, `µs` and `ns` in which it is at least
one, with the exact fraction and no trailing zeros.
-/

namespace SoapRelay

/-- A span of time, in nanoseconds. -/
structure Duration where
  nanos : Nat
  deriving DecidableEq, Repr

namespace Duration

def ofMicros (n : Nat) : Duration := ⟨n * 1000⟩

def ofMillis (n : Nat) : Duration := ⟨n * 1000000⟩

/-- The digits of a fraction below `unit`, a power of ten, without trailing zeros. -/
def fraction (unit part : Nat) : List Char :=
  let digits := (Nat.toDigits 10 (unit + part)).drop 1
  (digits.reverse.dropWhile (· = '0')).reverse

def inUnit (nanos unit : Nat) (name : String) : String :=
  let digits := fraction unit (nanos % unit)
  let whole := toString (nanos / unit)
  if digits.isEmpty then whole ++ name else whole ++ "." ++ String.ofList digits ++ name

def text (d : Duration) : String :=
  if d.nanos ≥ 1000000000 then inUnit d.nanos 1000000000 "s"
  else if d.nanos ≥ 1000000 then inUnit d.nanos 1000000 "ms"
  else if d.nanos ≥ 1000 then inUnit d.nanos 1000 "µs"
  else toString d.nanos ++ "ns"

end Duration

end SoapRelay
