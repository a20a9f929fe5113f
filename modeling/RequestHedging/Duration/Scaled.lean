import RequestHedging.Duration
import RequestHedging.Text.Numeral

/-!
# Durations in their largest fitting unit

`2s`, `1.5ms`, `12.345µs`, `0ns`: the largest of seconds, milliseconds, microseconds
and nanoseconds that fits into the duration at least once, with the exact fraction.
-/

namespace RequestHedging.Duration

/-- The unit a duration is shown in: its symbol, and how many decimal places of it a
nanosecond is. -/
def scale (d : Duration) : Nat × String :=
  if 1000000000 ≤ d.nanos then (9, "s")
  else if 1000000 ≤ d.nanos then (6, "ms")
  else if 1000 ≤ d.nanos then (3, "µs")
  else (0, "ns")

def scaled (d : Duration) : String :=
  String.ofList (Text.decimal d.scale.1 d.nanos) ++ d.scale.2

end RequestHedging.Duration
