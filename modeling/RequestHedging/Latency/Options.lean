import RequestHedging.Duration.Scaled
import RequestHedging.Text.Described

/-!
# Options of a latency estimator

How much history an estimator looks at, in how many steps the window slides, and the
largest latency it tells apart.  Values too small are raised to the least sensible
ones, so options in use are always sound.
-/

namespace RequestHedging.Latency

structure Options where
  /-- The span of history that counts. -/
  window : Duration
  /-- The number of steps in which the window slides. -/
  rotations : UInt32
  /-- The largest latency tracked; longer ones count as this. -/
  maxLatency : Duration
  milli_le_window : 1000000 ≤ window.nanos := by decide
  rotations_pos : 0 < rotations.toNat := by decide
  micro_le_maxLatency : 1000 ≤ maxLatency.nanos := by decide
deriving DecidableEq

namespace Options

/-- Two minutes in three steps, latencies up to a minute. -/
def standard : Options where
  window := Duration.ofSeconds 120
  rotations := 3
  maxLatency := Duration.ofSeconds 60

instance : Inhabited Options := ⟨standard⟩

/-- Options with another window, of at least a millisecond. -/
def withWindow (o : Options) (window : Duration) : Options :=
  { o with
    window := window.max (Duration.ofMillis 1)
    milli_le_window := by
      rw [Duration.nanos_max]
      exact Nat.le_max_right _ _ }

def withRotations (o : Options) (rotations : UInt32) : Options :=
  { o with
    rotations := if rotations = 0 then 1 else rotations
    rotations_pos := by
      split
      · decide
      · rename_i h
        exact Nat.pos_of_ne_zero fun hz => h (UInt32.toNat_inj.1 hz) }

def withMaxLatency (o : Options) (maxLatency : Duration) : Options :=
  { o with
    maxLatency := maxLatency.max (Duration.ofMicros 1)
    micro_le_maxLatency := by
      rw [Duration.nanos_max]
      exact Nat.le_max_right _ _ }

/-- The time between two steps of the window, at least a nanosecond. -/
def step (o : Options) : Duration :=
  (o.window.dividedBy o.rotations.toNat).max (Duration.ofNanos 1)

/-- The largest latency in whole microseconds, at least two. -/
def maxMicros (o : Options) : Nat := max 2 o.maxLatency.wordMicros.toNat

def describe (o : Options) : String :=
  Text.described "EstimatorOptions"
    [("window", o.window.scaled), ("rotations", String.ofList (Text.numeral o.rotations.toNat)),
     ("max_latency", o.maxLatency.scaled)] .all

end Options

inductive Change
  | window (d : Duration)
  | rotations (n : UInt32)
  | maxLatency (d : Duration)

def Options.change (o : Options) : Change → Options
  | .window d => o.withWindow d
  | .rotations n => o.withRotations n
  | .maxLatency d => o.withMaxLatency d

def Options.ofChanges (changes : List Change) : Options := changes.foldl change standard

end RequestHedging.Latency
