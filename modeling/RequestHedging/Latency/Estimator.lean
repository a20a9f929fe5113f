import RequestHedging.Binary64
import RequestHedging.Latency.Histogram
import RequestHedging.Latency.Options
import RequestHedging.Report

/-!
# Latency estimators

An estimator answers percentile queries over the latencies recorded in a sliding
window.  It keeps a ring of histograms and writes each sample into all of them, and
it reads the oldest.  Each step of the window the oldest histogram is emptied and
becomes the newest, so the histogram read holds the samples of the steps since it was
last emptied.

Emptying is lazy: an operation that looks at the window first catches up on the steps
passed since the last one that did.
-/

namespace RequestHedging.Latency

/-- The latency below which a fraction of the samples of a histogram lies: the greatest latency of
its bucket, but no more than the largest latency; zero without samples. -/
def Options.quantile (o : Options) (h : Histogram) (fraction : Nat) : Duration :=
  if h.size = 0 then Duration.zero
  else
    let value := h.valueAtRank (Binary64.rank fraction h.size)
    (Duration.ofMicros (min (bucketHigh value) o.maxMicros)).min o.maxLatency

/-- A sliding window of latencies. -/
structure Estimator where
  options : Options
  ring : Vector Histogram options.rotations.toNat
  /-- The position of the histogram that is read. -/
  oldest : Fin options.rotations.toNat
  /-- The clock reading at which the estimator was made. -/
  created : Instant
  /-- The time since then, in nanoseconds, from which the oldest histogram is emptied. -/
  nextRotation : UInt64

namespace Estimator

def new (options : Options) (now : Instant) : Estimator where
  options := options
  ring := Vector.replicate _ .empty
  oldest := ⟨0, options.rotations_pos⟩
  created := now
  nextRotation := options.step.wordNanos

/-- The histogram that queries read. -/
def readable (e : Estimator) : Histogram := e.ring[e.oldest]

/-- Empties the oldest histogram and makes it the newest. -/
def turn (e : Estimator) : Estimator :=
  { e with
    ring := e.ring.set e.oldest .empty
    oldest := ⟨(e.oldest + 1) % e.options.rotations.toNat, Nat.mod_lt _ e.options.rotations_pos⟩ }

def turns (e : Estimator) : Nat → Estimator
  | 0 => e
  | n + 1 => e.turn.turns n

/-- The time between two turns as a word, never zero. -/
def stepWord (e : Estimator) : UInt64 :=
  if e.options.step.wordNanos = 0 then 1 else e.options.step.wordNanos

/-- The time since the estimator was made as a saturating word. -/
def reading (e : Estimator) (now : Instant) : UInt64 := (elapsed e.created now).wordNanos

/-- How many turns are due at a reading that is not before the next rotation. -/
def due (e : Estimator) (reading : UInt64) : UInt64 := (reading - e.nextRotation) / e.stepWord + 1

/-- Catches up on the turns due by now.  More turns than the ring has places empty no more. -/
def rotate (e : Estimator) (now : Instant) : Estimator :=
  let reading := e.reading now
  if reading < e.nextRotation then e
  else
    let due := e.due reading
    { e.turns (min due.toNat e.options.rotations.toNat) with
      nextRotation := Word.add e.nextRotation (Word.mul due e.stepWord) }

def write (e : Estimator) (micros : Nat) : Estimator :=
  { e with ring := e.ring.map (·.record micros) }

/-- Records how long an attempt took; failed attempts are ignored. -/
def record (e : Estimator) (now : Instant) (latency : Duration) (outcome : Outcome) : Estimator :=
  match outcome with
  | .failure => e
  | .success => (e.rotate now).write (min latency.wordMicros.toNat e.options.maxMicros)

def sampleCount (e : Estimator) (now : Instant) : Nat × Estimator :=
  let e := e.rotate now
  (e.readable.size, e)

def quantile (e : Estimator) (fraction : Nat) : Duration := e.options.quantile e.readable fraction

def percentile (e : Estimator) (now : Instant) (p : Binary64) : Duration × Estimator :=
  let e := e.rotate now
  (e.quantile p.fraction, e)

def learn {In Out : Type} (e : Estimator) (now : Instant) (r : Report In Out) : Estimator :=
  e.record now r.elapsed r.outcome

def describe (e : Estimator) : String :=
  Text.described "LatencyEstimator"
    [("options", e.options.describe), ("oldest", String.ofList (Text.numeral e.oldest))] .chosen

end Estimator

end RequestHedging.Latency
