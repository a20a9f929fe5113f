import RequestHedging.Binary64.Text
import RequestHedging.Decision
import RequestHedging.Failure
import RequestHedging.Latency.Estimator

/-!
# Percentile policies

A percentile policy hedges a request once it has taken longer than a fraction of the
recent successful attempts.  It reads the delay from an estimator, and keeps hedging
off while the estimator holds too few samples.
-/

namespace RequestHedging

inductive ConfigFault
  | zeroWindow
  | zeroRotations
  | zeroMaxLatency
  | percentileOutOfRange (percentile : Binary64)
deriving DecidableEq

namespace ConfigFault

def message : ConfigFault → String
  | zeroWindow => "window must be greater than zero"
  | zeroRotations => "rotations must be at least 1"
  | zeroMaxLatency => "max_latency must be greater than zero"
  | percentileOutOfRange p => "percentile must be within [0, 1], got " ++ p.text .plain

def failure (f : ConfigFault) : Failure := .because .config f.message

end ConfigFault

/-- A policy that hedges at a percentile of recent latencies. -/
structure PercentilePolicy (In : Type) where
  percentile : Binary64
  /-- The number of hedges a request may get. -/
  maxHedges : UInt32
  /-- The number of samples from which on requests are hedged. -/
  minSamples : UInt64
  /-- The requests that may be hedged. -/
  accepts : In → Bool
  isFraction : percentile.isFraction = true

namespace PercentilePolicy

variable {In : Type}

/-- A policy with one hedge from the first sample on, for all requests; the percentile must be
within zero and one. -/
def new (percentile : Binary64) : Except ConfigFault (PercentilePolicy In) :=
  if h : percentile.isFraction = true then .ok ⟨percentile, 1, 1, fun _ => true, h⟩
  else .error (.percentileOutOfRange percentile)

def withMaxHedges (p : PercentilePolicy In) (n : UInt32) : PercentilePolicy In :=
  { p with maxHedges := n }

def withMinSamples (p : PercentilePolicy In) (n : UInt64) : PercentilePolicy In :=
  { p with minSamples := n }

/-- The policy for only those requests that pass a test, whatever it accepted before. -/
def onlyFor (p : PercentilePolicy In) (accepts : In → Bool) : PercentilePolicy In :=
  { p with accepts := accepts }

def decide (p : PercentilePolicy In) (e : Latency.Estimator) (now : Instant) (input : In) :
    Decision × Latency.Estimator :=
  if p.accepts input then
    let (count, e) := e.sampleCount now
    if count < p.minSamples.toNat then (.disabled, e)
    else
      let (delay, e) := e.percentile now p.percentile
      (⟨p.maxHedges, some delay⟩, e)
  else (.noHedges, e)

def describe (p : PercentilePolicy In) (e : Latency.Estimator) : String :=
  Text.described "PercentilePolicy"
    [("percentile", p.percentile.text .described),
     ("max_hedges", String.ofList (Text.numeral p.maxHedges.toNat)),
     ("min_samples", String.ofList (Text.numeral p.minSamples.toNat)),
     ("estimator", e.describe)] .chosen

end PercentilePolicy

end RequestHedging
