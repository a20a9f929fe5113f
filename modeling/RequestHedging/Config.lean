import RequestHedging.Policy.Percentile

/-!
# Configurations

A configuration says in plain values how a percentile policy and the estimator behind
it are set up.  It may hold any values; those that make no sense are refused when the
policy is built, the first of them in a fixed order.
-/

namespace RequestHedging

/-- The values from which a percentile policy and its estimator are built. -/
structure Config where
  /-- Whether requests are hedged at all. -/
  enabled : Bool
  percentile : Binary64
  maxHedges : UInt32
  minSamples : UInt64
  window : Duration
  rotations : UInt32
  maxLatency : Duration
deriving DecidableEq

namespace Config

def standardPercentile : Binary64 := ⟨0x3FEE666666666666⟩

def standard : Config where
  enabled := true
  percentile := standardPercentile
  maxHedges := 1
  minSamples := 1
  window := Duration.ofSeconds 120
  rotations := 3
  maxLatency := Duration.ofSeconds 60

instance : Inhabited Config := ⟨standard⟩

/-- Whether two configurations have the same values, percentiles being compared as numbers. -/
def agrees (a b : Config) : Bool :=
  a.enabled == b.enabled && a.percentile.sameNumber b.percentile &&
    a.maxHedges == b.maxHedges && a.minSamples == b.minSamples && a.window == b.window &&
    a.rotations == b.rotations && a.maxLatency == b.maxLatency

def options (c : Config) : Latency.Options :=
  ((Latency.Options.standard.withWindow c.window).withRotations c.rotations).withMaxLatency
    c.maxLatency

/-- Builds the policy and its estimator.  A policy that is not enabled accepts no request. -/
def build {In : Type} (c : Config) (now : Instant) :
    Except ConfigFault (PercentilePolicy In × Latency.Estimator) :=
  if c.window.isZero then .error .zeroWindow
  else if c.rotations = 0 then .error .zeroRotations
  else if c.maxLatency.isZero then .error .zeroMaxLatency
  else
    (PercentilePolicy.new c.percentile).map fun (p : PercentilePolicy In) =>
      (((p.withMaxHedges c.maxHedges).withMinSamples c.minSamples).onlyFor fun _ => c.enabled,
        Latency.Estimator.new c.options now)

end Config

end RequestHedging
