import RequestHedging.Config
import RequestHedging.Policy

/-!
# Sampling

Single steps on an estimator, or on a percentile policy and the estimator behind it,
under a clock moved by hand.  Every answer that is not a description also tells the
position of the histogram that is read, which looking at it does not change.
-/

namespace RequestHedging.Rehearsal

inductive Sampling
  /-- Records a latency so many times. -/
  | record (latency : Duration) (outcome : Outcome) (times : Nat)
  /-- Records so many successful latencies at equal distances. -/
  | recordRange (start distance : Duration) (count : Nat)
  /-- Delivers a report. -/
  | report (report : Report Unit Unit)
  | advance (d : Duration)
  | count
  | percentiles (ps : List Binary64)
  | options
  | describe

inductive Sampled
  | recorded (oldest : Nat)
  | count (count oldest : Nat)
  | latencies (latencies : List Duration) (oldest : Nat)
  | options (options : Latency.Options)
  | description (text : String)

structure Bench where
  now : Instant
  estimator : Latency.Estimator

namespace Bench

def recordAll (b : Bench) (latencies : List Duration) (outcome : Outcome) : Bench :=
  { b with estimator := latencies.foldl (fun e d => e.record b.now d outcome) b.estimator }

def percentiles (now : Instant) : List Binary64 → Latency.Estimator →
    List Duration × Latency.Estimator
  | [], e => ([], e)
  | p :: ps, e =>
    let (d, e) := e.percentile now p
    let (ds, e) := percentiles now ps e
    (d :: ds, e)

def recorded (b : Bench) : Sampled × Bench := (.recorded b.estimator.oldest, b)

def sample (b : Bench) : Sampling → Sampled × Bench
  | .record latency outcome times => (b.recordAll (List.replicate times latency) outcome).recorded
  | .recordRange start distance count =>
    let latencies := (List.range count).map fun i =>
      Duration.ofNanos (start.nanos + i * distance.nanos)
    (b.recordAll latencies .success).recorded
  | .report r => { b with estimator := b.estimator.learn b.now r }.recorded
  | .advance d => { b with now := b.now + d.nanos }.recorded
  | .count =>
    let (n, e) := b.estimator.sampleCount b.now
    (.count n e.oldest, { b with estimator := e })
  | .percentiles ps =>
    let (ds, e) := percentiles b.now ps b.estimator
    (.latencies ds e.oldest, { b with estimator := e })
  | .options => (.options b.estimator.options, b)
  | .describe => (.description b.estimator.describe, b)

end Bench

inductive Trial
  | sampling (s : Sampling)
  | decide (input : String)
  | percentile
  | describe

inductive Tried
  | sampled (s : Sampled)
  | decision (d : Decision)
  | percentile (p : Binary64)
  | description (text : String)

def Bench.trial (b : Bench) (p : PercentilePolicy String) : Trial → Tried × Bench
  | .sampling s =>
    let (answer, b) := b.sample s
    (.sampled answer, b)
  | .decide input =>
    let (d, e) := p.decide b.estimator b.now input
    (.decision d, { b with estimator := e })
  | .percentile => (.percentile p.percentile, b)
  | .describe => (.description (p.describe b.estimator), b)

def Bench.samples (b : Bench) : List Sampling → List Sampled
  | [] => []
  | s :: steps =>
    let (answer, b) := b.sample s
    answer :: b.samples steps

def Bench.trials (b : Bench) (p : PercentilePolicy String) : List Trial → List Tried
  | [] => []
  | t :: steps =>
    let (answer, b) := b.trial p t
    answer :: b.trials p steps

structure Reading where
  latencies : List Duration
  count : Nat
  oldest : Nat

/-- Looks at the estimator of a name: at percentiles first, then at the number of samples. -/
def reading (now : Instant) (es : Estimators) (name : String) (ps : List Binary64) :
    Option Reading × Estimators :=
  match es.get? name with
  | none => (none, es)
  | some e =>
    let (latencies, e) := Bench.percentiles now ps e
    let (count, e) := e.sampleCount now
    (some ⟨latencies, count, e.oldest⟩, es.put name e)

end RequestHedging.Rehearsal
