import RequestHedging.Failure
import RequestHedging.Report

/-!
# Telemetry

The log records and the measurements of the hedging of one pipeline.  Warnings are
always logged; the course of races is logged, and measured, only where that is
enabled.
-/

namespace RequestHedging

/-- The names and switches that one hedging service reports under. -/
structure Telemetry where
  pipeline : String
  strategy : String
  logs : Bool
  metrics : Bool
deriving DecidableEq

namespace Telemetry

def standardPipeline : String := "default"

def pipelineKey : String := "resilience.pipeline.name"

def strategyKey : String := "resilience.strategy.name"

def eventKey : String := "resilience.event.name"

def attemptKey : String := "resilience.attempt.index"

def meterName : String := "hedgerow"

def meterVersion : String := "v0.1.0"

def meterSchema : String := "https:" ++ "//opentelemetry.io/schemas/1.47.0"

def counterName : String := "resilience.event"

def counterDescription : String := "Emitted upon the occurrence of a resilience event."

def counterUnit : String := "u64"

def describe (t : Telemetry) : String :=
  Text.described "TelemetryHelper"
    [("pipeline_name", Text.quoted t.pipeline), ("strategy_name", Text.quoted t.strategy),
     ("event_reporter", Text.describedOption (if t.metrics then some "Counter<u64>" else none)),
     ("logs_enabled", Text.describedBool t.logs)] .all

end Telemetry

inductive Instrument
  | meter (name version schema : String)
  | counter (name description unit : String)
deriving DecidableEq

def Telemetry.instruments (t : Telemetry) : List Instrument :=
  if t.metrics then
    [.meter meterName meterVersion meterSchema,
     .counter counterName counterDescription counterUnit]
  else []

/-- Words are reported as the numbers they stand for. -/
instance coeCount : Coe UInt32 Nat := ⟨UInt32.toNat⟩

/-- What is measured: every count is of one. -/
inductive Measurement
  /-- A hedge was issued. -/
  | hedge (attempt : Attempt)
  /-- Every issued attempt failed; the number of hedges among them. -/
  | exhausted (hedges : UInt32)
deriving DecidableEq

namespace Measurement

def event : Measurement → String
  | hedge _ => "hedge"
  | exhausted _ => "hedge_exhausted"

def index : Measurement → Nat
  | hedge a => a.index
  | exhausted hedges => hedges

def attributes (m : Measurement) (t : Telemetry) : List (String × String) :=
  [(Telemetry.pipelineKey, t.pipeline), (Telemetry.strategyKey, t.strategy),
   (Telemetry.eventKey, m.event)]

end Measurement

inductive Level
  | debug
  | info
  | warn
deriving DecidableEq

def Level.text : Level → String
  | debug => "DEBUG"
  | info => "INFO"
  | warn => "WARN"

inductive FieldValue
  | text (s : String)
  | number (n : Nat)
deriving DecidableEq

inductive Notice
  | resolverCrashed
  | policyFailed (error : String)
  | listenerFailed (attempt : Attempt) (position : Nat) (error : String)
  | listenerCrashed (attempt : Attempt) (position : Nat)
  | hedgeIssued (attempt : Attempt)
  | raceEnded (attempt : Attempt) (issued : UInt32) (outcome : Outcome)
  | deadlinePassed (issued : UInt32)
deriving DecidableEq

namespace Notice

def name : Notice → String
  | resolverCrashed => "hedgerow.resolver_panicked"
  | policyFailed _ => "hedgerow.policy_failed"
  | listenerFailed .. => "hedgerow.listener_failed"
  | listenerCrashed .. => "hedgerow.listener_panicked"
  | hedgeIssued _ => "hedgerow.hedge"
  | raceEnded .. => "hedgerow.race"
  | deadlinePassed _ => "hedgerow.deadline"

def level : Notice → Level
  | hedgeIssued _ => .info
  | raceEnded .. => .debug
  | deadlinePassed _ => .debug
  | _ => .warn

/-- Whether a record is a warning; warnings are logged always. -/
def isWarning (n : Notice) : Bool := n.level = .warn

/-- The fields of a log record beside the names of pipeline and strategy. -/
def details : Notice → List (String × FieldValue)
  | resolverCrashed =>
    [("message", .text "hedging resolver panicked, sending the request without hedges")]
  | policyFailed error =>
    [("error", .text error),
     ("message", .text "hedge policy failed, sending the request without hedges")]
  | listenerFailed a position error =>
    [(Telemetry.attemptKey, .number a.index), ("listener.position", .number position),
     ("error", .text error), ("message", .text "hedge listener failed")]
  | listenerCrashed a position =>
    [(Telemetry.attemptKey, .number a.index), ("listener.position", .number position),
     ("message", .text "hedge listener panicked")]
  | hedgeIssued a => [(Telemetry.attemptKey, .number a.index)]
  | raceEnded a issued outcome =>
    [(Telemetry.attemptKey, .number a.index),
     ("hedgerow.attempts_issued", .number issued), ("hedgerow.outcome", .text outcome.text)]
  | deadlinePassed issued => [("hedgerow.attempts_issued", .number issued)]

def fields (n : Notice) (t : Telemetry) : List (String × FieldValue) :=
  ("pipeline.name", .text t.pipeline) :: ("strategy.name", .text t.strategy) :: n.details

end Notice

end RequestHedging
