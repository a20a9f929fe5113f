import RequestHedging.Estimators
import RequestHedging.Policy.Percentile

/-!
# Policies

A policy decides once per request, at its start, how it is hedged.  It may fail or
crash instead of deciding; the request is then sent without hedges.
-/

namespace RequestHedging

inductive Breakdown
  | failed (failure : Failure)
  | crashed (crash : Crash)
deriving DecidableEq

inductive Policy (In : Type) where
  /-- The same decision for every request. -/
  | fixed (decision : Decision)
  /-- Any rule on the request.  A rule with a name is seen in the trace when it is asked. -/
  | rule (name : Option String) (decide : In → Except Breakdown Decision)
  /-- A percentile of the latencies in the estimator of a name. -/
  | percentile (estimator : String) (policy : PercentilePolicy In)

namespace Policy

variable {In : Type}

def disabled : Policy In := .fixed .disabled

def ruleDescription : String := Text.described "PolicyFn" [] .chosen

def traceName : Policy In → Option String
  | .rule name _ => name
  | _ => none

def decide (p : Policy In) (now : Instant) (es : Estimators) (input : In) :
    Except Breakdown Decision × Estimators :=
  match p with
  | .fixed d => (.ok d, es)
  | .rule _ f => (f input, es)
  | .percentile name q =>
    match es.get? name with
    | none => (.error (.failed (.unexplained .policy)), es)
    | some e =>
      let (d, e) := q.decide e now input
      (.ok d, es.put name e)

end Policy

end RequestHedging
