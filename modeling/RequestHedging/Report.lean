import RequestHedging.Attempt
import RequestHedging.Duration.Scaled
import RequestHedging.Text.Quoted

/-!
# Reports

What is known of an attempt that ran to completion: the request, the output, whether
it counts as a success, and how long it took.
-/

namespace RequestHedging

/-- Whether the output of an attempt can be returned to the caller. -/
inductive Outcome
  | success
  | failure
deriving DecidableEq

namespace Outcome

def isSuccess : Outcome → Bool
  | success => true
  | failure => false

def text : Outcome → String
  | success => "success"
  | failure => "failure"

def describe : Outcome → String
  | success => "Success"
  | failure => "Failure"

end Outcome

inductive Recovery
  | never
  | retry
  | unavailable
  | unknown
deriving DecidableEq

/-- An output that asks to be tried again is a failure, and so is an unavailable one if those
are handled; all other outputs are successes. -/
def Recovery.outcome (handleUnavailable : Bool) : Recovery → Outcome
  | retry => .failure
  | unavailable => if handleUnavailable then .failure else .success
  | never => .success
  | unknown => .success

structure Report (In Out : Type) where
  input : In
  output : Out
  outcome : Outcome
  /-- The time from issuing this attempt to its completion. -/
  elapsed : Duration
  attempt : Attempt

def Report.describe (r : Report String String) : String :=
  Text.described "AttemptReport"
    [("input", Text.quoted r.input), ("output", Text.quoted r.output),
     ("outcome", r.outcome.describe), ("elapsed", r.elapsed.scaled),
     ("attempt", r.attempt.describe)] .all

end RequestHedging
