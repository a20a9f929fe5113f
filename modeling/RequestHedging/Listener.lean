import RequestHedging.Policy

/-!
# Listeners

Listeners are told about every attempt of a race that ran to completion.  What they
answer has no effect on the race.
-/

namespace RequestHedging

/-- An observer of completed attempts. -/
inductive Listener (In Out : Type) where
  /-- Any callback on the report; it may fail or crash.  It is seen in the trace by its name. -/
  | callback (name : String) (answer : Report In Out → Except Breakdown Unit)
  /-- Feeds the estimator of a name. -/
  | estimator (name : String)

namespace Listener

variable {In Out : Type}

def callbackDescription : String := Text.described "ListenerFn" [] .chosen

def traceName : Listener In Out → Option String
  | .callback name _ => some name
  | .estimator _ => none

/-- What a listener answers to a report, and the estimators after it. -/
def hear (l : Listener In Out) (now : Instant) (es : Estimators) (r : Report In Out) :
    Except Breakdown Unit × Estimators :=
  match l with
  | .callback _ answer => (answer r, es)
  | .estimator name =>
    match es.get? name with
    | none => (.ok (), es)
    | some e => (.ok (), es.put name (e.learn now r))

end Listener

end RequestHedging
