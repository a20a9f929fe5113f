import RequestHedging.Latency.Estimator

/-!
# Named estimators

Policies and listeners that share an estimator refer to it by name.
-/

namespace RequestHedging

/-- Estimators by name, the first of a name counting. -/
abbrev Estimators := List (String × Latency.Estimator)

namespace Estimators

def get? (es : Estimators) (name : String) : Option Latency.Estimator :=
  (es.find? fun e => e.1 = name).map Prod.snd

def put (es : Estimators) (name : String) (e : Latency.Estimator) : Estimators :=
  match es with
  | [] => []
  | (n, old) :: rest => if n = name then (n, e) :: rest else (n, old) :: put rest name e

end Estimators

end RequestHedging
