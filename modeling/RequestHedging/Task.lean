import RequestHedging.Race.Stragglers
import RequestHedging.Service

/-!
# Tasks

A task runs the stragglers of a request on a spawner, observed by the listeners of that
request.  Nobody waits for it.
-/

namespace RequestHedging

/-- A task that runs the stragglers of a request. -/
structure Task (In Out : Type) where
  listeners : List (Listener In Out)
  stragglers : Stragglers In Out

namespace Task

variable {In Out : Type}

inductive Progress (In Out : Type) where
  | pending (task : Task In Out)
  | done
  /-- It crashed; the calls still in flight are cancelled. -/
  | crashed (cancelled : List Nat)

structure Polled (In Out : Type) where
  entries : List (Entry In Out)
  estimators : Estimators
  progress : Progress In Out

def poll (svc : Service In Out) (m : Race.Moment) (es : Estimators) (t : Task In Out) :
    Polled In Out :=
  let (events, progress) := t.stragglers.poll svc.callbacks m
  let (entries, es) := Trace.ofEvents svc.telemetry t.listeners m.now events es
  match progress with
  | .pending left => ⟨entries, es, .pending { t with stragglers := left }⟩
  | .done => ⟨entries, es, .done⟩
  | .crashed crash left =>
    ⟨entries ++ [.taskCrashed crash], es, .crashed left.flights.callNumbers⟩

end Task

end RequestHedging
