import RequestHedging.Race
import RequestHedging.Resolution
import RequestHedging.Telemetry

/-!
# Traces

All that can be observed of hedged requests: what happens in their races, what their
listeners hear, what is logged and what is measured.  The events of a race are written
into the trace with what follows from each at once: a report goes to every listener in
order, and a listener that fails or crashes leaves a warning and nothing else.
-/

namespace RequestHedging

/-- What can be observed of hedged requests. -/
inductive Entry (In Out : Type) where
  /-- It was asked whether hedging is enabled for a request. -/
  | asked (request : In)
  /-- A policy with a name was asked for its decision. -/
  | decided (policy : String) (request : In)
  | race (event : Race.Event In Out)
  /-- The listener at a position heard a report. -/
  | heard (position : Nat) (listener : Option String) (report : Report In Out)
  /-- The deadline passed; its output is the result. -/
  | gaveUp (elapsed : Duration) (issued : UInt32)
  /-- Attempts left in flight were handed to the spawner. -/
  | spawned
  /-- The task of stragglers crashed. -/
  | taskCrashed (crash : Crash)
  | log (notice : Notice)
  | measured (measurement : Measurement)

namespace Trace

variable {In Out : Type}

/-- A log record, if it is logged at all. -/
def logged (t : Telemetry) (n : Notice) : List (Entry In Out) :=
  if t.logs || n.isWarning then [.log n] else []

def measured (t : Telemetry) (m : Measurement) : List (Entry In Out) :=
  if t.metrics then [.measured m] else []

def warning (attempt : Attempt) (position : Nat) : Except Breakdown Unit → List (Entry In Out)
  | .ok () => []
  | .error (.failed f) => [.log (.listenerFailed attempt position f.message)]
  | .error (.crashed _) => [.log (.listenerCrashed attempt position)]

/-- Tells a report to listeners in order, the first of them at a position. -/
def tell (now : Instant) (report : Report In Out) :
    List (Listener In Out) → Nat → Estimators → List (Entry In Out) × Estimators
  | [], _, es => ([], es)
  | l :: ls, position, es =>
    let (answer, es) := l.hear now es report
    let (rest, es) := tell now report ls (position + 1) es
    (.heard position l.traceName report :: warning report.attempt position answer ++ rest, es)

/-- All attempts counted but one are hedges; where none is counted, none are. -/
def hedgesAmong (issued : UInt32) : UInt32 := .ofNat (issued.toNat - 1)

/-- An event of a race with what follows from it at once. -/
def enter (t : Telemetry) (listeners : List (Listener In Out)) (now : Instant)
    (es : Estimators) (event : Race.Event In Out) : List (Entry In Out) × Estimators :=
  match event with
  | .reported report =>
    let (heard, es) := tell now report listeners 0 es
    (.race event :: heard, es)
  | .issued attempt =>
    if attempt.isHedge then
      (logged t (.hedgeIssued attempt) ++ measured t (.hedge attempt) ++ [.race event], es)
    else ([.race event], es)
  | .won attempt issued => (.race event :: logged t (.raceEnded attempt issued .success), es)
  | .exhausted primary issued =>
    (.race event :: measured t (.exhausted (hedgesAmong issued)) ++
      logged t (.raceEnded primary issued .failure), es)
  | _ => ([.race event], es)

def ofEvents (t : Telemetry) (listeners : List (Listener In Out)) (now : Instant) :
    List (Race.Event In Out) → Estimators → List (Entry In Out) × Estimators
  | [], es => ([], es)
  | event :: events, es =>
    let (first, es) := enter t listeners now es event
    let (rest, es) := ofEvents t listeners now events es
    (first ++ rest, es)

end Trace

end RequestHedging
