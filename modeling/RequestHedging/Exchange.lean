import RequestHedging.Session
import RequestHedging.Task

/-!
# Exchanges

An exchange is a hedged service at work: a clock, the requests under way, the tasks of
stragglers, and the calls of the inner service opened from outside.  In each step
something happens first, and then every request under way is polled, in the order of
their start, and after them every task, in the order of spawning.
-/

namespace RequestHedging

open Race

/-- A hedged service at work.  Requests are told apart by a number. -/
structure Exchange (In Out : Type) where
  service : Service In Out
  now : Instant
  estimators : Estimators
  /-- The calls opened, by request and number of the call, in the order of opening. -/
  opened : List (Nat × Nat)
  sessions : List (Nat × Session In Out)
  tasks : List (Nat × Task In Out)

inductive Happening (In : Type) where
  | start (id : Nat) (request : In)
  | advance (by_ : Duration)
  | complete (calls : List (Nat × Nat))
  /-- A request under way is dropped by its caller. -/
  | drop (id : Nat)
  /-- The spawner drops all its tasks. -/
  | dropTasks

structure Outturn (In Out : Type) where
  /-- What was observed, each time of the request with the given number. -/
  entries : List (Nat × Entry In Out)
  /-- The requests that ended. -/
  done : List (Nat × Session.Ending Out)
  /-- The calls that were cancelled. -/
  cancelled : List (Nat × Nat)

namespace Outturn

variable {In Out : Type}

def nothing : Outturn In Out := ⟨[], [], []⟩

def append (a b : Outturn In Out) : Outturn In Out :=
  ⟨a.entries ++ b.entries, a.done ++ b.done, a.cancelled ++ b.cancelled⟩

def trace (o : Outturn In Out) : List (Entry In Out) := o.entries.map Prod.snd

def traceOf (o : Outturn In Out) (id : Nat) : List (Entry In Out) :=
  (o.entries.filter fun e => e.1 = id).map Prod.snd

def cancelledInOrder (o : Outturn In Out) : List (Nat × Nat) :=
  o.cancelled.mergeSort fun a b => a.1 < b.1 || (a.1 == b.1 && a.2 ≤ b.2)

end Outturn

namespace Exchange

variable {In Out : Type}

def new (service : Service In Out) (estimators : Estimators) : Exchange In Out :=
  ⟨service, 0, estimators, [], [], []⟩

def moment (x : Exchange In Out) (id : Nat) : Moment :=
  ⟨x.now, x.opened.filterMap fun c => if c.1 = id then some c.2 else none⟩

def ofRequest {α : Type} (id : Nat) (things : List α) : List (Nat × α) :=
  things.map fun x => (id, x)

/-- Lets something happen, before anything is polled; the calls it cancels. -/
def apply (x : Exchange In Out) : Happening In → List (Nat × Nat) × Exchange In Out
  | .start id request => ([], { x with sessions := x.sessions ++ [(id, .ofRequest request)] })
  | .advance d => ([], { x with now := x.now + d.nanos })
  | .complete calls => ([], { x with opened := x.opened ++ calls })
  | .drop id =>
    ((x.sessions.filter fun s => s.1 = id).flatMap fun s => ofRequest s.1 s.2.callNumbers,
      { x with sessions := x.sessions.filter fun s => s.1 ≠ id })
  | .dropTasks =>
    (x.tasks.flatMap fun t => ofRequest t.1 t.2.stragglers.flights.callNumbers,
      { x with tasks := [] })

/-- Polls one request under way; it stays, ends, or leaves a task. -/
def pollSession (x : Exchange In Out) (id : Nat) (s : Session In Out) :
    Outturn In Out × Exchange In Out :=
  let polled := s.poll x.service (x.moment id) x.estimators
  let entries := ofRequest id polled.entries
  let x := { x with estimators := polled.estimators }
  match polled.progress with
  | .pending s => (⟨entries, [], []⟩, { x with sessions := x.sessions ++ [(id, s)] })
  | .ended ending cancelled => (⟨entries, [(id, ending)], ofRequest id cancelled⟩, x)
  | .handedOver output listeners left =>
    (⟨entries, [(id, .returned output)], []⟩,
      { x with tasks := x.tasks ++ [(id, ⟨listeners, left⟩)] })

def pollSessions (x : Exchange In Out) :
    List (Nat × Session In Out) → Outturn In Out × Exchange In Out
  | [] => (.nothing, x)
  | (id, s) :: rest =>
    let (first, x) := x.pollSession id s
    let (others, x) := x.pollSessions rest
    (first.append others, x)

def pollTask (x : Exchange In Out) (id : Nat) (t : Task In Out) :
    Outturn In Out × Exchange In Out :=
  let polled := t.poll x.service (x.moment id) x.estimators
  let entries := ofRequest id polled.entries
  let x := { x with estimators := polled.estimators }
  match polled.progress with
  | .pending t => (⟨entries, [], []⟩, { x with tasks := x.tasks ++ [(id, t)] })
  | .done => (⟨entries, [], []⟩, x)
  | .crashed cancelled => (⟨entries, [], ofRequest id cancelled⟩, x)

def pollTasks (x : Exchange In Out) :
    List (Nat × Task In Out) → Outturn In Out × Exchange In Out
  | [] => (.nothing, x)
  | (id, t) :: rest =>
    let (first, x) := x.pollTask id t
    let (others, x) := x.pollTasks rest
    (first.append others, x)

def pollAll (x : Exchange In Out) : Outturn In Out × Exchange In Out :=
  let (requests, x) := { x with sessions := [] }.pollSessions x.sessions
  let (tasks, x) := { x with tasks := [] }.pollTasks x.tasks
  (requests.append tasks, x)

/-- One step: something happens, and then everything is polled. -/
def step (x : Exchange In Out) (h : Happening In) : Outturn In Out × Exchange In Out :=
  let (cancelled, x) := x.apply h
  let (outturn, x) := x.pollAll
  ({ outturn with cancelled := cancelled ++ outturn.cancelled }, x)

end Exchange

end RequestHedging
