import RequestHedging.Proofs.Trace
import RequestHedging.Session
import RequestHedging.Task

/-!
# The journey of a request

All that happens to one request, from its first poll on.  Its caller polls or drops it,
time passes, calls of the inner service are opened, and once the race was won the task of
stragglers is driven, in any order and as often as one likes.  Estimators are given with
each poll, since other requests may have changed them.

Nothing here decides anything: a journey polls sessions and tasks and keeps what was
observed, before the session ended and after.
-/

namespace RequestHedging

open Race

variable {In Out : Type}

namespace Journey

/-- Who has the request. -/
inductive Stage (In Out : Type) where
  /-- Its caller; the session did not end yet. -/
  | held (session : Session In Out)
  /-- The task that was spawned when the race was won. -/
  | straggling (task : Task In Out)
  /-- Nobody. -/
  | over

inductive Act
  | advance (by_ : Duration)
  /-- Calls of the inner service are opened. -/
  | complete (calls : List Nat)
  /-- The caller polls the session. -/
  | poll (es : Estimators)
  /-- The caller drops the session. -/
  | drop
  /-- The spawner polls the task. -/
  | drive (es : Estimators)

end Journey

/-- One request and all that happened to it. -/
structure Journey (In Out : Type) where
  now : Instant
  /-- The calls opened, in the order of opening. -/
  opened : List Nat
  /-- The time of the last poll of the session. -/
  seen : Instant
  stage : Journey.Stage In Out
  /-- What was observed of the session. -/
  trace : List (Instant × Entry In Out)
  /-- What was observed of the task. -/
  aftermath : List (Instant × Entry In Out)
  /-- How the session ended, each time it did. -/
  endings : List (Session.Ending Out)

namespace Journey

def moment (j : Journey In Out) : Moment := ⟨j.now, j.opened⟩

def observe (entries : List (Entry In Out)) (j : Journey In Out) : Journey In Out :=
  { j with seen := j.now, trace := j.trace ++ entries.map fun e => (j.now, e) }

def follow (entries : List (Entry In Out)) (j : Journey In Out) : Journey In Out :=
  { j with aftermath := j.aftermath ++ entries.map fun e => (j.now, e) }

/-- A journey whose session was polled, by where that stands. -/
def conclude (j : Journey In Out) : Session.Progress In Out → Journey In Out
  | .pending session => { j with stage := .held session }
  | .ended ending _ => { j with stage := .over, endings := j.endings ++ [ending] }
  | .handedOver output listeners left =>
    { j with
      stage := .straggling ⟨listeners, left⟩
      endings := j.endings ++ [.returned output] }

/-- The caller polls the session, if it still has it. -/
def poll (svc : Service In Out) (es : Estimators) (j : Journey In Out) : Journey In Out :=
  match j.stage with
  | .held session =>
    let polled := session.poll svc j.moment es
    (j.observe polled.entries).conclude polled.progress
  | _ => j

/-- Who has a request whose task was polled, by where that stands. -/
def Stage.ofTask : Task.Progress In Out → Stage In Out
  | .pending task => .straggling task
  | .done | .crashed _ => .over

/-- The spawner polls the task, if there is one. -/
def drive (svc : Service In Out) (es : Estimators) (j : Journey In Out) : Journey In Out :=
  match j.stage with
  | .straggling task =>
    let polled := task.poll svc j.moment es
    { j.follow polled.entries with stage := .ofTask polled.progress }
  | _ => j

/-- The caller drops the session, if it still has it. -/
def drop (j : Journey In Out) : Journey In Out :=
  match j.stage with
  | .held _ => { j with stage := .over }
  | _ => j

def step (svc : Service In Out) (j : Journey In Out) : Act → Journey In Out
  | .advance d => { j with now := j.now + d.nanos }
  | .complete calls => { j with opened := j.opened ++ calls }
  | .poll es => j.poll svc es
  | .drop => j.drop
  | .drive es => j.drive svc es

def run (svc : Service In Out) (j : Journey In Out) (acts : List Act) : Journey In Out :=
  acts.foldl (step svc) j

def fresh (now : Instant) (opened : List Nat) (request : In) : Journey In Out :=
  ⟨now, opened, now, .held (.ofRequest request), [], [], []⟩

def enter (svc : Service In Out) (now : Instant) (opened : List Nat) (es : Estimators)
    (request : In) : Journey In Out :=
  (fresh now opened request).poll svc es

/-- The events of the race, as far as the session saw it. -/
def events (j : Journey In Out) : List (Event In Out) :=
  j.trace.filterMap fun e => e.2.race?

def laterEvents (j : Journey In Out) : List (Event In Out) :=
  j.aftermath.filterMap fun e => e.2.race?

def calls (j : Journey In Out) : List (Call In) :=
  (j.events ++ j.laterEvents).filterMap Event.call?

/-- What the session and its task made listeners hear. -/
def heard (j : Journey In Out) : List (Nat × Report In Out) :=
  (j.trace ++ j.aftermath).filterMap fun e => e.2.heard?

def GaveUp (j : Journey In Out) : Prop :=
  ∃ e ∈ j.trace, e.2.isGaveUp = true

def Torn (j : Journey In Out) : Prop :=
  ∃ e ∈ j.aftermath, e.2.isTaskCrashed = true

end Journey

end RequestHedging
