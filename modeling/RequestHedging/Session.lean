import RequestHedging.Race.Stragglers
import RequestHedging.Service

/-!
# Sessions

A session is one request to a hedged service, from its first poll to its end.  It goes
straight to the inner service if hedging is not enabled for it.  Otherwise it is
resolved and decided once, at its first poll, and raced; if the input of its primary
attempt is refused, it goes to the inner service unobserved.

A deadline bounds the race, not a request that hedging is not enabled for.  The race is
polled first, so what it can finish at a moment wins over a deadline that passes at the
same moment.
-/

namespace RequestHedging

open Race

inductive Session.Stage (In Out : Type) where
  /-- Not polled yet. -/
  | fresh (request : In)
  /-- The inner service has the request itself. -/
  | direct (flights : Flights In Out)
  | racing (listeners : List (Listener In Out)) (race : Race In Out)

/-- One request to a hedged service. -/
structure Session (In Out : Type) where
  stage : Session.Stage In Out
  /-- The first poll, if a deadline counts from it. -/
  boundedFrom : Option Instant

namespace Session

variable {In Out : Type}

inductive Ending (Out : Type) where
  | returned (output : Out)
  | crashed (fault : Fault)
deriving DecidableEq

inductive Progress (In Out : Type) where
  | pending (session : Session In Out)
  /-- It ended; the calls still in flight are cancelled. -/
  | ended (ending : Ending Out) (cancelled : List Nat)
  /-- It ended; the attempts still in flight go on, observed by the listeners. -/
  | handedOver (output : Out) (listeners : List (Listener In Out)) (left : Stragglers In Out)

structure Polled (In Out : Type) where
  entries : List (Entry In Out)
  estimators : Estimators
  progress : Progress In Out

def ofRequest (request : In) : Session In Out := ⟨.fresh request, none⟩

def callNumbers (s : Session In Out) : List Nat :=
  match s.stage with
  | .fresh _ => []
  | .direct flights => flights.callNumbers
  | .racing _ race => race.flights.callNumbers

def issued (s : Session In Out) : UInt32 :=
  match s.stage with
  | .racing _ race => race.issued
  | _ => 0

/-- The attempt as which the inner service has a request itself. -/
def directFlight (now : Instant) (request : In) : Flights In Out :=
  Flights.none.issue .only now request

/-- Polls the inner service that has the request itself. -/
def pollDirect (svc : Service In Out) (m : Moment) (es : Estimators)
    (boundedFrom : Option Instant) (flights : Flights In Out) : Polled In Out :=
  let polled := (flights.wake m).poll svc.callbacks.serve m
  let entries := polled.made.map fun call => .race (.called call)
  match polled.landed with
  | none => ⟨entries, es, .pending ⟨.direct polled.flights, boundedFrom⟩⟩
  | some (.ok c) => ⟨entries, es, .ended (.returned c.output) polled.flights.callNumbers⟩
  | some (.error crash) =>
    ⟨entries, es, .ended (.crashed (.callback crash)) polled.flights.callNumbers⟩

/-- Hands the attempts left in flight to the spawner, or cancels them. -/
def abandon (svc : Service In Out) (listeners : List (Listener In Out)) (output : Out)
    (race : Race In Out) : List (Entry In Out) × Progress In Out :=
  if svc.spawner.isSome && !race.flights.isEmpty then
    ([.spawned], .handedOver output listeners ⟨race.request, race.flights⟩)
  else ([], .ended (.returned output) race.flights.callNumbers)

def pollRace (svc : Service In Out) (m : Moment) (es : Estimators)
    (boundedFrom : Option Instant) (listeners : List (Listener In Out)) (race : Race In Out) :
    Polled In Out :=
  let (events, progress) := race.poll svc.callbacks m
  let (entries, es) := Trace.ofEvents svc.telemetry listeners m.now events es
  match progress with
  | .pending race => ⟨entries, es, .pending ⟨.racing listeners race, boundedFrom⟩⟩
  | .crashed fault race => ⟨entries, es, .ended (.crashed fault) race.flights.callNumbers⟩
  | .finished output race =>
    let (last, progress) := abandon svc listeners output race
    ⟨entries ++ last, es, progress⟩

/-- Resolves and decides a request, starts its race and polls it. -/
def enter (svc : Service In Out) (m : Moment) (es : Estimators) (boundedFrom : Option Instant)
    (request : In) : Polled In Out :=
  let (resolution, resolved) := svc.resolve request
  let (decision, decided, es) := Service.decide resolution.policy m.now es request
  let (events, start) := Race.start svc.callbacks m.now decision request
  let (entries, es) := Trace.ofEvents svc.telemetry resolution.listeners m.now events es
  let before := resolved ++ decided ++ entries
  let polled : Polled In Out :=
    match start with
    | .crashed crash => ⟨[], es, .ended (.crashed (.callback crash)) []⟩
    | .refused request => pollDirect svc m es boundedFrom (directFlight m.now request)
    | .racing race => pollRace svc m es boundedFrom resolution.listeners race
  { polled with entries := before ++ polled.entries }

/-- Polls a session as if there were no deadline. -/
def pollUnbounded (svc : Service In Out) (m : Moment) (es : Estimators) (s : Session In Out) :
    Polled In Out :=
  match s.stage with
  | .direct flights => pollDirect svc m es s.boundedFrom flights
  | .racing listeners race => pollRace svc m es s.boundedFrom listeners race
  | .fresh request =>
    let polled :=
      if svc.enabled request then enter svc m es (some m.now) request
      else pollDirect svc m es none (directFlight m.now request)
    { polled with entries := .asked request :: polled.entries }

def bound (svc : Service In Out) (now : Instant) (p : Polled In Out) : Polled In Out :=
  match p.progress, svc.deadline with
  | .pending s, some deadline =>
    match s.boundedFrom with
    | none => p
    | some start =>
      if start + deadline.after.nanos ≤ now then
        let since := elapsed start now
        let last := Trace.logged svc.telemetry (.deadlinePassed s.issued) ++
          [.gaveUp since s.issued]
        { p with
          entries := p.entries ++ last
          progress := .ended (.returned (deadline.output since s.issued)) s.callNumbers }
      else p
  | _, _ => p

def poll (svc : Service In Out) (m : Moment) (es : Estimators) (s : Session In Out) :
    Polled In Out :=
  bound svc m.now (pollUnbounded svc m es s)

end Session

end RequestHedging
