import RequestHedging.Trace

/-!
# Hedged services

A hedged service is an inner service with all that decides how requests to it are
hedged.  A layer is such a service being set up: each setting replaces the one made
before, only listeners add up, and a resolver takes the place of policy and listeners.
A layer can wrap a service once it says how inputs are made and outputs classified.
-/

namespace RequestHedging

structure Deadline (Out : Type) where
  after : Duration
  /-- The result when the deadline passes, by the time since the request came in and the number
  of attempts issued. -/
  output : Duration → UInt32 → Out

structure Spawner where
  name : String

def Spawner.describe (s : Spawner) : String :=
  "Spawner(" ++ Text.described "CustomSpawner" [("name", Text.quoted s.name)] .all ++ ")"

structure Service (In Out : Type) where
  callbacks : Callbacks In Out
  /-- The policy and the listeners of a request. -/
  resolver : In → Except Crash (Resolution In Out)
  deadline : Option (Deadline Out)
  spawner : Option Spawner
  /-- The requests that are hedged; others go straight to the inner service. -/
  enabled : In → Bool
  telemetry : Telemetry

structure Layer (In Out : Type) where
  resolution : Resolution In Out
  resolver : Option (In → Except Crash (Resolution In Out))
  copy : Option (In → Attempt → Except Crash (In × Option In))
  recovery : Option (Out → Attempt → Except Crash Recovery)
  onHedge : Option (Attempt → Duration → Except Crash Unit)
  handleUnavailable : Bool
  spawner : Option Spawner
  deadline : Option (Deadline Out)
  enabled : In → Bool
  telemetry : Telemetry

inductive Setting (In Out : Type) where
  | copy (f : In → Attempt → Except Crash (In × Option In))
  | recovery (f : Out → Attempt → Except Crash Recovery)
  | policy (p : Policy In)
  | listener (l : Listener In Out)
  | resolver (f : In → Except Crash (Resolution In Out))
  | onHedge (f : Attempt → Duration → Except Crash Unit)
  | handleUnavailable (b : Bool)
  | spawner (s : Spawner)
  | deadline (d : Deadline Out)
  | enabled (f : In → Bool)

namespace Layer

variable {In Out : Type}

/-- A layer without settings: one hedge after two seconds, nobody told, always enabled. -/
def new (telemetry : Telemetry) : Layer In Out where
  resolution := .ofPolicy (.fixed .standard)
  resolver := none
  copy := none
  recovery := none
  onHedge := none
  handleUnavailable := false
  spawner := none
  deadline := none
  enabled := fun _ => true
  telemetry := telemetry

def set (l : Layer In Out) : Setting In Out → Layer In Out
  | .copy f => { l with copy := some f }
  | .recovery f => { l with recovery := some f }
  | .policy p => { l with resolution := { l.resolution with policy := p } }
  | .listener x => { l with resolution := l.resolution.addListener x }
  | .resolver f => { l with resolver := some f }
  | .onHedge f => { l with onHedge := some f }
  | .handleUnavailable b => { l with handleUnavailable := b }
  | .spawner s => { l with spawner := some s }
  | .deadline d => { l with deadline := some d }
  | .enabled f => { l with enabled := f }

def setAll (l : Layer In Out) (settings : List (Setting In Out)) : Layer In Out :=
  settings.foldl set l

/-- Wraps an inner service, once the layer is ready. -/
def wrap? (l : Layer In Out) (serve : In → Nat → Race.Execution Out) : Option (Service In Out) :=
  match l.copy, l.recovery with
  | some copy, some recovery => some {
      callbacks := {
        copy := copy
        recovery := recovery
        handleUnavailable := l.handleUnavailable
        onHedge := l.onHedge.getD fun _ _ => .ok ()
        serve := serve }
      resolver := l.resolver.getD fun _ => .ok l.resolution
      deadline := l.deadline
      spawner := l.spawner
      enabled := l.enabled
      telemetry := l.telemetry }
  | _, _ => none

def describe (l : Layer In Out) : String :=
  Text.described "HedgingLayer"
    [("resolution", l.resolution.describe),
     ("has_resolver", Text.describedBool l.resolver.isSome),
     ("handle_unavailable", Text.describedBool l.handleUnavailable),
     ("deadline", Text.describedOption (l.deadline.map fun d => d.after.scaled)),
     ("spawner", Text.describedOption (l.spawner.map Spawner.describe)),
     ("telemetry", l.telemetry.describe)] .chosen

end Layer

namespace Service

variable {In Out : Type}

/-- What governs a request, and the warning left if the resolver crashed. -/
def resolve (s : Service In Out) (request : In) :
    Resolution In Out × List (Entry In Out) :=
  match s.resolver request with
  | .ok r => (r, [])
  | .error _ => (.disabled, [.log .resolverCrashed])

/-- The decision on a request, off if the policy failed or crashed. -/
def decide (p : Policy In) (now : Instant) (es : Estimators) (request : In) :
    Decision × List (Entry In Out) × Estimators :=
  let (answer, es) := p.decide now es request
  let asked : List (Entry In Out) := (p.traceName.map fun name => .decided name request).toList
  match answer with
  | .ok d => (d, asked, es)
  | .error (.failed f) => (.disabled, asked ++ [.log (.policyFailed f.message)], es)
  | .error (.crashed _) => (.disabled, asked ++ [.log (.policyFailed "hedge policy panicked")], es)

/-- The description of a service, on a clock and around an inner service that are described as
given. -/
def describe (s : Service In Out) (clock inner : String) : String :=
  let shared := Text.described "HedgingShared"
    [("clock", clock),
     ("handle_unavailable", Text.describedBool s.callbacks.handleUnavailable),
     ("deadline", Text.describedOption (s.deadline.map fun d => d.after.scaled)),
     ("spawner", Text.describedOption (s.spawner.map Spawner.describe)),
     ("telemetry", s.telemetry.describe)] .chosen
  Text.described "Hedging" [("shared", shared), ("inner", inner)] .all

end Service

end RequestHedging
