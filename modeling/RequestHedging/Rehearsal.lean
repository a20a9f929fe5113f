import RequestHedging.Exchange
import RequestHedging.Rehearsal.Inquiry

/-!
# Rehearsals

A rehearsal sets up a hedged service from a list of settings, runs it on a scripted
inner service, and shows what can be seen: of the callbacks those that are watched, the
listeners that have a name, all log records and measurements, the requests that ended,
and the calls that were cancelled.
-/

namespace RequestHedging.Rehearsal

structure Watch where
  copies : Bool
  classifications : Bool
  announcements : Bool
  questions : Bool

def Watch.all : Watch := ⟨true, true, true, true⟩

def Watch.none : Watch := ⟨false, false, false, false⟩

def Watch.shows (w : Watch) : Entry Request Response → Bool
  | .asked _ => w.questions
  | .race (.copied ..) => w.copies
  | .race (.announced ..) => w.announcements
  | .race (.called _) => true
  | .race (.classified ..) => w.classifications
  | .race _ => false
  | .heard _ name _ => name.isSome
  | _ => true

inductive Cue
  | plainCopy
  | copy (rule : CopyRule)
  | plainRecovery
  | recovery (verdicts : List (UInt32 × Except Crash Recovery))
  | policy (p : Policy Request)
  | listener (l : Listener Request Response)
  | routes (changes : List Routing)
  | resolution (r : Resolution Request Response)
  | crashingResolver
  | onHedge (crashes : Bool)
  | handleUnavailable (b : Bool)
  | spawner
  | deadline (after : Duration)
  | enabledFor (start : String)
  | enabled (b : Bool)

namespace Cue

def setting : Cue → Setting Request Response
  | plainCopy => .copy Rehearsal.plainCopy
  | copy rule => .copy rule.apply
  | plainRecovery => .recovery Rehearsal.plainRecovery
  | recovery verdicts => .recovery (recoveryBy verdicts)
  | policy p => .policy p
  | listener l => .listener l
  | routes changes => .resolver fun r => ((routesOf byRouteOrCrash changes).resolve r).1
  | resolution r => .resolver fun _ => .ok r
  | crashingResolver => .resolver fun _ => .error ⟨"resolver bug"⟩
  | onHedge crashes => .onHedge (Rehearsal.onHedge crashes)
  | handleUnavailable b => .handleUnavailable b
  | spawner => .spawner ⟨"stragglers"⟩
  | deadline after => .deadline ⟨after, fun _ issued => givenUp issued⟩
  | enabledFor start => .enabled fun r => startsWith start r.tag
  | enabled b => .enabled fun _ => b

/-- What is watched after a setting.  Plain callbacks are not watched. -/
def watch (w : Watch) : Cue → Watch
  | plainCopy => { w with copies := false }
  | copy _ => { w with copies := true }
  | plainRecovery => { w with classifications := false }
  | recovery _ => { w with classifications := true }
  | onHedge _ => { w with announcements := true }
  | enabledFor _ => { w with questions := true }
  | enabled _ => { w with questions := false }
  | _ => w

end Cue

end Rehearsal

structure Rehearsal where
  layer : Layer Rehearsal.Request Rehearsal.Response
  watch : Rehearsal.Watch
  exchange : Exchange Rehearsal.Request Rehearsal.Response

namespace Rehearsal

/-- The layer with plain callbacks and then the settings of cues. -/
def layerOf (t : Telemetry) (cues : List Cue) : Layer Request Response :=
  (Layer.new t).setAll ((.plainCopy :: .plainRecovery :: cues).map Cue.setting)

def new? (t : Telemetry) (cues : List Cue) (es : Estimators) : Option Rehearsal :=
  let layer := layerOf t cues
  (layer.wrap? serve).map fun service =>
    { layer := layer
      watch := cues.foldl Cue.watch .none
      exchange := .new service es }

inductive Step
  | happening (h : Happening Request)
  | read (estimator : String) (ps : List Binary64)
  | describe
  | describeService

structure Scene where
  now : Instant
  shown : List (Entry Request Response)
  done : List (Nat × Session.Ending Response)
  /-- The calls that were cancelled, by request and number, in increasing order. -/
  cancelled : List (Nat × Nat)
  /-- The requests under way. -/
  running : List Nat
  /-- The number of tasks of stragglers. -/
  tasks : Nat

inductive Answer
  | scene (s : Scene)
  | reading (r : Option Reading)
  | description (text : String)

def clockDescription : String :=
  Text.described "Clock"
    [("kind", Text.quoted "controlled"), ("timers", "0"), ("alive", "true"),
     ("affinity", Text.describedOption none)] .chosen

def innerDescription : String := Text.described "Execute" [] .chosen

def step (r : Rehearsal) : Step → Answer × Rehearsal
  | .happening h =>
    let (outturn, x) := r.exchange.step h
    (.scene {
      now := x.now
      shown := outturn.trace.filter r.watch.shows
      done := outturn.done
      cancelled := outturn.cancelledInOrder
      running := x.sessions.map Prod.fst
      tasks := x.tasks.length },
      { r with exchange := x })
  | .read name ps =>
    let (reading, es) := Rehearsal.reading r.exchange.now r.exchange.estimators name ps
    (.reading reading, { r with exchange := { r.exchange with estimators := es } })
  | .describe => (.description r.layer.describe, r)
  | .describeService =>
    (.description (r.exchange.service.describe clockDescription innerDescription), r)

def run (r : Rehearsal) : List Step → List Answer
  | [] => []
  | s :: steps =>
    let (answer, r) := r.step s
    answer :: r.run steps

end Rehearsal

end RequestHedging
