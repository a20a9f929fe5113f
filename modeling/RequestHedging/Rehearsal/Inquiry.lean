import RequestHedging.Rehearsal.Sampling
import RequestHedging.Rehearsal.Script
import RequestHedging.Resolution.Registry

/-!
# Inquiries

Without a race, a registry is asked what governs a request: its policy is asked for a
decision, and then every listener is told about an attempt that succeeded.
-/

namespace RequestHedging.Rehearsal

abbrev Routes := RouteRegistry String Request Response

def byRoute (r : Request) : Except Crash (Option String) := .ok r.route

/-- The route for which taking the key crashes, where that is played. -/
def crashRoute : String := "!panic"

/-- The key of a request is its route, but taking it crashes for one route. -/
def byRouteOrCrash (r : Request) : Except Crash (Option String) :=
  if r.route = some crashRoute then .error ⟨"key bug"⟩ else .ok r.route

inductive Routing
  | globalPolicy (p : Policy Request)
  | globalListener (l : Listener Request Response)
  | route (key : String) (route : Route Request Response)

def change (routes : Routes) : Routing → Routes
  | .globalPolicy p => routes.setGlobalPolicy p
  | .globalListener l => routes.addGlobalListener l
  | .route key route => routes.setRoute key route

def routesOf (key : Request → Except Crash (Option String)) (changes : List Routing) : Routes :=
  changes.foldl change (.new key)

structure Consulted where
  decision : Except Breakdown Decision
  /-- What each listener answered. -/
  answers : List (Except Breakdown Unit)
  entries : List (Entry Request Response)
  description : String

/-- Tells a report to listeners in order, the first of them at a position; their answers. -/
def tellAll (now : Instant) (report : Report Request Response) :
    List (Listener Request Response) → Nat → Estimators →
      List (Except Breakdown Unit × Entry Request Response) × Estimators
  | [], _, es => ([], es)
  | l :: ls, position, es =>
    let (answer, es) := l.hear now es report
    let (rest, es) := tellAll now report ls (position + 1) es
    ((answer, .heard position l.traceName report) :: rest, es)

/-- Asks a resolution about a request, and tells its listeners about a success. -/
def consult (now : Instant) (es : Estimators) (r : Resolution Request Response)
    (request : Request) (took : Duration) : Consulted × Estimators :=
  let (decision, es) := r.policy.decide now es request
  let asked := (r.policy.traceName.map fun name => .decided name request).toList
  let report : Report Request Response :=
    ⟨request, ⟨"never", "out"⟩, .success, took, .only⟩
  let (heard, es) := tellAll now report r.listeners 0 es
  ({ decision := decision
     answers := heard.map Prod.fst
     entries := asked ++ heard.map Prod.snd
     description := r.describe }, es)

/-- A registry that is asked, with the estimators its policies and listeners share.  The clock
stands still. -/
structure Desk where
  routes : Routes
  estimators : Estimators

namespace Desk

inductive Step
  | change (c : Routing)
  | resolve (request : Request) (took : Duration)
  /-- Asks a resolution that stands alone. -/
  | consult (r : Resolution Request Response) (request : Request) (took : Duration)
  | read (estimator : String) (ps : List Binary64)
  | describe

inductive Answer
  /-- The registry was changed; the description of the route, if one was set. -/
  | changed (route : Option String)
  | consulted (c : Consulted)
  | unresolved (crash : Crash)
  | reading (r : Option Reading)
  | description (text : String)

def step (d : Desk) : Step → Answer × Desk
  | .change c =>
    let route := match c with
      | .route _ route => some route.describe
      | _ => none
    (.changed route, { d with routes := change d.routes c })
  | .resolve request took =>
    match d.routes.resolve request with
    | (.error crash, routes) => (.unresolved crash, { d with routes := routes })
    | (.ok r, routes) =>
      let (c, es) := Rehearsal.consult 0 d.estimators r request took
      (.consulted c, { routes := routes, estimators := es })
  | .consult r request took =>
    let (c, es) := Rehearsal.consult 0 d.estimators r request took
    (.consulted c, { d with estimators := es })
  | .read name ps =>
    let (r, es) := Rehearsal.reading 0 d.estimators name ps
    (.reading r, { d with estimators := es })
  | .describe => (.description (d.routes.describe Text.quoted), d)

def run (d : Desk) : List Step → List Answer
  | [] => []
  | s :: steps =>
    let (answer, d) := d.step s
    answer :: d.run steps

end Desk

end RequestHedging.Rehearsal
