import RequestHedging.Proofs.Race.Alarms
import RequestHedging.Proofs.Resolution.Registry
import RequestHedging.Proofs.Traffic.Exchange

/-!
# Requests by themselves

Requests to one service share its clock, its estimators, the table of the registry that resolves
them, and the queue of what waits on the clock.  If no policy looks at the estimators, a request
does not notice the others (`undisturbed_run`): what is observed of it, when, and what comes of
each of its polls is what it would be without them.

Estimators have no other way into a request than its policy (`Session.matches_poll`).  The table
is made once and answers the same ever after (`Routed.traffic_run`), and the queue hands each
request its own attempts in the order in which it would wake them itself (`Session.poll_rouse`).
-/

namespace RequestHedging

open Race Traffic

variable {In Out : Type}

/-! ## Estimators -/

/-- What the policy decides does not depend on estimators. -/
def Policy.Unswayed (p : Policy In) : Prop :=
  ∀ now es es' request, (p.decide now es request).1 = (p.decide now es' request).1

/-- Only a percentile depends on them. -/
theorem Policy.unswayed_of_ne {p : Policy In} (h : ∀ name q, p ≠ .percentile name q) :
    p.Unswayed := by
  intro now es es' request
  cases p with
  | percentile name q => exact absurd rfl (h name q)
  | _ => rfl

/-- What decides about the requests to a service does not depend on estimators. -/
def Service.Unswayed (svc : Service In Out) : Prop :=
  ∀ request, (svc.resolve request).1.policy.Unswayed

variable (Out) in
/-- A policy that is not swayed decides the same with any estimators. -/
theorem Service.decide_congr {p : Policy In} (h : p.Unswayed) (now : Instant)
    (es es' : Estimators) (request : In) :
    (decide p now es request : Decision × List (Entry In Out) × Estimators).1 =
        (decide p now es' request : Decision × List (Entry In Out) × Estimators).1 ∧
      (decide p now es request : Decision × List (Entry In Out) × Estimators).2.1 =
        (decide p now es' request : Decision × List (Entry In Out) × Estimators).2.1 := by
  have hanswer := h now es es' request
  unfold decide
  dsimp only
  rw [hanswer]
  split <;> exact ⟨rfl, rfl⟩

namespace Session

/-- Two polls show the same and lead to the same. -/
structure Polled.Matches (p q : Polled In Out) : Prop where
  entries : p.entries = q.entries
  progress : p.progress = q.progress

section Poll

variable {svc : Service In Out} {m : Moment}

theorem Polled.Matches.prepend {p q : Polled In Out} (h : p.Matches q)
    (before : List (Entry In Out)) :
    Polled.Matches { p with entries := before ++ p.entries }
      { q with entries := before ++ q.entries } :=
  ⟨congrArg (before ++ ·) h.entries, h.progress⟩

theorem matches_pollDirect (svc : Service In Out) (m : Moment) (es es' : Estimators)
    (start : Option Instant) (flights : Flights In Out) :
    (pollDirect svc m es start flights).Matches (pollDirect svc m es' start flights) := by
  unfold pollDirect
  dsimp only
  split <;> exact ⟨rfl, rfl⟩

/-- What listeners hear does not depend on estimators, though they may change them. -/
theorem matches_pollRace (svc : Service In Out) (m : Moment) (es es' : Estimators)
    (start : Option Instant) (ls : List (Listener In Out)) (r : Race In Out) :
    (pollRace svc m es start ls r).Matches (pollRace svc m es' start ls r) := by
  unfold pollRace
  dsimp only
  rw [Trace.ofEvents_eq, Trace.ofEvents_eq]
  split <;> exact ⟨rfl, rfl⟩

/-- A first poll is the same with any estimators. -/
theorem matches_enter {request : In} (h : (svc.resolve request).1.policy.Unswayed)
    (es es' : Estimators) (start : Option Instant) :
    (enter svc m es start request).Matches (enter svc m es' start request) := by
  obtain ⟨hdecision, hentries⟩ := Service.decide_congr Out h m.now es es' request
  unfold enter
  dsimp only
  rw [hdecision, hentries, Trace.ofEvents_eq, Trace.ofEvents_eq]
  apply Polled.Matches.prepend
  split
  · exact ⟨rfl, rfl⟩
  · exact matches_pollDirect svc m _ _ start _
  · exact matches_pollRace svc m _ _ start _ _

theorem Polled.Matches.bound {p q : Polled In Out} (h : p.Matches q) (svc : Service In Out)
    (now : Instant) : (bound svc now p).Matches (bound svc now q) := by
  obtain ⟨entries, es, progress⟩ := p
  obtain ⟨entries', es', progress'⟩ := q
  obtain ⟨rfl, rfl⟩ := h
  unfold Session.bound
  dsimp only
  cases progress with
  | pending s =>
    cases svc.deadline with
    | none => exact ⟨rfl, rfl⟩
    | some deadline =>
      dsimp only
      cases s.boundedFrom with
      | none => exact ⟨rfl, rfl⟩
      | some start =>
        dsimp only
        split <;> exact ⟨rfl, rfl⟩
  | ended ending cancelled => exact ⟨rfl, rfl⟩
  | handedOver output ls left => exact ⟨rfl, rfl⟩

/-- A poll of a session is the same with any estimators. -/
theorem matches_poll (h : svc.Unswayed) (m : Moment) (es es' : Estimators)
    (s : Session In Out) : (poll svc m es s).Matches (poll svc m es' s) := by
  apply Polled.Matches.bound
  obtain ⟨stage, start⟩ := s
  cases stage with
  | fresh request =>
    refine Polled.Matches.prepend ?_ [.asked request]
    split
    · exact matches_enter (h request) es es' _
    · exact matches_pollDirect svc m es es' none _
  | direct flights => exact matches_pollDirect svc m es es' start flights
  | racing ls r => exact matches_pollRace svc m es es' start ls r

end Poll

end Session

theorem Task.matches_poll (svc : Service In Out) (m : Moment) (es es' : Estimators)
    (task : Task In Out) : (task.poll svc m es).entries = (task.poll svc m es').entries ∧
      (task.poll svc m es).progress = (task.poll svc m es').progress := by
  unfold Task.poll
  dsimp only
  rw [Trace.ofEvents_eq, Trace.ofEvents_eq]
  split <;> exact ⟨rfl, rfl⟩

namespace Journey

variable {svc : Service In Out}

/-- What is done about a request comes to the same, whatever the estimators are. -/
theorem step_congr (h : svc.Unswayed) (j : Journey In Out) (deed : Deed) (es es' : Estimators) :
    j.step svc (deed.act es) = j.step svc (deed.act es') := by
  cases deed with
  | complete calls => rfl
  | drop => rfl
  | poll =>
    simp only [Deed.act, step, poll]
    split
    · rename_i session _
      obtain ⟨hentries, hprogress⟩ := Session.matches_poll h j.moment es es' session
      rw [hentries, hprogress]
    · rfl
  | drive =>
    simp only [Deed.act, step, drive]
    split
    · rename_i task _
      obtain ⟨hentries, hprogress⟩ := task.matches_poll svc j.moment es es'
      rw [hentries, hprogress]
    · rfl

/-- What is observed of a request is the same with any estimators. -/
theorem shows_congr (h : svc.Unswayed) (j : Journey In Out) (deed : Deed) (es es' : Estimators) :
    (j.shows svc es deed).1 = (j.shows svc es' deed).1 := by
  unfold shows
  split
  · exact (Session.matches_poll h j.moment es es' _).entries
  · exact (Task.matches_poll svc j.moment es es' _).1
  · rfl

end Journey

/-! ## One request of all -/

namespace Traffic

/-- The part of what happens that concerns one request, if `n` came in before: it comes in, things
are done about it, and time passes.  By itself it has the number zero. -/
def alone (i : Nat) : Nat → List (Act In) → List (Act In)
  | _, [] => []
  | n, .arrive request :: acts =>
    if n = i then .arrive request :: alone i (n + 1) acts else alone i (n + 1) acts
  | n, .advance d :: acts => .advance d :: alone i n acts
  | n, .touch k deed :: acts =>
    if k = i then .touch 0 deed :: alone i n acts else alone i n acts

/-- A request is in the same place by itself as among others. -/
structure Isolates (i : Nat) (t u : Traffic In Out) : Prop where
  now_eq : u.now = t.now
  journeys : u.journeys = t.journeys[i]?.toList
  trace : about 0 u.trace = about i t.trace

section Isolates

variable {svc : Service In Out} {i : Nat} {t u : Traffic In Out}

theorem isolates_quiet (i : Nat) (now : Instant) (es es' : Estimators) :
    Isolates i (quiet now es : Traffic In Out) (quiet now es') :=
  ⟨rfl, rfl, rfl⟩

/-- A request that comes in concerns the one by itself if it is that one. -/
theorem Isolates.arrive (svc : Service In Out) (h : Isolates i t u) (request : In) :
    Isolates i (t.step svc (.arrive request))
      (u.run svc (if t.journeys.length = i then [.arrive request] else [])) := by
  obtain ⟨hnow, hjourneys, htrace⟩ := h
  by_cases hi : t.journeys.length = i
  · subst hi
    rw [if_pos rfl]
    refine ⟨hnow, ?_, htrace⟩
    show u.journeys ++ [.fresh u.now [] request] = _
    rw [hjourneys, hnow]
    simp [Traffic.step]
  · rw [if_neg hi]
    refine ⟨hnow, ?_, htrace⟩
    show u.journeys = (t.journeys ++ [.fresh t.now [] request])[i]?.toList
    rw [hjourneys]
    rcases Nat.lt_or_ge i t.journeys.length with hlt | hge
    · rw [List.getElem?_append_left hlt]
    · rw [List.getElem?_eq_none hge, List.getElem?_eq_none]
      rw [List.length_append, List.length_singleton]
      omega

theorem Isolates.advance (svc : Service In Out) (h : Isolates i t u) (d : Duration) :
    Isolates i (t.step svc (.advance d)) (u.step svc (.advance d)) := by
  refine ⟨congrArg (· + d.nanos) h.now_eq, ?_, h.trace⟩
  simp only [Traffic.step, h.journeys, List.getElem?_map]
  cases t.journeys[i]? <;> rfl

/-- What is done about a request is done about it by itself. -/
theorem Isolates.touch (h : Isolates i t u) (hsvc : svc.Unswayed) (deed : Deed) :
    Isolates i (t.touch svc i deed) (u.touch svc 0 deed) := by
  obtain ⟨hnow, hjourneys, htrace⟩ := h
  cases hj : t.journeys[i]? with
  | none =>
    have hnone : u.journeys[0]? = none := by rw [hjourneys, hj]; rfl
    have htouch : t.touch svc i deed = t := by simp only [Traffic.touch, hj]
    have htouch' : u.touch svc 0 deed = u := by simp only [Traffic.touch, hnone]
    rw [htouch, htouch']
    exact ⟨hnow, hjourneys, htrace⟩
  | some j =>
    have hone : u.journeys = [j] := by rw [hjourneys, hj]; rfl
    have hj' : u.journeys[0]? = some j := by rw [hone]; rfl
    rw [touch_eq svc hj, touch_eq svc hj']
    refine ⟨hnow, ?_, ?_⟩
    · dsimp only
      rw [hone, List.getElem?_set_self (List.getElem?_eq_some_iff.mp hj).1,
        j.step_congr hsvc deed u.estimators t.estimators]
      rfl
    · dsimp only
      rw [about_append, about_append, htrace, about_mark, about_mark, hnow,
        j.shows_congr hsvc deed u.estimators t.estimators]

/-- What is done about another request is not noticed. -/
theorem Isolates.elsewhere (svc : Service In Out) (h : Isolates i t u) {k : Nat} (hk : k ≠ i)
    (deed : Deed) :
    Isolates i (t.touch svc k deed) u := by
  cases hj : t.journeys[k]? with
  | none =>
    have htouch : t.touch svc k deed = t := by simp only [Traffic.touch, hj]
    rw [htouch]
    exact h
  | some j =>
    rw [touch_eq svc hj]
    refine ⟨h.now_eq, ?_, ?_⟩
    · dsimp only
      rw [List.getElem?_set_ne hk, h.journeys]
    · dsimp only
      have hnone : ∀ x ∈ mark t.now k (j.shows svc t.estimators deed).1, x.2.1 ≠ i :=
        fun x hx hi => hk ((mem_mark hx).2.1.symm.trans hi)
      rw [about_append, h.trace, about_eq_nil hnone, List.append_nil]

/-- A request stands by itself as it does in traffic. -/
theorem isolates_run (h : Isolates i t u) (hsvc : svc.Unswayed) (acts : List (Act In)) :
    Isolates i (t.run svc acts) (u.run svc (alone i t.journeys.length acts)) := by
  induction acts generalizing t u with
  | nil => exact h
  | cons act acts ih =>
    cases act with
    | arrive request =>
      have hstep := ih (h.arrive svc request)
      have hlength : (t.step svc (.arrive request)).journeys.length = t.journeys.length + 1 :=
        List.length_append
      rw [hlength] at hstep
      rw [alone]
      split
      · rename_i hi
        rw [if_pos hi] at hstep
        exact hstep
      · rename_i hi
        rw [if_neg hi] at hstep
        exact hstep
    | advance d =>
      have hstep := ih (h.advance svc d)
      have hlength : (t.step svc (.advance d)).journeys.length = t.journeys.length :=
        List.length_map _
      rw [hlength] at hstep
      exact hstep
    | touch k deed =>
      have hlength : (t.touch svc k deed).journeys.length = t.journeys.length := by
        unfold Traffic.touch
        split
        · rfl
        · exact List.length_set
      rw [alone]
      split
      · rename_i hk
        subst hk
        have hstep := ih (h.touch hsvc deed)
        rw [hlength] at hstep
        exact hstep
      · rename_i hk
        have hstep := ih (h.elsewhere svc hk deed)
        rw [hlength] at hstep
        exact hstep

end Isolates

end Traffic

/-! ## One table -/

/-- Traffic of a service whose requests are all resolved by one registry. -/
structure Routed (Key In Out : Type) where
  registry : RouteRegistry Key In Out
  traffic : Traffic In Out

namespace Routed

variable {Key : Type} [DecidableEq Key]

/-- The request that is resolved: it is polled for the first time, and hedging is enabled for it. -/
def resolved? (svc : Service In Out) (t : Traffic In Out) : Act In → Option In
  | .touch i .poll =>
    match t.journeys[i]?.map Journey.stage with
    | some (.held ⟨.fresh request, _⟩) => if svc.enabled request then some request else none
    | _ => none
  | _ => none

/-- Lets something happen, with the registry as the requests before left it. -/
def step (svc : Service In Out) (x : Routed Key In Out) (act : Act In) : Routed Key In Out where
  registry := (resolved? svc x.traffic act).elim x.registry fun request =>
    (x.registry.resolve request).2
  traffic := x.traffic.step { svc with resolver := x.registry.answer } act

def run (svc : Service In Out) (x : Routed Key In Out) (acts : List (Act In)) :
    Routed Key In Out :=
  acts.foldl (step svc) x

/-- A registry that made its table answers as before. -/
theorem answer_resolve (r : RouteRegistry Key In Out) (request : In) :
    (r.resolve request).2.answer = r.answer := by
  funext request'
  rfl

/-- All requests are resolved as by the registry before the first of them. -/
theorem traffic_run (svc : Service In Out) (x : Routed Key In Out) (acts : List (Act In)) :
    (x.run svc acts).traffic = x.traffic.run { svc with resolver := x.registry.answer } acts := by
  induction acts generalizing x with
  | nil => rfl
  | cons act acts ih =>
    have hanswer : (x.step svc act).registry.answer = x.registry.answer := by
      unfold step
      cases resolved? svc x.traffic act with
      | none => rfl
      | some request => exact answer_resolve x.registry request
    have hrest := ih (x.step svc act)
    rw [hanswer] at hrest
    exact hrest

end Routed

/-! ## One queue -/

namespace Session

def waiting (s : Session In Out) : List (Alarm × Flight In Out) :=
  match s.stage with
  | .fresh _ => []
  | .direct flights => flights.waiting
  | .racing _ race => race.flights.waiting

/-- A session after the queue of all requests was rung. -/
def rouse (s : Session In Out) (now : Instant) (opened : List (Nat × Nat)) (i : Nat)
    (queue : List (Sleeper In Out)) : Session In Out :=
  match s.stage with
  | .fresh _ => s
  | .direct flights => { s with stage := .direct (flights.rouse now opened i queue) }
  | .racing ls race =>
    { s with stage := .racing ls { race with flights := race.flights.rouse now opened i queue } }

/-- A poll wakes what ringing the queue of all requests would. -/
theorem poll_rouse {s : Session In Out} {i : Nat} {queue : List (Sleeper In Out)}
    (h : own i queue = s.waiting) (svc : Service In Out) (now : Instant)
    (opened : List (Nat × Nat)) (es : Estimators) :
    (s.rouse now opened i queue).poll svc (.of now opened i) es =
      s.poll svc (.of now opened i) es := by
  obtain ⟨stage, start⟩ := s
  cases stage with
  | fresh request => rfl
  | direct flights =>
    simp only [rouse, poll, pollUnbounded, pollDirect, Flights.rouse_eq_wake h, Flights.wake_wake]
  | racing ls race =>
    simp only [rouse, poll, pollUnbounded, pollRace, Race.poll, Flights.rouse_eq_wake h,
      Flights.wake_wake]

end Session

namespace Task

def rouse (task : Task In Out) (now : Instant) (opened : List (Nat × Nat)) (i : Nat)
    (queue : List (Sleeper In Out)) : Task In Out :=
  { task with stragglers :=
    { task.stragglers with flights := task.stragglers.flights.rouse now opened i queue } }

/-- A task that is roused goes on as if it had its own queue. -/
theorem poll_rouse {task : Task In Out} {i : Nat} {queue : List (Sleeper In Out)}
    (h : own i queue = task.stragglers.flights.waiting) (svc : Service In Out)
    (now : Instant) (opened : List (Nat × Nat)) (es : Estimators) :
    (task.rouse now opened i queue).poll svc (.of now opened i) es =
      task.poll svc (.of now opened i) es := by
  simp only [rouse, poll, Stragglers.poll, Flights.rouse_eq_wake h, Flights.wake_wake]

end Task

def Journey.waiting (j : Journey In Out) : List (Alarm × Flight In Out) :=
  match j.stage with
  | .held session => session.waiting
  | .straggling task => task.stragglers.flights.waiting
  | .over => []

namespace Traffic

/-- The calls opened of all requests, and the queue of all that waits, in any order between
different requests. -/
structure Queues (t : Traffic In Out) (opened : List (Nat × Nat)) (queue : List (Sleeper In Out)) :
    Prop where
  moment : ∀ (i : Nat) j, t.journeys[i]? = some j → j.moment = .of t.now opened i
  waiting : ∀ (i : Nat) j, t.journeys[i]? = some j → own i queue = j.waiting

/-- All requests are on one clock. -/
theorem now_of_mem_run (svc : Service In Out) (now : Instant) (es : Estimators)
    (acts : List (Act In)) : ∀ j ∈ ((quiet now es).run svc acts).journeys,
      j.now = ((quiet now es).run svc acts).now := by
  have hrun : ∀ t : Traffic In Out, (∀ j ∈ t.journeys, j.now = t.now) →
      ∀ j ∈ (t.run svc acts).journeys, j.now = (t.run svc acts).now := by
    induction acts with
    | nil => exact fun t h => h
    | cons act acts ih =>
      intro t h
      apply ih
      cases act with
      | arrive request =>
        intro j hj
        rcases List.mem_append.mp hj with hj | hj
        · exact h j hj
        · rw [List.mem_singleton.mp hj]
          rfl
      | advance d =>
        intro j hj
        obtain ⟨j', hj', rfl⟩ := List.mem_map.mp hj
        exact congrArg (· + d.nanos) (h j' hj')
      | touch i deed =>
        cases hj : t.journeys[i]? with
        | none =>
          have htouch : t.step svc (.touch i deed) = t := by
            simp only [Traffic.step, Traffic.touch, hj]
          rw [htouch]
          exact h
        | some j =>
          rw [Traffic.step, touch_eq svc hj]
          intro j' hj'
          rcases List.mem_or_eq_of_mem_set hj' with hj' | rfl
          · exact h j' hj'
          · rw [Journey.now_act]
            exact h j (List.mem_of_getElem? hj)
  exact hrun (quiet now es) (by rintro j ⟨⟩)

/-- There is always such a queue. -/
theorem exists_queues {t : Traffic In Out} (h : ∀ j ∈ t.journeys, j.now = t.now) :
    ∃ opened queue, t.Queues opened queue := by
  refine ⟨t.journeys.zipIdx.flatMap fun x => x.1.opened.map fun c => (x.2, c),
    t.journeys.zipIdx.flatMap fun x => x.1.waiting.map fun w => (x.2, w), ?_, ?_⟩
  · intro i j hj
    rw [Moment.of, own_flatMap_zipIdx Journey.opened, if_pos (Nat.zero_le i), Nat.sub_zero, hj,
      ← h j (List.mem_of_getElem? hj)]
    rfl
  · intro i j hj
    rw [own_flatMap_zipIdx Journey.waiting, if_pos (Nat.zero_le i), Nat.sub_zero, hj]
    rfl

/-! ## Undisturbed -/

/-- A request among others is as it would be by itself, with whatever estimators. -/
structure Undisturbed (svc : Service In Out) (now : Instant) (es es' : Estimators)
    (acts : List (Act In)) (i : Nat) : Prop where
  /-- After each act, it is where it would be: at the same stage, with the same endings. -/
  journey : ∀ before, before <+: acts →
    ((quiet now es').run svc (alone i 0 before)).journeys =
      ((quiet now es).run svc before).journeys[i]?.toList
  /-- The same was observed of it, at the same times. -/
  observed : ∀ before, before <+: acts →
    about 0 ((quiet now es').run svc (alone i 0 before)).trace =
      about i ((quiet now es).run svc before).trace
  /-- Requests that share a registry are resolved as by one that nobody asked before. -/
  routed : ∀ (Key : Type) [DecidableEq Key] (r : RouteRegistry Key In Out),
    svc.resolver = r.answer → ∀ before, before <+: acts →
      (Routed.run svc ⟨r, quiet now es⟩ before).traffic = (quiet now es).run svc before
  queued : ∀ before, before <+: acts →
    ∃ opened queue, ((quiet now es).run svc before).Queues opened queue
  /-- What rings the queue of all requests wakes its attempts in the order in which its polls do. -/
  roused : ∀ before, before <+: acts → ∀ opened queue,
    ((quiet now es).run svc before).Queues opened queue →
    ∀ j, ((quiet now es).run svc before).journeys[i]? = some j →
      (∀ session, j.stage = .held session →
        (session.rouse j.now opened i queue).poll svc j.moment = session.poll svc j.moment) ∧
      (∀ task, j.stage = .straggling task →
        (task.rouse j.now opened i queue).poll svc j.moment = task.poll svc j.moment)

/-- However requests are interleaved, none of them is disturbed by the others, if no policy looks at
estimators. -/
theorem undisturbed_run {svc : Service In Out} (h : svc.Unswayed) (now : Instant)
    (es es' : Estimators) (acts : List (Act In)) (i : Nat) :
    Undisturbed svc now es es' acts i where
  journey := fun before _ => (isolates_run (isolates_quiet i now es es') h before).journeys
  observed := fun before _ => (isolates_run (isolates_quiet i now es es') h before).trace
  routed := by
    intro Key _ r hresolver before _
    rw [Routed.traffic_run, ← hresolver]
  queued := fun before _ => exists_queues (now_of_mem_run svc now es before)
  roused := by
    intro before _ opened queue hqueues j hj
    have hmoment := hqueues.moment i j hj
    have hnow : j.now = ((quiet now es).run svc before).now :=
      now_of_mem_run svc now es before j (List.mem_of_getElem? hj)
    have hwaiting := hqueues.waiting i j hj
    rw [hmoment, hnow]
    constructor
    · intro session hheld
      rw [Journey.waiting, hheld] at hwaiting
      exact funext fun es => Session.poll_rouse hwaiting svc _ opened es
    · intro task htask
      rw [Journey.waiting, htask] at hwaiting
      exact funext fun es => Task.poll_rouse hwaiting svc _ opened es

/-- Two requests, of which the second is late to be polled first. -/
def crossing : List (Act Nat) :=
  [.arrive 2, .arrive 2, .touch 0 .poll, .advance (.ofSeconds 1), .touch 1 .poll, .touch 0 .poll,
    .advance (.ofSeconds 1), .touch 1 .poll, .touch 0 .poll, .advance (.ofSeconds 1),
    .touch 1 .poll]

/-- The second request returns when it would without the first. -/
theorem undisturbed_run_crossing :
    relay.Unswayed ∧ (∀ i, Undisturbed relay 0 [] [] crossing i) ∧
      ((quiet 0 []).run relay crossing).journeys.map (fun j => (j.seen, j.endings)) =
        [(2000000000, [.returned 2]), (3000000000, [.returned 2])] := by
  have hrelay : relay.Unswayed := by
    intro request
    apply Policy.unswayed_of_ne
    rintro name q ⟨⟩
  exact ⟨hrelay, undisturbed_run hrelay 0 [] [] crossing, by decide +kernel⟩

end Traffic

end RequestHedging
