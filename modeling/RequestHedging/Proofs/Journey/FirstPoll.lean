import RequestHedging.Proofs.Journey.Course

/-!
# What the first poll of a request comes to

A request that hedging is enabled for is raced from its first poll on, unless the input of
its primary attempt is refused or a callback crashes (`races_or_plain_enter`).  In these
cases no other input is ever asked for, and nothing goes on after the session.

Before its first poll nothing is observed of a request, so every run of it is one from its
first poll on (`run_fresh`).
-/

namespace RequestHedging

open Race Trace

variable {In Out : Type}

namespace Session

/-- What a poll of the inner service that has the request itself leads to. -/
inductive Straight (start : Option Instant) : Progress In Out → Prop where
  | waits (flights : Flights In Out) : Straight start (.pending ⟨.direct flights, start⟩)
  | ends (ending : Ending Out) (cancelled : List Nat) : Straight start (.ended ending cancelled)

section Poll

variable {svc : Service In Out} {m : Moment} {es : Estimators} {start : Option Instant}

/-- Neither asks for the input of an attempt nor reports one. -/
def Mute (entries : List (Entry In Out)) : Prop :=
  ∀ event, .race event ∈ entries → event.asked? = none ∧ event.reported? = none

theorem Mute.append {entries entries' : List (Entry In Out)} (h : Mute entries)
    (h' : Mute entries') : Mute (entries ++ entries') := by
  intro event hevent
  rcases List.mem_append.mp hevent with hevent | hevent
  · exact h event hevent
  · exact h' event hevent

/-- When the deadline ends a session, nothing is added but that it does. -/
theorem exists_bound (svc : Service In Out) (now : Instant) (p : Polled In Out) :
    ∃ last, Mute last ∧ (∀ e ∈ last, e.request? = none) ∧
      (bound svc now p).entries = p.entries ++ last ∧
      (bound svc now p).estimators = p.estimators := by
  have hnothing : p.entries = p.entries ++ [] := (List.append_nil _).symm
  unfold bound
  split
  · split
    · exact ⟨[], by simp [Mute], by simp, hnothing, rfl⟩
    · split
      · refine ⟨_, ?_, ?_, rfl, rfl⟩ <;> unfold logged <;> split <;> simp [Mute]
      · exact ⟨[], by simp [Mute], by simp, hnothing, rfl⟩
  · exact ⟨[], by simp [Mute], by simp, hnothing, rfl⟩

theorem mute_bound (svc : Service In Out) (now : Instant) {p : Polled In Out}
    (h : Mute p.entries) : Mute (bound svc now p).entries := by
  obtain ⟨last, hlast, -, hentries, -⟩ := exists_bound svc now p
  rw [hentries]
  exact h.append hlast

theorem Straight.bound {now : Instant} {p : Polled In Out} (h : Straight start p.progress) :
    Straight start (bound svc now p).progress := by
  unfold Session.bound
  split
  · split
    · exact h
    · split
      · exact .ends _ _
      · exact h
  · exact h

theorem mute_pollDirect (svc : Service In Out) (m : Moment) (es : Estimators)
    (start : Option Instant) (flights : Flights In Out) :
    Mute (pollDirect svc m es start flights).entries ∧
      Straight start (pollDirect svc m es start flights).progress ∧
      (pollDirect svc m es start flights).estimators = es := by
  have hmade : Mute (((flights.wake m).poll svc.callbacks.serve m).made.map fun call =>
      (.race (.called call) : Entry In Out)) := by
    intro event hevent
    obtain ⟨call, -, hcall⟩ := List.mem_map.mp hevent
    cases hcall
    exact ⟨rfl, rfl⟩
  unfold pollDirect
  dsimp only
  split
  · exact ⟨hmade, .waits _, rfl⟩
  · exact ⟨hmade, .ends _ _, rfl⟩
  · exact ⟨hmade, .ends _ _, rfl⟩

/-- A request whose primary attempt is not granted goes straight to the inner service, or nowhere;
no other input was asked for. -/
theorem exists_commence_of_not_granted {request : In} {d : Decision}
    (h : ∀ left input, svc.callbacks.copy request (d.attempt 0) ≠ .ok (left, some input))
    (m : Moment) (ls : List (Listener In Out)) (es : Estimators) :
    ∃ p : Polled In Out, commence svc m d ls es request =
        { p with entries := [.race (.copied (d.attempt 0) request)] ++ p.entries } ∧
      Mute p.entries ∧ Straight (some m.now) p.progress := by
  cases hcopy : svc.callbacks.copy request (d.attempt 0) with
  | error crash => exact ⟨⟨[], es, _⟩, commence_of_crash hcopy m ls es, by simp [Mute], .ends _ _⟩
  | ok answer =>
    obtain ⟨left, _ | input⟩ := answer
    · obtain ⟨hmute, hstraight, -⟩ :=
        mute_pollDirect svc m es (some m.now) (directFlight m.now left)
      exact ⟨_, commence_of_refused hcopy m ls es, hmute, hstraight⟩
    · exact absurd hcopy (h left input)

end Poll

end Session

namespace Journey

/-- A request that is not raced: the inner service has it itself, or nobody does. -/
structure Plain (asked : List Attempt) (j : Journey In Out) : Prop where
  stage : j.stage = .over ∨ ∃ flights start, j.stage = .held ⟨.direct flights, start⟩
  quiet : j.aftermath = []
  /-- The inputs of these attempts were asked for, and no others will be. -/
  asked : j.events.filterMap Event.asked? = asked

section Plain

variable {svc : Service In Out} {asked : List Attempt} {j : Journey In Out}

theorem asked_observe {entries : List (Entry In Out)} (h : Session.Mute entries) :
    (j.observe entries).events.filterMap Event.asked? = j.events.filterMap Event.asked? := by
  have hnone : (entries.filterMap Entry.race?).filterMap Event.asked? = [] := by
    apply List.filterMap_eq_nil_iff.mpr
    intro event hevent
    obtain ⟨e, he, hrace⟩ := List.mem_filterMap.mp hevent
    cases e with
    | race event' =>
      cases hrace
      exact (h event he).1
    | _ => cases hrace
  rw [events_observe rfl, List.filterMap_append, hnone, List.append_nil]

theorem observe_append (entries entries' : List (Entry In Out)) (j : Journey In Out) :
    j.observe (entries ++ entries') = (j.observe entries).observe entries' := by
  simp only [observe, List.map_append, List.append_assoc]

/-- A poll leaves such a request as it is. -/
theorem Plain.poll (h : Plain asked j) (es : Estimators) : Plain asked (j.poll svc es) := by
  rcases h.stage with hover | ⟨flights, start, hheld⟩
  · rw [poll_of_not_held es (by simp [hover])]
    exact h
  · obtain ⟨hmute, hstraight, -⟩ := Session.mute_pollDirect svc j.moment es start flights
    have hentries : Session.Mute (Session.poll svc j.moment es ⟨.direct flights, start⟩).entries :=
      Session.mute_bound svc _ hmute
    have hprogress :
        Session.Straight start (Session.poll svc j.moment es ⟨.direct flights, start⟩).progress :=
      hstraight.bound
    have hasked := (asked_observe (j := j) hentries).trans h.asked
    rw [poll_of_held hheld]
    generalize Session.poll svc j.moment es ⟨.direct flights, start⟩ = polled at *
    obtain ⟨entries, es', progress⟩ := polled
    cases hprogress with
    | waits flights' => exact ⟨.inr ⟨flights', start, rfl⟩, h.quiet, hasked⟩
    | ends ending cancelled => exact ⟨.inl rfl, h.quiet, hasked⟩

/-- Whatever happens to such a request, it stays one. -/
theorem plain_run (h : Plain asked j) (acts : List Act) : Plain asked (j.run svc acts) := by
  induction acts generalizing j with
  | nil => exact h
  | cons act acts ih =>
    refine ih ?_
    cases act with
    | advance d => exact ⟨h.stage, h.quiet, h.asked⟩
    | complete calls => exact ⟨h.stage, h.quiet, h.asked⟩
    | poll es => exact h.poll es
    | drop =>
      rw [step]
      unfold drop
      split
      · exact ⟨.inl rfl, h.quiet, h.asked⟩
      · exact h
    | drive es =>
      have hnot : ∀ task, j.stage ≠ .straggling task := by
        intro task htask
        rcases h.stage with hover | ⟨flights, start, hheld⟩
        · cases hover.symm.trans htask
        · cases hheld.symm.trans htask
      rw [step, drive_of_not_straggling es hnot]
      exact h

end Plain

section Enter

variable {svc : Service In Out} {j : Journey In Out} {request : In}

/-- A first poll that leads straight to the inner service, or nowhere. -/
theorem plain_enter {now : Instant} {opened : List Nat} {es : Estimators} {asked : List Attempt}
    {start : Option Instant} {before : List (Entry In Out)} {p : Session.Polled In Out}
    (hpoll : Session.poll svc ⟨now, opened⟩ es (.ofRequest request) =
      Session.bound svc now { p with entries := before ++ p.entries })
    (hbefore : (before.filterMap Entry.race?).filterMap Event.asked? = asked)
    (hmute : Session.Mute p.entries) (hstraight : Session.Straight start p.progress) :
    Plain asked (enter svc now opened es request) := by
  have hmute' := Session.mute_bound svc now hmute
  have hstraight' : Session.Straight start (Session.bound svc now p).progress := hstraight.bound
  rw [Session.bound_prepend] at hpoll
  rw [enter, poll_of_held (j := fresh now opened request) rfl,
    show (fresh now opened request).moment = ⟨now, opened⟩ from rfl, hpoll]
  generalize Session.bound svc now p = polled at hmute' hstraight'
  have hasked : ((fresh now opened request).observe (before ++ polled.entries)).events.filterMap
      Event.asked? = asked := by
    rw [observe_append, asked_observe hmute', events_observe rfl]
    exact hbefore
  obtain ⟨entries, es', progress⟩ := polled
  cases hstraight' with
  | waits flights => exact ⟨.inr ⟨flights, _, rfl⟩, rfl, hasked⟩
  | ends ending cancelled => exact ⟨.inl rfl, rfl, hasked⟩

/-- A request that hedging is enabled for is raced, or it is not and then only the input of its
primary attempt was asked for. -/
theorem races_or_plain_enter (henabled : svc.enabled request = true) (now : Instant)
    (opened : List Nat) (es : Estimators) {d : Decision}
    (hdecision : (Service.decide (svc.resolve request).1.policy now es request :
      Decision × List (Entry In Out) × Estimators).1 = d) :
    svc.Races now es request d (svc.resolve request).1.listeners ∨
      Plain [d.attempt 0] (enter svc now opened es request) := by
  by_cases hgranted :
      ∃ left input, svc.callbacks.copy request (d.attempt 0) = .ok (left, some input)
  · exact .inl ⟨henabled, hdecision, rfl, hgranted⟩
  · refine .inr ?_
    have hnot : ∀ left input, svc.callbacks.copy request (d.attempt 0) ≠ .ok (left, some input) :=
      fun left input h => hgranted ⟨left, input, h⟩
    obtain ⟨es', hestimators⟩ : ∃ es', (Service.decide (svc.resolve request).1.policy now es
      request : Decision × List (Entry In Out) × Estimators).2.2 = es' := ⟨_, rfl⟩
    obtain ⟨p, hcommence, hmute, hstraight⟩ :=
      Session.exists_commence_of_not_granted hnot ⟨now, opened⟩
        (svc.resolve request).1.listeners es'
    have hpoll := Session.poll_ofRequest (m := ⟨now, opened⟩) henabled hdecision hestimators
    rw [hcommence, ← Session.bound_prepend, ← List.append_assoc] at hpoll
    refine plain_enter hpoll ?_ hmute hstraight
    rw [List.filterMap_append, Session.filterMap_race_preface]
    rfl

/-- A request that hedging is not enabled for goes straight to the inner service. -/
theorem plain_enter_of_disabled (hdisabled : svc.enabled request = false) (now : Instant)
    (opened : List Nat) (es : Estimators) : Plain [] (enter svc now opened es request) := by
  obtain ⟨hmute, hstraight, -⟩ := Session.mute_pollDirect svc ⟨now, opened⟩ es none
    (Session.directFlight now request)
  let polled : Session.Polled In Out :=
    Session.pollDirect svc ⟨now, opened⟩ es none (Session.directFlight now request)
  have hpoll : Session.poll svc ⟨now, opened⟩ es (.ofRequest request) =
      Session.bound svc now { polled with entries := [.asked request] ++ polled.entries } := by
    simp only [Session.poll, Session.pollUnbounded, Session.ofRequest, hdisabled, polled,
      Bool.false_eq_true, if_false, List.singleton_append]
  exact plain_enter hpoll rfl hmute hstraight

/-- A request that was not polled yet, or was dropped before. -/
structure Unpolled (request : In) (j : Journey In Out) : Prop where
  stage : j.stage = .held (.ofRequest request) ∨ j.stage = .over
  trace : j.trace = []
  quiet : j.aftermath = []
  ended : j.endings = []

theorem Unpolled.poll_eq (svc : Service In Out) (h : Unpolled request j)
    (hheld : j.stage = .held (.ofRequest request)) (es : Estimators) :
    j.poll svc es = enter svc j.now j.opened es request := by
  obtain ⟨hstage, htrace, hquiet, hended⟩ := h
  obtain ⟨now, opened, seen, stage, trace, aftermath, endings⟩ := j
  obtain rfl := hheld
  obtain rfl := htrace
  obtain rfl := hquiet
  obtain rfl := hended
  rfl

theorem Unpolled.not_straggling (h : Unpolled request j) (task : Task In Out) :
    j.stage ≠ .straggling task := by
  intro htask
  rcases h.stage with hheld | hover
  · cases hheld.symm.trans htask
  · cases hover.symm.trans htask

/-- Nothing but its first poll makes a difference to such a request. -/
theorem Unpolled.step (svc : Service In Out) (h : Unpolled request j) (act : Act) :
    Unpolled request (j.step svc act) ∨
      ∃ es, act = .poll es ∧ j.stage = .held (.ofRequest request) ∧
        j.step svc act = enter svc j.now j.opened es request := by
  have hsame := h
  obtain ⟨hstage, htrace, hquiet, hended⟩ := h
  cases act with
  | advance d => exact .inl ⟨hstage, htrace, hquiet, hended⟩
  | complete calls => exact .inl ⟨hstage, htrace, hquiet, hended⟩
  | poll es =>
    rcases hstage with hheld | hover
    · exact .inr ⟨es, rfl, hheld, hsame.poll_eq svc hheld es⟩
    · rw [Journey.step, poll_of_not_held es (by simp [hover])]
      exact .inl ⟨.inr hover, htrace, hquiet, hended⟩
  | drop =>
    rw [Journey.step]
    unfold drop
    split
    · exact .inl ⟨.inr rfl, htrace, hquiet, hended⟩
    · exact .inl ⟨hstage, htrace, hquiet, hended⟩
  | drive es =>
    rw [Journey.step, drive_of_not_straggling es hsame.not_straggling]
    exact .inl ⟨hstage, htrace, hquiet, hended⟩

theorem unpolled_fresh (now : Instant) (opened : List Nat) (request : In) :
    Unpolled request (fresh now opened request : Journey In Out) :=
  ⟨.inl rfl, rfl, rfl, rfl⟩

/-- Every run in which a request is polled is one from its first poll on. -/
theorem run_of_unpolled (svc : Service In Out) (h : Unpolled request j) (acts : List Act) :
    Unpolled request (j.run svc acts) ∨
      ∃ now opened es after, j.run svc acts = (enter svc now opened es request).run svc after := by
  induction acts generalizing j with
  | nil => exact .inl h
  | cons act acts ih =>
    rcases h.step svc act with hunpolled | ⟨es, -, -, henter⟩
    · exact ih hunpolled
    · refine .inr ⟨j.now, j.opened, es, acts, ?_⟩
      rw [← henter]
      rfl

def firstPoll? : Instant → List Act → Option (Instant × Estimators)
  | _, [] => none
  | now, .advance by_ :: acts => firstPoll? (now + by_.nanos) acts
  | now, .poll es :: _ => some (now, es)
  | _, .drop :: _ => none
  | now, .complete _ :: acts | now, .drive _ :: acts => firstPoll? now acts

/-- Up to its first poll, a request fares alike with all services. -/
theorem exists_run_of_firstPoll? {t : Instant} {es : Estimators} {acts : List Act}
    (h : Unpolled request j) (hheld : j.stage = .held (.ofRequest request))
    (hfirst : firstPoll? j.now acts = some (t, es)) :
    ∃ opened after, ∀ svc : Service In Out,
      j.run svc acts = (enter svc t opened es request).run svc after := by
  induction acts generalizing j with
  | nil => cases hfirst
  | cons act acts ih =>
    obtain ⟨-, htrace, hquiet, hended⟩ := id h
    cases act with
    | advance by_ =>
      exact ih (j := { j with now := j.now + by_.nanos }) ⟨.inl hheld, htrace, hquiet, hended⟩ hheld
        hfirst
    | complete calls =>
      exact ih (j := { j with opened := j.opened ++ calls }) ⟨.inl hheld, htrace, hquiet, hended⟩
        hheld hfirst
    | poll es' =>
      cases hfirst
      exact ⟨j.opened, acts, fun svc => congrArg (fun j => run svc j acts) (h.poll_eq svc hheld es)⟩
    | drop => cases hfirst
    | drive es' =>
      obtain ⟨opened, after, hrun⟩ := ih h hheld hfirst
      refine ⟨opened, after, fun svc => ?_⟩
      have hdrive : j.step svc (.drive es') = j := drive_of_not_straggling es' h.not_straggling
      rw [← hrun, run, List.foldl_cons, hdrive, run]

end Enter

end Journey

end RequestHedging
