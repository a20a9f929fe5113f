import RequestHedging.Proofs.Journey.Deadline
import RequestHedging.Proofs.Journey.FirstPoll
import RequestHedging.Proofs.Race.Solo

/-!
# Requests that the inner service gets as they are

A request that hedging is not enabled for, or whose primary input is refused, is not raced.  The
inner service is called for it once, in the first poll, and how that call ends is how the session
ends, whatever its output means; only a drop or the deadline can end it before (`Direct`).
Nothing is announced, reported or measured, and none of its attempts is counted.

So the first poll of a request starts its race, or calls the inner service, or it breaks down
because the input of the primary attempt cannot be made (`enter_cases`).
-/

namespace RequestHedging

open Race Trace

variable {In Out : Type}

namespace Session

def Ending.ofResult : Except Crash Out → Ending Out
  | .ok output => .returned output
  | .error crash => .crashed (.callback crash)

/-- Where a session without a race stands after a poll, and what is observed at last. -/
inductive DirectLed (svc : Service In Out) (e : Execution Out) (begun : Instant) (m : Moment)
    (start : Option Instant) : List (Entry In Out) → Progress In Out → Prop where
  | ends (finished : e.isOver 0 begun m = true) :
    DirectLed svc e begun m start [] (.ended (.ofResult e.result) [])
  | waits (f : Flights In Out) (pending : e.isOver 0 begun m = false)
      (awaits : f.Awaits .only e begun) :
    DirectLed svc e begun m start [] (.pending ⟨.direct f, start⟩)
  | bounded (deadline : Deadline Out) (first : Instant) (cancelled : List Nat)
      (pending : e.isOver 0 begun m = false) (hdeadline : svc.deadline = some deadline)
      (hstart : start = some first) :
    DirectLed svc e begun m start (Journey.lastWords svc first m.now 0)
      (.ended (.returned (deadline.output (elapsed first m.now) 0)) cancelled)

/-- A poll of a session without a race makes the calls that are left to make. -/
theorem exists_directLed_poll (svc : Service In Out) {m : Moment} (es : Estimators)
    (start : Option Instant) {flights : Flights In Out} {e : Execution Out} {begun : Instant}
    {made : List (Call In)}
    (h : Flights.Goes .only e begun m made ((flights.wake m).poll svc.callbacks.serve m)) :
    ∃ last, (poll svc m es ⟨.direct flights, start⟩).entries =
        (made.map fun call => .race (.called call)) ++ last ∧
      DirectLed svc e begun m start last (poll svc m es ⟨.direct flights, start⟩).progress := by
  simp only [poll, pollUnbounded, pollDirect]
  generalize (flights.wake m).poll svc.callbacks.serve m = polled at h ⊢
  cases h with
  | lands finished =>
    refine ⟨[], ?_, ?_⟩
    · cases e.result <;> exact (List.append_nil _).symm
    · have hends : DirectLed svc e begun m start [] _ := .ends finished
      cases hresult : e.result with
      | ok output => rwa [hresult] at hends
      | error crash => rwa [hresult] at hends
  | waits f pending awaits =>
    dsimp only
    unfold bound
    dsimp only
    split
    · rename_i s deadline hprogress hdeadline
      cases hprogress
      split
      · exact ⟨[], (List.append_nil _).symm, .waits f pending awaits⟩
      · rename_i first hfirst
        split
        · exact ⟨_, rfl, .bounded deadline first _ pending hdeadline hfirst⟩
        · exact ⟨[], (List.append_nil _).symm, .waits f pending awaits⟩
    · exact ⟨[], (List.append_nil _).symm, .waits f pending awaits⟩

/-- What is observed of a request before the inner service gets it, what it then gets, and from when
a deadline counts. -/
inductive Passes (svc : Service In Out) (now : Instant) (es : Estimators) (request : In) :
    List (Entry In Out) → In → Option Instant → Prop where
  | disabled (hdisabled : svc.enabled request = false) :
    Passes svc now es request [.asked request] request none
  | refused (d : Decision) (left : In) (henabled : svc.enabled request = true)
      (hdecision : (Service.decide (svc.resolve request).1.policy now es request :
        Decision × List (Entry In Out) × Estimators).1 = d)
      (hcopy : svc.callbacks.copy request (d.attempt 0) = .ok (left, none)) :
    Passes svc now es request
      (preface svc now es request ++ [.race (.copied (d.attempt 0) request)]) left (some now)

/-- The first poll of such a request. -/
theorem Passes.exists_poll {svc : Service In Out} {m : Moment} {es : Estimators} {request left : In}
    {before : List (Entry In Out)} {start : Option Instant}
    (h : Passes svc m.now es request before left start) :
    ∃ es', poll svc m es (ofRequest request) =
      { poll svc m es' ⟨.direct (directFlight m.now left), start⟩ with
        entries :=
          before ++ (poll svc m es' ⟨.direct (directFlight m.now left), start⟩).entries } := by
  cases h with
  | disabled hdisabled =>
    refine ⟨es, ?_⟩
    rw [poll, poll, ← bound_prepend]
    congr 1
    simp [pollUnbounded, ofRequest, hdisabled]
  | refused d left henabled hdecision hcopy =>
    obtain ⟨es', hestimators⟩ : ∃ es', (Service.decide (svc.resolve request).1.policy m.now es
      request : Decision × List (Entry In Out) × Estimators).2.2 = es' := ⟨_, rfl⟩
    refine ⟨es', ?_⟩
    rw [poll_ofRequest henabled hdecision hestimators, commence_of_refused hcopy, bound_prepend,
      List.append_assoc]
    rfl

end Session

namespace Journey

/-- How a request without a race stands, by what was observed last. -/
inductive Fares (svc : Service In Out) (e : Execution Out) (begun : Instant)
    (start : Option Instant) (j : Journey In Out) : List (Entry In Out) → Prop where
  | held (f : Flights In Out) (stage : j.stage = .held ⟨.direct f, start⟩)
      (awaits : f.Awaits .only e begun) (ended : j.endings = []) : Fares svc e begun start j []
  | dropped (stage : j.stage = .over) (ended : j.endings = []) : Fares svc e begun start j []
  | returned (stage : j.stage = .over) (ended : j.endings = [.ofResult e.result]) :
    Fares svc e begun start j []
  | bounded (deadline : Deadline Out) (first now : Instant)
      (hdeadline : svc.deadline = some deadline) (hstart : start = some first)
      (stage : j.stage = .over)
      (ended : j.endings = [.returned (deadline.output (elapsed first now) 0)]) :
    Fares svc e begun start j (lastWords svc first now 0)

/-- While its caller has such a request, its call is awaited. -/
theorem Fares.of_held {svc : Service In Out} {e : Execution Out} {begun : Instant}
    {start : Option Instant} {j : Journey In Out} {last : List (Entry In Out)}
    {session : Session In Out} (h : Fares svc e begun start j last)
    (hheld : j.stage = .held session) :
    ∃ f, session = ⟨.direct f, start⟩ ∧ f.Awaits .only e begun ∧ j.endings = [] ∧ last = [] := by
  cases h with
  | held f stage awaits ended =>
    cases hheld.symm.trans stage
    exact ⟨f, rfl, awaits, ended, rfl⟩
  | dropped stage => cases hheld.symm.trans stage
  | returned stage => cases hheld.symm.trans stage
  | bounded deadline first now hdeadline hstart stage => cases hheld.symm.trans stage

/-- A request that the inner service was called with as it is. -/
structure Direct (svc : Service In Out) (before : List (Entry In Out)) (input : In)
    (begun : Instant) (start : Option Instant) (j : Journey In Out) : Prop where
  quiet : j.aftermath = []
  told : ∃ last, j.trace.map Prod.snd =
      before ++ .race (.called ⟨.only, 0, input⟩) :: last ∧
    Fares svc (svc.callbacks.serve input 0) begun start j last

section Direct

variable {svc : Service In Out} {before : List (Entry In Out)} {input : In} {begun : Instant}
  {start : Option Instant} {j : Journey In Out}

/-- What a poll of such a session leads to. -/
theorem direct_conclude {e : Execution Out} {m : Moment} {last : List (Entry In Out)}
    {progress : Session.Progress In Out}
    (h : Session.DirectLed svc e begun m start last progress) (hended : j.endings = []) :
    Fares svc e begun start (j.conclude progress) last := by
  cases h with
  | ends finished => exact .returned rfl (by rw [conclude, hended, List.nil_append])
  | waits f pending awaits => exact .held f rfl awaits hended
  | bounded deadline first cancelled pending hdeadline hstart =>
    exact .bounded deadline first m.now hdeadline hstart rfl
      (by rw [conclude, hended, List.nil_append])

theorem Direct.poll (h : Direct svc before input begun start j) (es : Estimators) :
    Direct svc before input begun start (j.poll svc es) := by
  by_cases hheld : ∃ session, j.stage = .held session
  · obtain ⟨session, hsession⟩ := hheld
    obtain ⟨hquiet, last, htrace, hfares⟩ := h
    obtain ⟨f, rfl, awaits, ended, rfl⟩ := hfares.of_held hsession
    obtain ⟨last, hentries, hled⟩ := Session.exists_directLed_poll svc es start
      (awaits.goes svc.callbacks.serve j.moment)
    rw [List.map_nil, List.nil_append] at hentries
    rw [poll_of_held hsession, hentries]
    refine ⟨by rw [aftermath_conclude]; exact hquiet, last, ?_, direct_conclude hled ended⟩
    rw [trace_conclude, observe, List.map_append, map_snd_stamp, htrace]
    simp
  · rw [poll_of_not_held es fun session hsession => hheld ⟨session, hsession⟩]
    exact h

theorem filterMap_lastWords {β : Type} {view : Entry In Out → Option β}
    (hgaveUp : ∀ since issued, view (.gaveUp since issued) = none)
    (hlog : ∀ n, view (.log n) = none) (svc : Service In Out) (first now : Instant)
    (issued : UInt32) :
    (lastWords svc first now issued : List (Entry In Out)).filterMap view = [] := by
  refine List.filterMap_eq_nil_iff.mpr fun e he => ?_
  rcases eq_of_mem_lastWords he with rfl | rfl
  · exact hlog _
  · exact hgaveUp _ _

/-- Beside the call, nothing but the deadline is observed after what came before. -/
theorem Direct.filterMap_trace {β : Type} {view : Entry In Out → Option β}
    (hgaveUp : ∀ since issued, view (.gaveUp since issued) = none)
    (hlog : ∀ n, view (.log n) = none) (h : Direct svc before input begun start j) :
    (j.trace.map Prod.snd).filterMap view =
      before.filterMap view ++ [.race (.called ⟨.only, 0, input⟩)].filterMap view := by
  obtain ⟨-, last, htrace, hfares⟩ := h
  have hlast : last.filterMap view = [] := by
    cases hfares with
    | bounded deadline first now => exact filterMap_lastWords hgaveUp hlog svc first now 0
    | _ => rfl
  rw [htrace, ← List.singleton_append, List.filterMap_append, List.filterMap_append, hlast,
    List.append_nil]

/-- The call is the only event after what happened before. -/
theorem Direct.events_eq (h : Direct svc before input begun start j) :
    j.events = before.filterMap Entry.race? ++ [.called ⟨.only, 0, input⟩] := by
  have hraced : j.events = (j.trace.map Prod.snd).filterMap Entry.race? := by
    rw [List.filterMap_map]
    rfl
  rw [hraced, h.filterMap_trace (fun _ _ => rfl) fun _ => rfl]
  rfl

/-- The inner service is called once. -/
theorem Direct.calls_eq (h : Direct svc before input begun start j)
    (hbefore : (before.filterMap Entry.race?).filterMap Event.call? = []) :
    j.calls = [⟨.only, 0, input⟩] := by
  rw [calls, laterEvents, h.quiet, List.filterMap_nil, List.append_nil, h.events_eq,
    List.filterMap_append, hbefore]
  rfl

/-- No task is left of a request without a race. -/
theorem Direct.not_straggling (h : Direct svc before input begun start j) (task : Task In Out) :
    j.stage ≠ .straggling task := by
  obtain ⟨-, last, -, hfares⟩ := h
  cases hfares with
  | held f stage => simp [stage]
  | dropped stage => simp [stage]
  | returned stage => simp [stage]
  | bounded deadline first now hdeadline hstart stage => simp [stage]

/-- Whatever happens next leaves such a request one. -/
theorem Direct.step (h : Direct svc before input begun start j) (act : Act) :
    Direct svc before input begun start (j.step svc act) := by
  have helsewhere : ∀ now opened,
      Direct svc before input begun start { j with now := now, opened := opened } := by
    intro now opened
    obtain ⟨hquiet, last, htrace, hfares⟩ := h
    refine ⟨hquiet, last, htrace, ?_⟩
    cases hfares with
    | held f stage awaits ended => exact .held f stage awaits ended
    | dropped stage ended => exact .dropped stage ended
    | returned stage ended => exact .returned stage ended
    | bounded deadline first now' hdeadline hstart stage ended =>
      exact .bounded deadline first now' hdeadline hstart stage ended
  cases act with
  | advance by_ => exact helsewhere _ j.opened
  | complete calls => exact helsewhere j.now _
  | poll es => exact h.poll es
  | drop =>
    by_cases hheld : ∃ session, j.stage = .held session
    · obtain ⟨session, hsession⟩ := hheld
      obtain ⟨hquiet, last, htrace, hfares⟩ := h
      obtain ⟨f, -, -, ended, rfl⟩ := hfares.of_held hsession
      rw [Journey.step, drop, hsession]
      exact ⟨hquiet, [], htrace, .dropped rfl ended⟩
    · rw [Journey.step, drop_of_not_held fun session hsession => hheld ⟨session, hsession⟩]
      exact h
  | drive es =>
    rw [Journey.step, drive_of_not_straggling es h.not_straggling]
    exact h

/-- A request without a race stays one, whatever happens. -/
theorem direct_run (h : Direct svc before input begun start j) (acts : List Act) :
    Direct svc before input begun start (j.run svc acts) := by
  induction acts generalizing j with
  | nil => exact h
  | cons act acts ih => exact ih (h.step act)

/-- The first poll of a request that is not raced calls the inner service. -/
theorem direct_enter {now : Instant} {es : Estimators} {request : In}
    (h : Session.Passes svc now es request before input start) (opened : List Nat) :
    Direct svc before input now start (enter svc now opened es request) := by
  obtain ⟨es', hpoll⟩ := Session.Passes.exists_poll (m := ⟨now, opened⟩) h
  obtain ⟨last, hentries, hled⟩ := Session.exists_directLed_poll svc (m := ⟨now, opened⟩) es' start
    (Flights.goes_start svc.callbacks.serve ⟨now, opened⟩ .only input)
  have hmoment : (fresh now opened request : Journey In Out).moment = ⟨now, opened⟩ := rfl
  rw [enter, poll_of_held (j := fresh now opened request) rfl, hmoment, hpoll]
  dsimp only [Session.directFlight]
  rw [hentries]
  refine ⟨by rw [aftermath_conclude]; rfl, last, ?_, direct_conclude hled rfl⟩
  rw [trace_conclude, observe, List.map_append, map_snd_stamp]
  rfl

end Direct

/-- A request whose primary input could not be made. -/
structure Broken (before : List (Entry In Out)) (crash : Crash) (j : Journey In Out) : Prop where
  stage : j.stage = .over
  quiet : j.aftermath = []
  trace : j.trace.map Prod.snd = before
  ended : j.endings = [.crashed (.callback crash)]

theorem broken_run {svc : Service In Out} {before : List (Entry In Out)} {crash : Crash}
    {j : Journey In Out} (h : Broken before crash j) (acts : List Act) :
    Broken before crash (j.run svc acts) := by
  obtain ⟨hover, htrace, haftermath, hendings⟩ := run_of_over svc h.stage acts
  exact ⟨hover, haftermath.trans h.quiet, by rw [htrace]; exact h.trace, hendings.trans h.ended⟩

/-- The first poll of a request that breaks down. -/
theorem broken_enter {svc : Service In Out} {now : Instant} {es : Estimators} {request : In}
    {d : Decision} {crash : Crash} (henabled : svc.enabled request = true)
    (hdecision : (Service.decide (svc.resolve request).1.policy now es request :
      Decision × List (Entry In Out) × Estimators).1 = d)
    (hcopy : svc.callbacks.copy request (d.attempt 0) = .error crash) (opened : List Nat) :
    Broken (Session.preface svc now es request ++ [.race (.copied (d.attempt 0) request)]) crash
      (enter svc now opened es request) := by
  obtain ⟨es', hestimators⟩ : ∃ es', (Service.decide (svc.resolve request).1.policy now es
    request : Decision × List (Entry In Out) × Estimators).2.2 = es' := ⟨_, rfl⟩
  have hpoll : Session.poll svc ⟨now, opened⟩ es (.ofRequest request) =
      ⟨Session.preface svc now es request ++ [.race (.copied (d.attempt 0) request)], es',
        .ended (.crashed (.callback crash)) []⟩ := by
    rw [Session.poll_ofRequest (m := ⟨now, opened⟩) henabled hdecision hestimators,
      Session.commence_of_crash hcopy]
    rfl
  have hmoment : (fresh now opened request : Journey In Out).moment = ⟨now, opened⟩ := rfl
  rw [enter, poll_of_held (j := fresh now opened request) rfl, hmoment, hpoll]
  refine ⟨rfl, rfl, ?_, rfl⟩
  rw [trace_conclude, observe, List.map_append, map_snd_stamp]
  rfl

/-- What the first poll of a request comes to. -/
theorem enter_cases (svc : Service In Out) (now : Instant) (opened : List Nat) (es : Estimators)
    (request : In) :
    (∃ d ls, svc.Races now es request d ls) ∨
    (∃ before input start, Session.Passes svc now es request before input start ∧
      Direct svc before input now start (enter svc now opened es request)) ∨
    ∃ (d : Decision) (crash : Crash), svc.callbacks.copy request (d.attempt 0) = .error crash ∧
      Broken (Session.preface svc now es request ++ [.race (.copied (d.attempt 0) request)]) crash
        (enter svc now opened es request) := by
  cases henabled : svc.enabled request with
  | false =>
    have hpasses : Session.Passes svc now es request [.asked request] request none :=
      .disabled henabled
    exact .inr (.inl ⟨_, _, _, hpasses, direct_enter hpasses opened⟩)
  | true =>
    obtain ⟨d, hdecision⟩ : ∃ d, (Service.decide (svc.resolve request).1.policy now es request :
      Decision × List (Entry In Out) × Estimators).1 = d := ⟨_, rfl⟩
    cases hcopy : svc.callbacks.copy request (d.attempt 0) with
    | error crash =>
      exact .inr (.inr ⟨d, crash, hcopy, broken_enter henabled hdecision hcopy opened⟩)
    | ok answer =>
      obtain ⟨left, _ | input⟩ := answer
      · have hpasses := Session.Passes.refused d left henabled hdecision hcopy
        exact .inr (.inl ⟨_, _, _, hpasses, direct_enter hpasses opened⟩)
      · exact .inl ⟨d, _, henabled, hdecision, rfl, left, input, hcopy⟩

end Journey

end RequestHedging
