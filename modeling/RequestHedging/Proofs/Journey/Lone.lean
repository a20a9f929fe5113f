import RequestHedging.Proofs.Journey.Chronicle
import RequestHedging.Proofs.Journey.Direct

/-!
# Requests without hedges

If the decision leaves a request without hedges, the inner service is called for it once, in its
first poll.  The session returns what comes of that call as soon as it is polled when the call is
over, and only the deadline or a drop can end it before (`sent_enter`).  It makes no difference
whether the request is raced or its input is refused, or what its output means.
-/

namespace RequestHedging

open Race Trace

variable {In Out : Type}

namespace Journey

/-- The inner service was called once for a request, and how that went since it was begun. -/
structure Sent (svc : Service In Out) (begun : Instant) (j : Journey In Out) (call : Call In) :
    Prop where
  called : j.calls = [call]
  /-- The result is what came of the call, unless the deadline passed. -/
  ended : ∀ ending ∈ j.endings,
    ending = .ofResult (svc.callbacks.serve call.copy call.number).result ∨ j.GaveUp
  /-- Once the call is over, a poll returns what came of it. -/
  returns : (∃ session, j.stage = .held session) →
    (svc.callbacks.serve call.copy call.number).isOver call.number begun j.moment = true →
    ∀ es, (j.poll svc es).endings =
      [.ofResult (svc.callbacks.serve call.copy call.number).result]

/-! ## A race without hedges -/

/-- How a request stands that is raced without hedges. -/
inductive Lone (d : Decision) (e : Execution Out) (begun : Instant) (ls : List (Listener In Out))
    (j : Journey In Out) : Prop where
  | held (r : Race In Out) (stage : j.stage = .held ⟨.racing ls r, some begun⟩)
      (awaits : r.flights.Awaits (d.attempt 0) e begun) (ended : j.endings = []) :
    Lone d e begun ls j
  | dropped (stage : j.stage = .over) (ended : j.endings = []) : Lone d e begun ls j
  | returned (stage : j.stage = .over) (ended : j.endings = [.ofResult e.result]) :
    Lone d e begun ls j
  | bounded (stage : j.stage = .over) (gaveUp : j.GaveUp) : Lone d e begun ls j

section Lone

variable {svc : Service In Out} {d : Decision} {begun : Instant} {ls : List (Listener In Out)}
  {j : Journey In Out} {r : Race In Out} {e : Execution Out} {made : List (Call In)}

/-- While its caller has such a request, its call is awaited. -/
theorem Lone.of_held (h : Lone d e begun ls j) {session : Session In Out}
    (hheld : j.stage = .held session) :
    ∃ r, session = ⟨.racing ls r, some begun⟩ ∧ r.flights.Awaits (d.attempt 0) e begun ∧
      j.endings = [] := by
  cases h with
  | held r stage awaits ended =>
    cases hheld.symm.trans stage
    exact ⟨r, rfl, awaits, ended⟩
  | dropped stage => cases hheld.symm.trans stage
  | returned stage => cases hheld.symm.trans stage
  | bounded stage => cases hheld.symm.trans stage

theorem Lone.not_straggling (h : Lone d e begun ls j) (task : Task In Out) :
    j.stage ≠ .straggling task := by
  cases h with
  | held r stage => simp [stage]
  | dropped stage => simp [stage]
  | returned stage => simp [stage]
  | bounded stage => simp [stage]

theorem Lone.elsewhere (h : Lone d e begun ls j) (now : Instant) (opened : List Nat) :
    Lone d e begun ls { j with now := now, opened := opened } := by
  cases h with
  | held r stage awaits ended => exact .held r stage awaits ended
  | dropped stage ended => exact .dropped stage ended
  | returned stage ended => exact .returned stage ended
  | bounded stage gaveUp => exact .bounded stage gaveUp

/-- When its caller drops such a request, it is one still. -/
theorem Lone.gone (h : Lone d e begun ls j) : Lone d e begun ls { j with stage := .over } := by
  cases h with
  | held r stage awaits ended => exact .dropped rfl ended
  | dropped stage ended => exact .dropped rfl ended
  | returned stage ended => exact .returned rfl ended
  | bounded stage gaveUp => exact .bounded rfl gaveUp

/-- What a poll of such a request leads to. -/
theorem lone_poll (hrecovery : ∀ output a crash, svc.callbacks.recovery output a ≠ .error crash)
    (hmax : d.maxHedges = 0) (es : Estimators) (h : InRace svc d begun ls j r)
    (hgoes : Flights.Goes (d.attempt 0) e begun j.moment made
      ((r.flights.wake j.moment).poll svc.callbacks.serve j.moment)) :
    (j.poll svc es).events.filterMap Event.call? = j.events.filterMap Event.call? ++ made ∧
      (j.poll svc es).aftermath = [] ∧ Lone d e begun ls (j.poll svc es) ∧
      (e.isOver 0 begun j.moment = true → (j.poll svc es).endings = [.ofResult e.result]) := by
  obtain ⟨last, progress, hpoll, hled⟩ := exists_written_poll svc es h.stage
  have hmax' : r.decision.maxHedges = 0 := h.running.timed.decision ▸ hmax
  obtain ⟨hmade, hsolo⟩ := soloLed_poll hrecovery rfl h.poised hmax' hgoes
  rw [hpoll]
  generalize r.poll svc.callbacks j.moment = raced at hled hmade hsolo ⊢
  obtain ⟨evs, p⟩ := raced
  dsimp only at hled hmade hsolo ⊢
  have hevents : (j.observe (evs.flatMap (written svc.telemetry ls) ++ last)).events =
      j.events ++ evs := events_observe_written hled.filterMap_race_last
  have hgaveUp : ∀ since issued, .gaveUp since issued ∈ last →
      (j.observe (evs.flatMap (written svc.telemetry ls) ++ last)).GaveUp :=
    fun since issued hmem => gaveUp_observe j (List.mem_append_right _ hmem) rfl
  generalize hseen : j.observe (evs.flatMap (written svc.telemetry ls) ++ last) = seen at *
  have hended : seen.endings = [] := by rw [← hseen, observe, h.ended]
  have hquiet : seen.aftermath = [] := by rw [← hseen, observe, h.quiet]
  have hcalled : ∀ q, (seen.conclude q).events.filterMap Event.call? =
      j.events.filterMap Event.call? ++ made := by
    intro q
    rw [events, trace_conclude, ← events, hevents, List.filterMap_append, hmade]
  refine ⟨hcalled _, by rw [aftermath_conclude]; exact hquiet, ?_⟩
  have hreturned : ∀ ending, [ending] = seen.endings ++ [ending] := by simp [hended]
  -- The deadline is asked only when the call is awaited still, so it cannot take its result.
  cases hsolo with
  | ends output r' finished result empty =>
    have hresult : (.returned output : Session.Ending Out) = .ofResult e.result := by
      rw [result]
      rfl
    cases hled with
    | ends _ _ hcancelled =>
      rw [← hresult]
      exact ⟨.returned rfl (hresult ▸ (hreturned _).symm), fun _ => (hreturned _).symm⟩
    | hands _ _ hspawner hleft => exact absurd (empty.symm.trans hleft) (by simp)
  | breaks crash r' finished result =>
    have hresult : (.crashed (.callback crash) : Session.Ending Out) = .ofResult e.result := by
      rw [result]
      rfl
    cases hled with
    | breaks _ _ =>
      rw [← hresult]
      exact ⟨.returned rfl (hresult ▸ (hreturned _).symm), fun _ => (hreturned _).symm⟩
  | waits r' pending awaits =>
    refine ⟨?_, fun hover => absurd (pending.symm.trans hover) (by simp)⟩
    cases hled with
    | waits _ hopen => exact .held r' rfl awaits hended
    | bounded _ deadline hdeadline hpassed =>
      exact .bounded rfl (hgaveUp _ _ (List.mem_append_right _ (List.mem_singleton_self _)))

/-- A request that is raced without hedges, whatever happens to it. -/
theorem lone_run (hrecovery : ∀ output a crash, svc.callbacks.recovery output a ≠ .error crash)
    (hmax : d.maxHedges = 0) {now : Instant} {es : Estimators} {request : In}
    (hraces : svc.Races now es request d ls) (opened : List Nat) (acts : List Act) :
    ∃ input, ((enter svc now opened es request).run svc acts).calls = [⟨d.attempt 0, 0, input⟩] ∧
      Lone d (svc.callbacks.serve input 0) now ls
        ((enter svc now opened es request).run svc acts) := by
  have hrun : ∃ input,
      ((enter svc now opened es request).run svc acts).events.filterMap Event.call? =
        [⟨d.attempt 0, 0, input⟩] ∧
      ((enter svc now opened es request).run svc acts).aftermath = [] ∧
      Lone d (svc.callbacks.serve input 0) now ls
        ((enter svc now opened es request).run svc acts) := by
    refine raced_induct hraces opened
      (P := fun j => ∃ input, j.events.filterMap Event.call? = [⟨d.attempt 0, 0, input⟩] ∧
        j.aftermath = [] ∧ Lone d (svc.callbacks.serve input 0) now ls j)
      (fun es' r hr hflights => ?_) (fun es' hr h => ?_) (fun es' _ hstage h => ?_)
      (fun now' opened' h => ?_) (fun h => ?_) acts
    · obtain ⟨input, hflights⟩ := hflights
      have hgoes := Flights.goes_start svc.callbacks.serve ⟨now, opened⟩ (d.attempt 0) input
      rw [← hflights] at hgoes
      obtain ⟨hcalls, hquiet, hlone, -⟩ := lone_poll hrecovery hmax es' hr hgoes
      refine ⟨input, ?_, hquiet, hlone⟩
      rw [hcalls, events_started svc d now es request opened ls r]
      rfl
    · obtain ⟨input, hcalls, -, hlone⟩ := h
      obtain ⟨r', hsession, awaits, -⟩ := hlone.of_held hr.stage
      cases hsession
      obtain ⟨hcalls', hquiet, hlone', -⟩ :=
        lone_poll hrecovery hmax es' hr (awaits.goes svc.callbacks.serve _)
      exact ⟨input, by rw [hcalls', hcalls, List.append_nil], hquiet, hlone'⟩
    · obtain ⟨input, -, -, hlone⟩ := h
      exact absurd hstage (hlone.not_straggling _)
    · obtain ⟨input, hcalls, hquiet, hlone⟩ := h
      exact ⟨input, hcalls, hquiet, hlone.elsewhere now' opened'⟩
    · obtain ⟨input, hcalls, hquiet, hlone⟩ := h
      exact ⟨input, hcalls, hquiet, hlone.gone⟩
  obtain ⟨input, hcalls, hquiet, hlone⟩ := hrun
  refine ⟨input, ?_, hlone⟩
  rw [calls, laterEvents, hquiet, List.filterMap_nil, List.append_nil]
  exact hcalls

end Lone

/-! ## Any request without hedges -/

section Sent

variable {svc : Service In Out} {now : Instant} {es : Estimators} {request : In} {d : Decision}

/-- A race without hedges sends its request once. -/
theorem sent_of_lone {ls : List (Listener In Out)} {j : Journey In Out} {input : In}
    (hrecovery : ∀ output a crash, svc.callbacks.recovery output a ≠ .error crash)
    (hmax : d.maxHedges = 0) (hcourse : Course svc d now ls j)
    (hcalls : j.calls = [⟨d.attempt 0, 0, input⟩])
    (h : Lone d (svc.callbacks.serve input 0) now ls j) :
    Sent svc now j ⟨d.attempt 0, 0, input⟩ := by
  refine ⟨hcalls, fun ending hending => ?_, ?_⟩
  · cases h with
    | held r stage awaits ended => rw [ended] at hending; cases hending
    | dropped stage ended => rw [ended] at hending; cases hending
    | returned stage ended =>
      rw [ended] at hending
      exact .inl (List.mem_singleton.mp hending)
    | bounded stage gaveUp => exact .inr gaveUp
  · rintro ⟨session, hsession⟩ hover es
    obtain ⟨r, rfl, awaits, -⟩ := h.of_held hsession
    obtain ⟨r', hr⟩ := hcourse.inRace hsession
    cases hr.stage.symm.trans hsession
    exact (lone_poll hrecovery hmax es hr (awaits.goes svc.callbacks.serve _)).2.2.2 hover

theorem sent_of_direct {before : List (Entry In Out)} {input : In} {start : Option Instant}
    {j : Journey In Out} (hbefore : (before.filterMap Entry.race?).filterMap Event.call? = [])
    (h : Direct svc before input now start j) : Sent svc now j ⟨.only, 0, input⟩ := by
  refine ⟨h.calls_eq hbefore, fun ending hending => ?_, ?_⟩
  · obtain ⟨-, last, htrace, hfares⟩ := h
    cases hfares with
    | held f stage awaits ended => rw [ended] at hending; cases hending
    | dropped stage ended => rw [ended] at hending; cases hending
    | returned stage ended =>
      rw [ended] at hending
      exact .inl (List.mem_singleton.mp hending)
    | bounded deadline first now' hdeadline hstart stage ended =>
      have hmem : .gaveUp (elapsed first now') 0 ∈ j.trace.map Prod.snd := by
        rw [htrace]
        simp [lastWords]
      obtain ⟨e, he, hgaveUp⟩ := List.mem_map.mp hmem
      exact .inr ⟨e, he, by rw [hgaveUp]; rfl⟩
  · rintro ⟨session, hsession⟩ hover es
    obtain ⟨-, last, -, hfares⟩ := h
    obtain ⟨f, rfl, awaits, ended, -⟩ := hfares.of_held hsession
    obtain ⟨last', hentries, hled⟩ := Session.exists_directLed_poll svc es start
      (awaits.goes svc.callbacks.serve j.moment)
    rw [poll_of_held hsession]
    generalize (Session.poll svc j.moment es ⟨.direct f, start⟩).progress = progress at hled ⊢
    cases hled with
    | ends finished =>
      show j.endings ++ _ = _
      rw [ended]
      rfl
    | waits f' pending => exact absurd (pending.symm.trans hover) (by simp)
    | bounded deadline first cancelled pending =>
      exact absurd (pending.symm.trans hover) (by simp)

/-- The inner service is called once for a request that is decided to have no hedges. -/
theorem sent_enter (hcopy : ∀ request a crash, svc.callbacks.copy request a ≠ .error crash)
    (hrecovery : ∀ output a crash, svc.callbacks.recovery output a ≠ .error crash)
    (hdecision : (Service.decide (svc.resolve request).1.policy now es request :
      Decision × List (Entry In Out) × Estimators).1 = d)
    (hmax : d.maxHedges = 0) (opened : List Nat) (acts : List Act) :
    ∃ call, Sent svc now ((enter svc now opened es request).run svc acts) call := by
  rcases enter_cases svc now opened es request with
    ⟨d', ls, hraces⟩ | ⟨before, input, start, hpasses, hdirect⟩ | ⟨d', crash, hcrash, -⟩
  · obtain rfl : d' = d := hraces.decision.symm.trans hdecision
    obtain ⟨input, hcalls, hlone⟩ := lone_run hrecovery hmax hraces opened acts
    exact ⟨_, sent_of_lone hrecovery hmax (course_run (course_enter hraces opened) acts) hcalls
      hlone⟩
  · refine ⟨_, sent_of_direct ?_ (direct_run hdirect acts)⟩
    cases hpasses with
    | disabled hdisabled => rfl
    | refused d left henabled hdecision hcopy =>
      rw [List.filterMap_append, Session.filterMap_race_preface]
      rfl
  · exact absurd hcrash (hcopy _ _ _)

end Sent

end Journey

end RequestHedging
