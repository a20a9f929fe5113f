import RequestHedging.Proofs.Journey.Deadline

/-!
# The chronicle of a raced request

All that is observed of a request that is raced: what is observed before its race starts, then
the events of the race as they are written, and at most a few last words, which say how the
session ended (`Chronicle`).

`raced_induct` is the induction over what can happen to such a request.  Only two things
matter, a poll of the race and a poll of the task; the rest leaves what was observed as it is.
-/

namespace RequestHedging

open Race Trace

variable {In Out : Type}

namespace Journey

/-- Its caller has a request, and its race is under way. -/
structure InRace (svc : Service In Out) (d : Decision) (start : Instant)
    (ls : List (Listener In Out)) (j : Journey In Out) (r : Race In Out) : Prop where
  stage : j.stage = .held ⟨.racing ls r, some start⟩
  quiet : j.aftermath = []
  ended : j.endings = []
  kept : ¬ j.GaveUp
  running : Running svc.callbacks d start j.now j.events r
  poised : r.Poised j.now

section Polls

variable {svc : Service In Out} {d : Decision} {start : Instant} {ls : List (Listener In Out)}
  {j : Journey In Out} {r : Race In Out}

/-- A request that its caller still has is in its race. -/
theorem Course.inRace (h : Course svc d start ls j) {session : Session In Out}
    (hsession : j.stage = .held session) : ∃ r, InRace svc d start ls j r := by
  obtain ⟨r, rfl, hquiet, hended, hrunning, hresting⟩ := h.held hsession
  refine ⟨r, hsession, hquiet, hended, ?_, hrunning.later h.seen_le,
    (hresting.poised hrunning).later h.seen_le⟩
  intro hgaveUp
  cases hsession.symm.trans (h.gaveUp hgaveUp)

theorem events_observe_written {t : Telemetry} {events : List (Event In Out)}
    {last : List (Entry In Out)} (hlast : last.filterMap Entry.race? = []) :
    (j.observe (events.flatMap (written t ls) ++ last)).events = j.events ++ events := by
  apply events_observe
  rw [List.filterMap_append, filterMap_race_flatMap_written, hlast, List.append_nil]

theorem laterEvents_follow_written {t : Telemetry} {events : List (Event In Out)}
    {last : List (Entry In Out)} (hlast : last.filterMap Entry.race? = []) :
    (j.follow (events.flatMap (written t ls) ++ last)).laterEvents = j.laterEvents ++ events := by
  apply laterEvents_follow
  rw [List.filterMap_append, filterMap_race_flatMap_written, hlast, List.append_nil]

/-- A poll of a session in a race observes the events of the race as they are written, and at last
how the session ends. -/
theorem exists_written_poll (svc : Service In Out) (es : Estimators)
    (hstage : j.stage = .held ⟨.racing ls r, some start⟩) :
    ∃ last progress,
      j.poll svc es = (j.observe ((r.poll svc.callbacks j.moment).1.flatMap
        (written svc.telemetry ls) ++ last)).conclude progress ∧
      Session.Led svc j.now ls start (r.poll svc.callbacks j.moment).2 last progress := by
  obtain ⟨last, hentries, hled⟩ := Session.exists_led_poll svc j.moment ls start r es
  rw [ofEvents_eq] at hentries
  exact ⟨last, _, by rw [poll_of_held hstage es, hentries], hled⟩

/-- A poll of the task observes the events of the stragglers as they are written, and at last that
it crashed, if it did. -/
theorem exists_written_drive (svc : Service In Out) (es : Estimators) {task : Task In Out}
    (hstage : j.stage = .straggling task) :
    ∃ last stage,
      j.drive svc es =
        { j.follow ((task.stragglers.poll svc.callbacks j.moment).1.flatMap
            (written svc.telemetry task.listeners) ++ last) with stage := stage } ∧
      (last = [] ∨ stage = .over ∧ ∃ crash, last = [.taskCrashed crash]) ∧
      (∀ s, stage ≠ .held s) ∧ ∀ task', stage = .straggling task' →
        task'.listeners = task.listeners ∧
          (task.stragglers.poll svc.callbacks j.moment).2 = .pending task'.stragglers := by
  obtain ⟨last, hentries, hled⟩ :=
    Task.exists_led_poll svc j.moment task.listeners task.stragglers es
  rw [ofEvents_eq] at hentries
  rw [drive_of_straggling hstage, hentries]
  generalize (Task.poll svc j.moment es task).progress = progress at hled ⊢
  generalize task.stragglers.poll svc.callbacks j.moment = polled at hled ⊢
  obtain ⟨events, p⟩ := polled
  dsimp only at hled ⊢
  cases hled with
  | waits left =>
    refine ⟨[], _, rfl, .inl rfl, by simp [Stage.ofTask], ?_⟩
    rintro task' htask'
    cases htask'
    exact ⟨rfl, rfl⟩
  | ends => exact ⟨[], _, rfl, .inl rfl, by simp [Stage.ofTask], by simp [Stage.ofTask]⟩
  | breaks crash left =>
    exact ⟨_, _, rfl, .inr ⟨rfl, crash, rfl⟩, by simp [Stage.ofTask], by simp [Stage.ofTask]⟩

end Polls

/-- What holds after the first poll of a request that is raced, and is kept by polls of its race
and of its task, holds whatever happens. -/
theorem raced_induct {svc : Service In Out} {now : Instant} {es : Estimators} {request : In}
    {d : Decision} {ls : List (Listener In Out)} (h : svc.Races now es request d ls)
    (opened : List Nat) {P : Journey In Out → Prop}
    (start : ∀ es' r,
      InRace svc d now ls (started now opened ls r (Session.beginning svc d ls now es request)) r →
      (∃ input, r.flights = Flights.none.issue (d.attempt 0) now input) →
      P ((started now opened ls r (Session.beginning svc d ls now es request)).poll svc es'))
    (poll : ∀ {j r} es', InRace svc d now ls j r → P j → P (j.poll svc es'))
    (drive : ∀ {j task} es', Course svc d now ls j → j.stage = .straggling task → P j →
      P (j.drive svc es'))
    (elsewhere : ∀ {j} now' opened', P j → P { j with now := now', opened := opened' })
    (drop : ∀ {j}, P j → P { j with stage := .over }) (acts : List Act) :
    P ((enter svc now opened es request).run svc acts) := by
  have hrun : ∀ {j : Journey In Out}, Course svc d now ls j → P j → P (j.run svc acts) := by
    intro j hcourse hP
    induction acts generalizing j with
    | nil => exact hP
    | cons act acts ih =>
      refine ih (course_step hcourse act) ?_
      cases act with
      | advance by_ => exact elsewhere _ j.opened hP
      | complete calls => exact elsewhere j.now _ hP
      | poll es' =>
        by_cases hheld : ∃ session, j.stage = .held session
        · obtain ⟨session, hsession⟩ := hheld
          obtain ⟨r, hr⟩ := hcourse.inRace hsession
          exact poll es' hr hP
        · rw [step, poll_of_not_held es' fun session hsession => hheld ⟨session, hsession⟩]
          exact hP
      | drop =>
        rw [step]
        unfold Journey.drop
        split
        · exact drop hP
        · exact hP
      | drive es' =>
        by_cases hstraggling : ∃ task, j.stage = .straggling task
        · obtain ⟨task, htask⟩ := hstraggling
          exact drive es' hcourse htask hP
        · rw [step, drive_of_not_straggling es' fun task htask => hstraggling ⟨task, htask⟩]
          exact hP
  refine hrun (course_enter h opened) ?_
  obtain ⟨es', r, henter, hrunning, hpoised, hflights⟩ := exists_enter_eq_poll h opened
  rw [henter]
  exact start es' r ⟨rfl, rfl, rfl, not_gaveUp_started opened ls r,
    (events_started svc d now es request opened ls r).symm ▸ hrunning, hpoised⟩ hflights

/-! ## The chronicle -/

/-- What can be observed last of a session, by how it ended. -/
inductive LastWords (svc : Service In Out) (j : Journey In Out) : List (Entry In Out) → Prop where
  | nothing : LastWords svc j []
  | spawned : LastWords svc j [.spawned]
  | late (deadline : Deadline Out) (first now : Instant) (bounded : svc.deadline = some deadline)
      (stage : j.stage = .over) (quiet : j.aftermath = [])
      (ended : j.endings = [.returned
        (deadline.output (elapsed first now) (.ofNat (j.events.filterMap Event.issued?).length))]) :
    LastWords svc j (lastWords svc first now (.ofNat (j.events.filterMap Event.issued?).length))

/-- What is observed of a request that is raced: what comes before its race, then what is written
of its events, and last words. -/
structure Chronicle (svc : Service In Out) (d : Decision) (ls : List (Listener In Out))
    (now : Instant) (es : Estimators) (request : In) (j : Journey In Out) : Prop where
  opening : Session.opening d request <+: j.events
  session : ∃ last, j.trace.map Prod.snd = Session.preface svc now es request ++
      j.events.flatMap (written svc.telemetry ls) ++ last ∧ LastWords svc j last
  /-- Nothing is said last while the session goes on. -/
  racing : ∀ s, j.stage = .held s → j.trace.map Prod.snd =
    Session.preface svc now es request ++ j.events.flatMap (written svc.telemetry ls)
  task : ∃ last, j.aftermath.map Prod.snd =
      j.laterEvents.flatMap (written svc.telemetry ls) ++ last ∧
    (last = [] ∨ j.stage = .over ∧ ∃ crash, last = [.taskCrashed crash])

section Chronicle

variable {svc : Service In Out} {d : Decision} {ls : List (Listener In Out)} {now : Instant}
  {es : Estimators} {request : In} {j : Journey In Out} {r : Race In Out}

/-- What a poll of a session in a race adds to the chronicle. -/
theorem chronicle_poll (es' : Estimators) (h : InRace svc d now ls j r)
    (hopening : Session.opening d request <+: j.events)
    (hbefore : j.trace.map Prod.snd =
      Session.preface svc now es request ++ j.events.flatMap (written svc.telemetry ls)) :
    Chronicle svc d ls now es request (j.poll svc es') := by
  obtain ⟨last, progress, hpoll, hled⟩ := exists_written_poll svc es' h.stage
  have hstands := stands_poll (m := j.moment) h.poised h.running
  rw [hpoll]
  generalize r.poll svc.callbacks j.moment = raced at hled hstands ⊢
  obtain ⟨evs, p⟩ := raced
  dsimp only at hled hstands ⊢
  have hevents : (j.observe (evs.flatMap (written svc.telemetry ls) ++ last)).events =
      j.events ++ evs := events_observe_written hled.filterMap_race_last
  have htrace : (j.observe (evs.flatMap (written svc.telemetry ls) ++ last)).trace.map Prod.snd =
      Session.preface svc now es request ++
        (j.events ++ evs).flatMap (written svc.telemetry ls) ++ last := by
    rw [observe, List.map_append, map_snd_stamp, hbefore, List.flatMap_append]
    simp only [List.append_assoc]
  generalize hseen : j.observe (evs.flatMap (written svc.telemetry ls) ++ last) = seen at *
  have hended : seen.endings = [] := by rw [← hseen, observe, h.ended]
  have hquiet : seen.aftermath = [] := by rw [← hseen, observe, h.quiet]
  have hopening' : Session.opening d request <+: seen.events := by
    rw [hevents]
    exact hopening.trans (List.prefix_append _ _)
  have htask : seen.aftermath.map Prod.snd =
      seen.laterEvents.flatMap (written svc.telemetry ls) ++ [] := by
    rw [laterEvents, hquiet]
    rfl
  rw [← hevents] at htrace
  -- A session that is over has said its last words.
  have hdone : ∀ endings stage, (∀ s, stage ≠ .held s) →
      LastWords svc { seen with stage := stage, endings := endings } last →
      Chronicle svc d ls now es request { seen with stage := stage, endings := endings } := by
    intro endings stage hstage hlast
    exact ⟨hopening', ⟨last, htrace, hlast⟩, fun s hs => absurd hs (hstage s),
      ⟨[], htask, .inl rfl⟩⟩
  cases hled with
  | waits r' hopen =>
    refine ⟨hopening', ⟨[], htrace, .nothing⟩, fun _ _ => ?_, ⟨[], htask, .inl rfl⟩⟩
    rw [List.append_nil] at htrace
    exact htrace
  | bounded r' deadline hdeadline hpassed =>
    have hcount : r'.issued = .ofNat (seen.events.filterMap Event.issued?).length := by
      rw [hevents]
      exact hstands.1.books.count
    refine hdone _ .over (by simp) ?_
    rw [hcount, hended]
    exact .late deadline now j.now hdeadline rfl hquiet rfl
  | breaks fault r' => exact hdone _ .over (by simp) .nothing
  | ends output r' hcancelled => exact hdone _ .over (by simp) .nothing
  | hands output r' hspawner hleft => exact hdone _ (.straggling _) (by simp) .spawned

/-- What a poll of the task adds to the chronicle. -/
theorem chronicle_drive (es' : Estimators) {task : Task In Out}
    (hstage : j.stage = .straggling task) (hlisteners : task.listeners = ls)
    (h : Chronicle svc d ls now es request j) :
    Chronicle svc d ls now es request (j.drive svc es') := by
  obtain ⟨last, stage, hdrive, hlast, hnot, -⟩ := exists_written_drive svc es' hstage
  obtain ⟨earlier, haftermath, hearlier⟩ := h.task
  obtain rfl : earlier = [] := by
    refine hearlier.resolve_right ?_
    rintro ⟨hover, -⟩
    cases hstage.symm.trans hover
  obtain ⟨words, htrace, hwords⟩ := h.session
  rw [hdrive]
  subst hlisteners
  generalize (task.stragglers.poll svc.callbacks j.moment).1 = evs
  have hlater :
      (j.follow (evs.flatMap (written svc.telemetry task.listeners) ++ last)).laterEvents =
        j.laterEvents ++ evs := by
    apply laterEvents_follow_written
    rcases hlast with rfl | ⟨-, crash, rfl⟩ <;> rfl
  refine ⟨h.opening, ⟨words, htrace, ?_⟩, fun s hs => absurd hs (hnot s), ⟨last, ?_, hlast⟩⟩
  · cases hwords with
    | nothing => exact .nothing
    | spawned => exact .spawned
    | late deadline first now' bounded hover => cases hstage.symm.trans hover
  · show (j.follow _).aftermath.map Prod.snd = (j.follow _).laterEvents.flatMap _ ++ last
    rw [hlater, follow, List.map_append, map_snd_stamp, haftermath, List.flatMap_append]
    simp only [List.append_nil, List.append_assoc]

/-- Time that passes, and a drop, say nothing. -/
theorem Chronicle.elsewhere (h : Chronicle svc d ls now es request j) {j' : Journey In Out}
    (htrace : j'.trace = j.trace) (haftermath : j'.aftermath = j.aftermath)
    (hendings : j'.endings = j.endings) (hstage : j'.stage = j.stage ∨ j'.stage = .over) :
    Chronicle svc d ls now es request j' := by
  obtain ⟨hopening, ⟨words, hsession, hwords⟩, hracing, last, htask, hlast⟩ := h
  have hevents : j'.events = j.events := by rw [events, htrace, events]
  have hlater : j'.laterEvents = j.laterEvents := by rw [laterEvents, haftermath, laterEvents]
  refine ⟨hevents ▸ hopening, ⟨words, by rw [htrace, hevents]; exact hsession, ?_⟩, ?_,
    ⟨last, by rw [haftermath, hlater]; exact htask, ?_⟩⟩
  · cases hwords with
    | nothing => exact .nothing
    | spawned => exact .spawned
    | late deadline first now' bounded stage quiet ended =>
      rw [← hevents] at ended ⊢
      exact .late deadline first now' bounded (hstage.elim (·.trans stage) id)
        (haftermath.trans quiet) (hendings.trans ended)
  · intro s hs
    rw [htrace, hevents]
    rcases hstage with hsame | hover
    · exact hracing s (hsame.symm.trans hs)
    · cases hover.symm.trans hs
  · exact hlast.imp_right fun h => ⟨hstage.elim (·.trans h.1) id, h.2⟩

/-- The chronicle of a request that is raced, whatever happens. -/
theorem chronicle_run (h : svc.Races now es request d ls) (opened : List Nat) (acts : List Act) :
    Chronicle svc d ls now es request ((enter svc now opened es request).run svc acts) := by
  refine raced_induct h opened (fun es' r hr _ => ?_) (fun es' hr h => ?_)
    (fun es' hcourse hstage h => ?_) (fun _ _ h => h.elsewhere rfl rfl rfl (.inl rfl))
    (fun h => h.elsewhere rfl rfl rfl (.inr rfl)) acts
  · have hevents := events_started svc d now es request opened ls r
    refine chronicle_poll es' hr (hevents ▸ List.prefix_rfl) ?_
    rw [hevents, started, map_snd_stamp, Session.beginning]
  · exact chronicle_poll es' hr h.opening (h.racing _ hr.stage)
  · obtain ⟨-, -, hlisteners, -⟩ := hcourse.straggling hstage
    exact chronicle_drive es' hstage hlisteners h

end Chronicle

end Journey

end RequestHedging
