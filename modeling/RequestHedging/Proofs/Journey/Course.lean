import RequestHedging.Proofs.Journey
import RequestHedging.Proofs.Race.Stragglers
import RequestHedging.Proofs.Session

/-!
# The course of a journey

The invariant of a request that is raced: `Course` holds after its first poll and is kept
by whatever happens next (`course_run`).  It says what the race came to, who has the
request now, and that the books of the race hold of all that was observed, with what the
task observed entered behind.
-/

namespace RequestHedging

open Race Trace

variable {In Out : Type}

namespace Race

/-- An attempt whose input was asked for is on the schedule, and its hedge was due. -/
theorem Books.exists_attempt {cb : Callbacks In Out} {hand : List Attempt}
    {tr : List (Event In Out)} {r : Race In Out} (h : Books cb hand tr r) {a : Attempt}
    (ha : a ∈ tr.filterMap Event.asked?) :
    ∃ i ≤ r.lastHedge.toNat, a = r.decision.attempt i ∧ a.index.toNat = i := by
  rw [h.asked] at ha
  obtain ⟨i, hi, rfl⟩ := List.mem_map.mp ha
  have hle : i ≤ r.lastHedge.toNat := Nat.lt_succ_iff.mp (List.mem_range.mp hi)
  exact ⟨i, hle, rfl, UInt32.toNat_ofNat_of_lt' (Nat.lt_of_le_of_lt hle r.lastHedge.toNat_lt)⟩

section Stands

variable {cb : Callbacks In Out} {d : Decision} {start now : Instant} {tr : List (Event In Out)}
  {p : Progress In Out}

theorem Stands.timed (h : Stands cb d start now tr p) : Timed d start now p.race := by
  cases p with
  | pending r => exact h.1.timed
  | finished output r => exact h.2.2.2.1
  | crashed fault r => exact h.2.1

theorem Stands.exists_books (h : Stands cb d start now tr p) : ∃ hand, Books cb hand tr p.race := by
  cases p with
  | pending r => exact ⟨[], h.1.books⟩
  | finished output r => exact ⟨[], h.1⟩
  | crashed fault r => exact h.2.2.2

/-- Whatever input was asked for, its hedge was due. -/
theorem Timed.onTime {hand : List Attempt} {r : Race In Out} (h : Timed d start now r)
    (hbooks : Books cb hand tr r) {a : Attempt} {request : In} (ha : .copied a request ∈ tr) :
    start + d.dueNanos a.index.toNat ≤ now := by
  obtain ⟨i, hi, -, rfl⟩ :=
    hbooks.exists_attempt (List.mem_filterMap.mpr ⟨.copied a request, ha, rfl⟩)
  exact Nat.le_trans (Nat.add_le_add_left (d.dueNanos_mono hi) _) h.due

theorem Running.later {later : Instant} {r : Race In Out} (h : Running cb d start now tr r)
    (hle : now ≤ later) : Running cb d start later tr r :=
  { h with timed := { h.timed with due := Nat.le_trans h.timed.due hle } }

/-- A race that rests can be polled again. -/
theorem Resting.poised {r : Race In Out} (h : r.Resting now) (hr : Running cb d start now tr r) :
    r.Poised now :=
  ⟨hr.started_le, h.fits⟩

end Stands

end Race

namespace Journey

/-- Who has a request and how its session ended, by what its race came to. -/
inductive Phase (svc : Service In Out) (ls : List (Listener In Out)) (start : Instant)
    (j : Journey In Out) : Progress In Out → Prop where
  | held (r : Race In Out) (stage : j.stage = .held ⟨.racing ls r, some start⟩)
      (quiet : j.aftermath = []) (ended : j.endings = []) : Phase svc ls start j (.pending r)
  | dropped (r : Race In Out) (stage : j.stage = .over) (quiet : j.aftermath = [])
      (ended : j.endings = []) : Phase svc ls start j (.pending r)
  | bounded (r : Race In Out) (output : Out) (stage : j.stage = .over) (quiet : j.aftermath = [])
      (ended : j.endings = [.returned output]) (deadline : svc.deadline.isSome = true)
      (gaveUp : j.GaveUp) : Phase svc ls start j (.pending r)
  | broken (fault : Fault) (r : Race In Out) (stage : j.stage = .over) (quiet : j.aftermath = [])
      (ended : j.endings = [.crashed fault]) : Phase svc ls start j (.crashed fault r)
  | finished (output : Out) (r : Race In Out) (stage : j.stage = .over) (quiet : j.aftermath = [])
      (ended : j.endings = [.returned output])
      (cancelled : svc.spawner = none ∨ r.flights.isEmpty = true) :
      Phase svc ls start j (.finished output r)
  | straggling (output : Out) (r : Race In Out) (left : Stragglers In Out)
      (stage : j.stage = .straggling ⟨ls, left⟩) (ended : j.endings = [.returned output])
      (spawner : svc.spawner.isSome = true)
      (books :
        Books svc.callbacks [] (j.events ++ j.laterEvents) { r with flights := left.flights })
      (clean : Clean (j.events ++ j.laterEvents)) : Phase svc ls start j (.finished output r)
  | settled (output : Out) (r : Race In Out) (f : Flights In Out) (stage : j.stage = .over)
      (ended : j.endings = [.returned output]) (spawner : svc.spawner.isSome = true)
      (empty : f.isEmpty = true)
      (books : Books svc.callbacks [] (j.events ++ j.laterEvents) { r with flights := f })
      (clean : Clean (j.events ++ j.laterEvents)) : Phase svc ls start j (.finished output r)
  | torn (output : Out) (r : Race In Out) (f : Flights In Out) (hand : List Attempt)
      (stage : j.stage = .over) (ended : j.endings = [.returned output])
      (spawner : svc.spawner.isSome = true) (torn : j.Torn)
      (books : Books svc.callbacks hand (j.events ++ j.laterEvents) { r with flights := f }) :
      Phase svc ls start j (.finished output r)

/-- What was observed is in order: news are events with what follows from them, and no hedge was
asked for too early. -/
structure Record (d : Decision) (start : Instant) (ls : List (Listener In Out))
    (j : Journey In Out) : Prop where
  news : news (j.trace.map Prod.snd) = j.events.flatMap (told ls)
  laterNews : Trace.news (j.aftermath.map Prod.snd) = j.laterEvents.flatMap (told ls)
  onTime : ∀ t a request, (t, .race (.copied a request)) ∈ j.trace →
    start + d.dueNanos a.index.toNat ≤ t

/-- What is known of a request that is raced by a decision, from a start, in front of
listeners. -/
structure Course (svc : Service In Out) (d : Decision) (start : Instant)
    (ls : List (Listener In Out)) (j : Journey In Out) : Prop where
  seen_le : j.seen ≤ j.now
  record : Record d start ls j
  gaveUp : j.GaveUp → j.stage = .over
  stands : ∃ p, Stands svc.callbacks d start j.seen j.events p ∧ Phase svc ls start j p

/-! ## What was observed -/

section Observed

variable {j : Journey In Out} {entries last : List (Entry In Out)} {evs : List (Event In Out)}
  {t : Telemetry} {ls : List (Listener In Out)} {es : Estimators}

theorem filterMap_race_stamp (entries : List (Entry In Out)) (now : Instant) :
    (entries.map fun e => (now, e)).filterMap (fun e => e.2.race?) =
      entries.filterMap Entry.race? := by
  rw [List.filterMap_map]
  rfl

theorem map_snd_stamp (entries : List (Entry In Out)) (now : Instant) :
    (entries.map fun e => (now, e)).map Prod.snd = entries := by
  rw [List.map_map]
  exact List.map_id _

theorem events_observe (h : entries.filterMap Entry.race? = evs) :
    (j.observe entries).events = j.events ++ evs := by
  rw [events, observe, List.filterMap_append, filterMap_race_stamp, h]
  rfl

theorem laterEvents_follow (h : entries.filterMap Entry.race? = evs) :
    (j.follow entries).laterEvents = j.laterEvents ++ evs := by
  rw [laterEvents, follow, List.filterMap_append, filterMap_race_stamp, h]
  rfl

/-- A poll of the session adds to the record. -/
theorem Record.observe {cb : Callbacks In Out} {d : Decision} {start : Instant}
    {p : Progress In Out} (h : Record d start ls j)
    (hnews : Trace.news entries = evs.flatMap (told ls))
    (hevents : (j.observe entries).events = j.events ++ evs)
    (hstands : Stands cb d start j.now (j.events ++ evs) p) :
    Record d start ls (j.observe entries) := by
  refine ⟨?_, h.laterNews, ?_⟩
  · rw [hevents, List.flatMap_append, ← h.news, ← hnews, ← news_append, Journey.observe,
      List.map_append, map_snd_stamp]
  · intro t a request hmem
    rcases List.mem_append.mp hmem with hmem | hmem
    · exact h.onTime t a request hmem
    · obtain ⟨e, he, hte⟩ := List.mem_map.mp hmem
      obtain ⟨rfl, rfl⟩ := Prod.mk.inj hte
      obtain ⟨hand, hbooks⟩ := hstands.exists_books
      have hcopied : .copied a request ∈ j.events ++ evs := by
        rw [← hevents]
        exact List.mem_filterMap.mpr
          ⟨(j.now, .race (.copied a request)), List.mem_append_right _ hmem, rfl⟩
      exact hstands.timed.onTime hbooks hcopied

/-- A poll of the task adds to the record. -/
theorem Record.follow {d : Decision} {start : Instant} (h : Record d start ls j)
    (hnews : Trace.news entries = evs.flatMap (told ls))
    (hevents : (j.follow entries).laterEvents = j.laterEvents ++ evs) :
    Record d start ls (j.follow entries) := by
  refine ⟨h.news, ?_, h.onTime⟩
  rw [hevents, List.flatMap_append, ← h.laterNews, ← hnews, ← news_append, Journey.follow,
    List.map_append, map_snd_stamp]

/-- All the news, of the session and of the task. -/
theorem Record.news_all {d : Decision} {start : Instant} (h : Record d start ls j) :
    Trace.news ((j.trace ++ j.aftermath).map Prod.snd) =
      (j.events ++ j.laterEvents).flatMap (told ls) := by
  rw [List.map_append, news_append, h.news, h.laterNews, List.flatMap_append]

theorem gaveUp_observe (j : Journey In Out) {e : Entry In Out} (he : e ∈ entries)
    (hgaveUp : e.isGaveUp = true) : (j.observe entries).GaveUp :=
  ⟨(j.now, e), List.mem_append_right _ (List.mem_map_of_mem he), hgaveUp⟩

theorem not_gaveUp_observe (h : ¬ j.GaveUp) (hentries : ∀ e ∈ entries, e.isGaveUp = false) :
    ¬ (j.observe entries).GaveUp := by
  rintro ⟨e, he, hgaveUp⟩
  rcases List.mem_append.mp he with he | he
  · exact h ⟨e, he, hgaveUp⟩
  · obtain ⟨e', he', rfl⟩ := List.mem_map.mp he
    exact Bool.false_ne_true ((hentries e' he').symm.trans hgaveUp)

end Observed

/-! ## Steps -/

@[simp] theorem Stage.ofTask_ne_held (p : Task.Progress In Out) (s : Session In Out) :
    ofTask p ≠ .held s := by
  cases p <;> simp [ofTask]

@[simp] theorem trace_conclude (j : Journey In Out) (p : Session.Progress In Out) :
    (j.conclude p).trace = j.trace := by
  cases p <;> rfl

@[simp] theorem moment_conclude (j : Journey In Out) (p : Session.Progress In Out) :
    (j.conclude p).moment = j.moment := by
  cases p <;> rfl

@[simp] theorem aftermath_conclude (j : Journey In Out) (p : Session.Progress In Out) :
    (j.conclude p).aftermath = j.aftermath := by
  cases p <;> rfl

/-- A poll by the caller shows what the session shows. -/
theorem poll_of_held {svc : Service In Out} {j : Journey In Out} {session : Session In Out}
    (h : j.stage = .held session) (es : Estimators) :
    j.poll svc es = (j.observe (session.poll svc j.moment es).entries).conclude
      (session.poll svc j.moment es).progress := by
  rw [poll, h]

/-- A poll by the spawner shows what the task shows. -/
theorem drive_of_straggling {svc : Service In Out} {j : Journey In Out} {task : Task In Out}
    (h : j.stage = .straggling task) (es : Estimators) :
    j.drive svc es = { j.follow (task.poll svc j.moment es).entries with
      stage := .ofTask (task.poll svc j.moment es).progress } := by
  rw [drive, h]

section Steps

variable {svc : Service In Out} {d : Decision} {start : Instant} {ls : List (Listener In Out)}
  {j : Journey In Out}

/-- A poll of a session in a race observes what happens in the race, and at last how the session
ends. -/
theorem exists_led_poll (svc : Service In Out) (es : Estimators) {r : Race In Out}
    (hstage : j.stage = .held ⟨.racing ls r, some start⟩) :
    ∃ entries last progress, j.poll svc es = (j.observe entries).conclude progress ∧
      Session.Led svc j.now ls start (r.poll svc.callbacks j.moment).2 last progress ∧
      Trace.news entries = (r.poll svc.callbacks j.moment).1.flatMap (told ls) ∧
      last <:+ entries ∧ ∀ e ∈ entries, e ∉ last → e.isGaveUp = false := by
  obtain ⟨last, hentries, hled⟩ := Session.exists_led_poll svc j.moment ls start r es
  refine ⟨_, last, _, poll_of_held hstage es, hled, ?_, ?_, ?_⟩
  · rw [hentries, news_append, news_ofEvents, hled.news_last, List.append_nil]
  · rw [hentries]
    exact List.suffix_append _ _
  · intro e he hnot
    rw [hentries] at he
    exact (List.mem_append.mp he).elim isGaveUp_ofEvents fun hlast => absurd hlast hnot

/-- What a poll of a session in a race leads to. -/
theorem course_held {r : Race In Out} (es : Estimators)
    (hstage : j.stage = .held ⟨.racing ls r, some start⟩) (hquiet : j.aftermath = [])
    (hended : j.endings = []) (hgaveUp : ¬ j.GaveUp) (hrecord : Record d start ls j)
    (hrunning : Running svc.callbacks d start j.now j.events r) (hpoised : r.Poised j.now) :
    Course svc d start ls (j.poll svc es) := by
  obtain ⟨entries, last, progress, hpoll, hled, hnews, hlast, hfirst⟩ :=
    exists_led_poll svc es hstage
  have hstands := stands_poll (m := j.moment) hpoised hrunning
  rw [hpoll]
  generalize r.poll svc.callbacks j.moment = raced at hled hnews hstands
  obtain ⟨evs, p⟩ := raced
  dsimp only at hled hnews hstands
  have hevents : (j.observe entries).events = j.events ++ evs :=
    events_observe (filterMap_race_of_news hnews)
  have hrecord' := hrecord.observe hnews hevents hstands
  have hstands' : Stands svc.callbacks d start j.now (j.observe entries).events p :=
    hevents ▸ hstands
  have hend : ∀ ending, j.endings ++ [ending] = [ending] := by simp [hended]
  cases hled with
  | waits r' hopen =>
    have hnot : ¬ (j.observe entries).GaveUp :=
      not_gaveUp_observe hgaveUp fun e he => hfirst e he List.not_mem_nil
    exact ⟨Nat.le_refl _, { hrecord' with }, fun h => absurd h hnot, _, hstands',
      .held r' rfl hquiet hended⟩
  | bounded r' deadline hdeadline hpassed =>
    refine ⟨Nat.le_refl _, { hrecord' with }, fun _ => rfl, _, hstands',
      .bounded r' _ rfl hquiet (hend _) (by rw [hdeadline]; rfl) ?_⟩
    have hmem : .gaveUp (elapsed start j.now) r'.issued ∈ entries :=
      hlast.mem (List.mem_append_right _ (List.mem_singleton_self _))
    exact gaveUp_observe j hmem rfl
  | breaks fault r' =>
    exact ⟨Nat.le_refl _, { hrecord' with }, fun _ => rfl, _, hstands',
      .broken fault r' rfl hquiet (hend _)⟩
  | ends output r' hcancelled =>
    exact ⟨Nat.le_refl _, { hrecord' with }, fun _ => rfl, _, hstands',
      .finished output r' rfl hquiet (hend _) hcancelled⟩
  | hands output r' hspawner hleft =>
    have hnot : ¬ (j.observe entries).GaveUp := by
      refine not_gaveUp_observe hgaveUp ?_
      intro e he
      by_cases hspawned : e = .spawned
      · rw [hspawned]
        rfl
      · exact hfirst e he (by simpa using hspawned)
    have hall : j.events ++ evs ++ j.laterEvents = j.events ++ evs := by
      rw [laterEvents, hquiet]
      exact List.append_nil _
    obtain ⟨hbooks, hclean, -⟩ := hstands
    refine ⟨Nat.le_refl _, { hrecord' with }, fun h => absurd h hnot, _, hstands',
      .straggling output r' _ rfl (hend _) hspawner ?_ ?_⟩
    · show Books svc.callbacks [] ((j.observe entries).events ++ j.laterEvents) r'
      rw [hevents, hall]
      exact hbooks
    · show Clean ((j.observe entries).events ++ j.laterEvents)
      rw [hevents, hall]
      exact hclean

/-- What a poll of the task leads to. -/
theorem course_straggling {output : Out} {r : Race In Out} {left : Stragglers In Out}
    (es : Estimators) (h : Course svc d start ls j)
    (hstands : Stands svc.callbacks d start j.seen j.events (.finished output r))
    (hstage : j.stage = .straggling ⟨ls, left⟩) (hended : j.endings = [.returned output])
    (hspawner : svc.spawner.isSome = true)
    (hbooks : Books svc.callbacks [] (j.events ++ j.laterEvents) { r with flights := left.flights })
    (hclean : Clean (j.events ++ j.laterEvents)) :
    Course svc d start ls (j.drive svc es) := by
  have hleft := Stragglers.stands_poll (m := j.moment) (s := left) hbooks hclean
  have hgaveUp : ¬ j.GaveUp := by
    intro hgaveUp
    cases hstage.symm.trans (h.gaveUp hgaveUp)
  obtain ⟨last, hentries, hled⟩ := Task.exists_led_poll svc j.moment ls left es
  unfold drive
  rw [hstage]
  dsimp only
  generalize Task.poll svc j.moment es _ = polled at hentries hled ⊢
  obtain ⟨entries, es', progress⟩ := polled
  generalize left.poll svc.callbacks j.moment = polled at hentries hled hleft
  obtain ⟨evs, p⟩ := polled
  dsimp only at hentries hled hleft ⊢
  have hnews : Trace.news entries = evs.flatMap (told ls) := by
    rw [hentries, news_append, news_ofEvents, hled.news_last, List.append_nil]
  have hevents : (j.follow entries).laterEvents = j.laterEvents ++ evs :=
    laterEvents_follow (filterMap_race_of_news hnews)
  have hrecord := h.record.follow hnews hevents
  have hall : j.events ++ (j.follow entries).laterEvents = j.events ++ j.laterEvents ++ evs := by
    rw [hevents, List.append_assoc]
  rw [← hall] at hleft
  cases hled with
  | waits left' =>
    exact ⟨h.seen_le, { hrecord with }, fun h => absurd h hgaveUp, _, hstands,
      .straggling output r left' rfl hended hspawner hleft.1 hleft.2.1⟩
  | ends =>
    obtain ⟨f, hempty, hbooks', hclean'⟩ := hleft
    exact ⟨h.seen_le, { hrecord with }, fun _ => rfl, _, hstands,
      .settled output r f rfl hended hspawner hempty hbooks' hclean'⟩
  | breaks crash left' =>
    obtain ⟨hand, hbooks'⟩ := hleft
    refine ⟨h.seen_le, { hrecord with }, fun _ => rfl, _, hstands,
      .torn output r left'.flights hand rfl hended hspawner ?_ hbooks'⟩
    have hlast : .taskCrashed crash ∈ entries := by
      rw [hentries]
      exact List.mem_append_right _ (List.mem_singleton_self _)
    exact ⟨(j.now, _), List.mem_append_right _ (List.mem_map_of_mem hlast), rfl⟩

/-- Time that passes and calls that are opened change nothing else. -/
theorem Course.elsewhere (h : Course svc d start ls j) {now : Instant} (opened : List Nat)
    (hnow : j.now ≤ now) : Course svc d start ls { j with now := now, opened := opened } := by
  obtain ⟨p, hstands, hphase⟩ := h.stands
  refine ⟨Nat.le_trans h.seen_le hnow, { h.record with }, h.gaveUp, p, hstands, ?_⟩
  cases hphase with
  | held r stage quiet ended => exact .held r stage quiet ended
  | dropped r stage quiet ended => exact .dropped r stage quiet ended
  | bounded r output stage quiet ended deadline gaveUp =>
    exact .bounded r output stage quiet ended deadline gaveUp
  | broken fault r stage quiet ended => exact .broken fault r stage quiet ended
  | finished output r stage quiet ended cancelled =>
    exact .finished output r stage quiet ended cancelled
  | straggling output r left stage ended spawner books clean =>
    exact .straggling output r left stage ended spawner books clean
  | settled output r f stage ended spawner empty books clean =>
    exact .settled output r f stage ended spawner empty books clean
  | torn output r f hand stage ended spawner torn books =>
    exact .torn output r f hand stage ended spawner torn books

/-- A caller that has no session cannot poll it. -/
theorem poll_of_not_held (es : Estimators) (h : ∀ session, j.stage ≠ .held session) :
    j.poll svc es = j := by
  unfold poll
  split
  · rename_i session hsession
    exact absurd hsession (h session)
  · rfl

theorem drop_of_not_held (h : ∀ session, j.stage ≠ .held session) : j.drop = j := by
  unfold drop
  split
  · rename_i session hsession
    exact absurd hsession (h session)
  · rfl

theorem drive_of_not_straggling (es : Estimators) (h : ∀ task, j.stage ≠ .straggling task) :
    j.drive svc es = j := by
  unfold drive
  split
  · rename_i task htask
    exact absurd htask (h task)
  · rfl

/-- What the task shows is not of the session. -/
theorem trace_drive (svc : Service In Out) (es : Estimators) (j : Journey In Out) :
    (j.drive svc es).trace = j.trace := by
  unfold drive
  split <;> rfl

/-- The time of a journey passes as it is told. -/
theorem now_step (svc : Service In Out) (j : Journey In Out) (act : Act) :
    (j.step svc act).now = match act with
      | .advance d => j.now + d.nanos
      | _ => j.now := by
  cases act with
  | advance d => rfl
  | complete calls => rfl
  | poll es =>
    simp only [step, poll]
    split
    · exact congrArg Moment.now (moment_conclude _ _)
    · rfl
  | drop =>
    simp only [step, drop]
    split <;> rfl
  | drive es =>
    simp only [step, drive]
    split <;> rfl

theorem run_append (svc : Service In Out) (j : Journey In Out) (acts acts' : List Act) :
    j.run svc (acts ++ acts') = (j.run svc acts).run svc acts' :=
  List.foldl_append

/-- Once nobody has the request, nothing happens to it but that time passes. -/
theorem run_of_over (svc : Service In Out) (h : j.stage = .over) (acts : List Act) :
    (j.run svc acts).stage = .over ∧ (j.run svc acts).trace = j.trace ∧
      (j.run svc acts).aftermath = j.aftermath ∧ (j.run svc acts).endings = j.endings := by
  induction acts generalizing j with
  | nil => exact ⟨h, rfl, rfl, rfl⟩
  | cons act acts ih =>
    have hrun : j.run svc (act :: acts) = (j.step svc act).run svc acts := rfl
    rw [hrun]
    cases act with
    | advance d => exact ih (j := { j with now := j.now + d.nanos }) h
    | complete calls => exact ih (j := { j with opened := j.opened ++ calls }) h
    | poll es =>
      have hpoll : j.step svc (.poll es) = j := poll_of_not_held es (by simp [h])
      rw [hpoll]
      exact ih h
    | drop =>
      have hdrop : j.step svc .drop = j := drop_of_not_held (by simp [h])
      rw [hdrop]
      exact ih h
    | drive es =>
      have hdrive : j.step svc (.drive es) = j := drive_of_not_straggling es (by simp [h])
      rw [hdrive]
      exact ih h

/-- Only a drop takes a request from its caller before it ended. -/
theorem held_or_ended_step (svc : Service In Out)
    (h : (∃ session, j.stage = .held session) ∨ j.endings ≠ []) {act : Act} (hact : act ≠ .drop) :
    (∃ session, (j.step svc act).stage = .held session) ∨ (j.step svc act).endings ≠ [] := by
  cases act with
  | advance by_ => exact h
  | complete calls => exact h
  | drop => exact absurd rfl hact
  | poll es =>
    by_cases hheld : ∃ session, j.stage = .held session
    · obtain ⟨session, hsession⟩ := hheld
      rw [step, poll_of_held hsession]
      cases (session.poll svc j.moment es).progress with
      | pending session => exact .inl ⟨session, rfl⟩
      | ended ending cancelled => exact .inr (List.concat_ne_nil _ _)
      | handedOver output ls left => exact .inr (List.concat_ne_nil _ _)
    · rw [step, poll_of_not_held es fun session hsession => hheld ⟨session, hsession⟩]
      exact h
  | drive es =>
    by_cases hstraggling : ∃ task, j.stage = .straggling task
    · obtain ⟨task, htask⟩ := hstraggling
      rw [step, drive_of_straggling htask]
      rcases h with ⟨session, hsession⟩ | hended
      · cases htask.symm.trans hsession
      · exact .inr hended
    · rw [step, drive_of_not_straggling es fun task htask => hstraggling ⟨task, htask⟩]
      exact h

/-- A request that is not dropped is held until it ends. -/
theorem held_or_ended_run (svc : Service In Out)
    (h : (∃ session, j.stage = .held session) ∨ j.endings ≠ []) {acts : List Act}
    (hacts : .drop ∉ acts) :
    (∃ session, (j.run svc acts).stage = .held session) ∨ (j.run svc acts).endings ≠ [] := by
  induction acts generalizing j with
  | nil => exact h
  | cons act acts ih =>
    have hact : act ≠ .drop := fun hact => hacts (hact ▸ List.mem_cons_self)
    exact ih (held_or_ended_step svc h hact) fun hmem => hacts (List.mem_cons_of_mem _ hmem)

/-- While its caller has it, a request is in a race that rests. -/
theorem Course.held (h : Course svc d start ls j) {session : Session In Out}
    (hsession : j.stage = .held session) :
    ∃ r, session = ⟨.racing ls r, some start⟩ ∧ j.aftermath = [] ∧ j.endings = [] ∧
      Running svc.callbacks d start j.seen j.events r ∧ r.Resting j.seen := by
  obtain ⟨p, hstands, hphase⟩ := h.stands
  cases hphase with
  | held r stage quiet ended =>
    cases hsession.symm.trans stage
    exact ⟨r, rfl, quiet, ended, hstands⟩
  | straggling output r left stage => cases hsession.symm.trans stage
  | _ => cases hsession.symm.trans ‹j.stage = .over›

/-- While the task has it, a request was won, and the books go on. -/
theorem Course.straggling (h : Course svc d start ls j) {task : Task In Out}
    (htask : j.stage = .straggling task) :
    ∃ output r, task.listeners = ls ∧ j.endings = [.returned output] ∧
      svc.spawner.isSome = true ∧
      Stands svc.callbacks d start j.seen j.events (.finished output r) ∧
      Books svc.callbacks [] (j.events ++ j.laterEvents)
        { r with flights := task.stragglers.flights } ∧
      Clean (j.events ++ j.laterEvents) := by
  obtain ⟨p, hstands, hphase⟩ := h.stands
  cases hphase with
  | held r stage => cases htask.symm.trans stage
  | straggling output r left stage ended spawner books clean =>
    cases htask.symm.trans stage
    exact ⟨output, r, rfl, ended, spawner, hstands, books, clean⟩
  | _ => cases htask.symm.trans ‹j.stage = .over›

/-- A poll by the caller keeps a race on its course. -/
theorem course_poll (h : Course svc d start ls j) (es : Estimators) :
    Course svc d start ls (j.poll svc es) := by
  by_cases hheld : ∃ session, j.stage = .held session
  · obtain ⟨session, hsession⟩ := hheld
    obtain ⟨r, rfl, hquiet, hended, hrunning, hresting⟩ := h.held hsession
    have hgaveUp : ¬ j.GaveUp := by
      intro hgaveUp
      cases hsession.symm.trans (h.gaveUp hgaveUp)
    exact course_held es hsession hquiet hended hgaveUp h.record (hrunning.later h.seen_le)
      ((hresting.poised hrunning).later h.seen_le)
  · rw [poll_of_not_held es fun session hsession => hheld ⟨session, hsession⟩]
    exact h

theorem course_drop (h : Course svc d start ls j) : Course svc d start ls j.drop := by
  by_cases hheld : ∃ session, j.stage = .held session
  · obtain ⟨session, hsession⟩ := hheld
    obtain ⟨r, rfl, hquiet, hended, hstands⟩ := h.held hsession
    have hdrop : j.drop = { j with stage := .over } := by rw [drop, hsession]
    rw [hdrop]
    exact ⟨h.seen_le, { h.record with }, fun _ => rfl, .pending r, hstands,
      .dropped r rfl hquiet hended⟩
  · rw [drop_of_not_held fun session hsession => hheld ⟨session, hsession⟩]
    exact h

theorem course_drive (h : Course svc d start ls j) (es : Estimators) :
    Course svc d start ls (j.drive svc es) := by
  by_cases hstraggling : ∃ task, j.stage = .straggling task
  · obtain ⟨⟨_, left⟩, htask⟩ := hstraggling
    obtain ⟨output, r, rfl, hended, hspawner, hstands, hbooks, hclean⟩ := h.straggling htask
    exact course_straggling es h hstands htask hended hspawner hbooks hclean
  · rw [drive_of_not_straggling es fun task htask => hstraggling ⟨task, htask⟩]
    exact h

/-- Whatever happens next keeps the invariant. -/
theorem course_step (h : Course svc d start ls j) (act : Act) :
    Course svc d start ls (j.step svc act) := by
  cases act with
  | advance by_ => exact h.elsewhere j.opened (Nat.le_add_right _ _)
  | complete calls => exact h.elsewhere _ (Nat.le_refl _)
  | poll es => exact course_poll h es
  | drop => exact course_drop h
  | drive es => exact course_drive h es

/-- Whatever happens keeps the invariant. -/
theorem course_run (h : Course svc d start ls j) (acts : List Act) :
    Course svc d start ls (j.run svc acts) := by
  induction acts generalizing j with
  | nil => exact h
  | cons act acts ih => exact ih (course_step h act)

/-- The books of the race and of its task together. -/
theorem Course.exists_books (h : Course svc d start ls j) :
    ∃ hand r, Books svc.callbacks hand (j.events ++ j.laterEvents) r ∧ r.decision = d := by
  obtain ⟨p, hstands, hphase⟩ := h.stands
  have hdecision := hstands.timed.decision
  have hquiet : j.aftermath = [] →
      ∃ hand r, Books svc.callbacks hand (j.events ++ j.laterEvents) r ∧ r.decision = d := by
    intro hquiet
    obtain ⟨hand, hbooks⟩ := hstands.exists_books
    refine ⟨hand, p.race, ?_, hdecision⟩
    rw [laterEvents, hquiet, List.filterMap_nil, List.append_nil]
    exact hbooks
  cases hphase with
  | straggling output r left stage ended spawner books => exact ⟨_, _, books, hdecision⟩
  | settled output r f stage ended spawner empty books => exact ⟨_, _, books, hdecision⟩
  | torn output r f hand stage ended spawner torn books => exact ⟨_, _, books, hdecision⟩
  | _ => exact hquiet ‹j.aftermath = []›

end Steps

/-! ## The first poll -/

def started (now : Instant) (opened : List Nat) (ls : List (Listener In Out)) (r : Race In Out)
    (before : List (Entry In Out)) : Journey In Out :=
  { now := now, opened := opened, seen := now, stage := .held ⟨.racing ls r, some now⟩,
    trace := before.map fun e => (now, e), aftermath := [], endings := [] }

section Enter

variable {svc : Service In Out} {now : Instant} {es : Estimators} {request : In} {d : Decision}
  {ls : List (Listener In Out)}

/-- The first poll of a request that is raced starts its race and polls it. -/
theorem exists_enter_eq_poll (h : svc.Races now es request d ls) (opened : List Nat) :
    ∃ es' r, enter svc now opened es request =
        (started now opened ls r (Session.beginning svc d ls now es request)).poll svc es' ∧
      Running svc.callbacks d now now (Session.opening d request) r ∧ r.Poised now ∧
      ∃ input, r.flights = Flights.none.issue (d.attempt 0) now input := by
  obtain ⟨es', r, hpoll, hrunning, hpoised, hflights⟩ :=
    Session.exists_poll_ofRequest (m := ⟨now, opened⟩) h
  refine ⟨es', r, ?_, hrunning, hpoised, hflights⟩
  simp only [enter, poll, fresh, observe, moment, started, hpoll, List.nil_append, List.map_append]
  cases (Session.poll svc ⟨now, opened⟩ es' ⟨.racing ls r, some now⟩).progress <;> rfl

/-- The first events of a race are those of its primary attempt. -/
theorem events_started (svc : Service In Out) (d : Decision) (now : Instant) (es : Estimators)
    (request : In) (opened : List Nat) (ls : List (Listener In Out)) (r : Race In Out) :
    (started now opened ls r (Session.beginning svc d ls now es request)).events =
      Session.opening d request := by
  rw [events, started, filterMap_race_stamp, ← filterMap_race_news, Session.news_beginning]
  rfl

theorem not_gaveUp_started (opened : List Nat) (ls : List (Listener In Out)) (r : Race In Out) :
    ¬ (started now opened ls r (Session.beginning svc d ls now es request)).GaveUp := by
  rintro ⟨e, he, hend⟩
  obtain ⟨e', he', rfl⟩ := List.mem_map.mp he
  exact Bool.false_ne_true ((Session.isGaveUp_beginning e' he').symm.trans hend)

/-- The invariant holds after the first poll of a request that is raced. -/
theorem course_enter (h : svc.Races now es request d ls) (opened : List Nat) :
    Course svc d now ls (enter svc now opened es request) := by
  obtain ⟨es', r, henter, hrunning, hpoised, -⟩ := exists_enter_eq_poll h opened
  have hevents := events_started svc d now es request opened ls r
  rw [henter]
  refine course_held es' rfl rfl rfl (not_gaveUp_started opened ls r) ⟨?_, rfl, ?_⟩ ?_ hpoised
  · rw [hevents, started, map_snd_stamp, Session.news_beginning]
    rfl
  · intro t a request' ha
    have hmem : .copied a request' ∈
        (started now opened ls r (Session.beginning svc d ls now es request)).events :=
      List.mem_filterMap.mpr ⟨_, ha, rfl⟩
    rw [hevents] at hmem
    obtain ⟨e, -, hstamp⟩ := List.mem_map.mp ha
    obtain ⟨rfl, -⟩ := Prod.mk.inj hstamp
    exact hrunning.timed.onTime hrunning.books hmem
  · rw [hevents]
    exact hrunning

end Enter

end Journey

/-! ## A service -/

/-- A service whose first call takes five seconds, and later ones one; slow attempts are left to
a spawner. -/
def slowFirst : Service Nat Nat where
  callbacks := {
    copy := fun n _ => .ok (n, some n)
    recovery := fun _ _ => .ok .never
    handleUnavailable := false
    onHedge := fun _ _ => .ok ()
    serve := fun n call => ⟨.lasting (.ofSeconds (if call = 0 then 5 else 1)), .ok (n + call)⟩ }
  resolver := fun _ => .ok ⟨.fixed .standard, [.callback "log" fun _ => .ok ()]⟩
  deadline := none
  spawner := some ⟨"tasks"⟩
  enabled := fun _ => true
  telemetry := ⟨Telemetry.standardPipeline, "hedging", false, false⟩

/-- Long enough for the hedge to be issued, to win, and for the primary attempt to be left and
to complete. -/
def slowFirstActs : List Journey.Act :=
  [.advance (.ofSeconds 2), .poll [], .advance (.ofSeconds 1), .poll [], .advance (.ofSeconds 2),
    .drive []]

theorem races_slowFirst :
    slowFirst.Races 0 [] 7 .standard [.callback "log" fun _ => .ok ()] :=
  ⟨rfl, rfl, rfl, 7, 7, rfl⟩

end RequestHedging
