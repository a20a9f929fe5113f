import RequestHedging.Proofs.Journey.Fallback
import RequestHedging.Proofs.Journey.Overdue
import RequestHedging.Proofs.Journey.Reporting
import RequestHedging.Proofs.Race.Elapsed

/-!
# Each attempt has its own time

What a report says an attempt took is the time from when that attempt was issued until the poll
that consumed it, of the race or of the task, whatever happened before or beside it
(`clocking_fresh`).  The primary attempt is issued in the first poll and a hedge in the poll that
asked for its input, and the inner service is called in the same poll; so the time a hedge was
waited for is never charged to it, and an attempt that is looked at when it finishes took exactly
as long as its execution.

`Clocked` is what is kept from poll to poll.
-/

namespace RequestHedging

open Race Trace

variable {In Out : Type}

namespace Journey

def laterTimeline (j : Journey In Out) : Timeline In Out :=
  j.aftermath.filterMap fun e => e.2.race?.map (Prod.mk e.1)

/-- What happened in the race and in its task, and when. -/
def history (j : Journey In Out) : Timeline In Out := j.timeline ++ j.laterTimeline

theorem map_snd_history (j : Journey In Out) :
    j.history.map Prod.snd = j.events ++ j.laterEvents := by
  have hlater : j.laterTimeline.map Prod.snd = j.laterEvents :=
    map_snd_timeline { j with trace := j.aftermath }
  rw [history, List.map_append, map_snd_timeline, hlater]

section History

variable {j : Journey In Out} {entries last : List (Entry In Out)} {evs : List (Event In Out)}
  {t : Telemetry} {ls : List (Listener In Out)}

theorem history_of_quiet (hquiet : j.aftermath = []) : j.history = j.timeline := by
  rw [history, laterTimeline, hquiet, List.filterMap_nil, List.append_nil]

theorem history_observe (hquiet : j.aftermath = []) (h : entries.filterMap Entry.race? = evs) :
    (j.observe entries).history = j.history ++ stamp j.now evs := by
  have hquiet' : (j.observe entries).aftermath = [] := hquiet
  rw [history_of_quiet hquiet', history_of_quiet hquiet, timeline_observe h]

theorem history_follow (h : entries.filterMap Entry.race? = evs) :
    (j.follow entries).history = j.history ++ stamp j.now evs := by
  have hlater : (j.follow entries).laterTimeline = j.laterTimeline ++ stamp j.now evs :=
    timeline_observe (j := { j with trace := j.aftermath }) h
  rw [history, hlater, ← List.append_assoc]
  rfl

theorem history_conclude (j : Journey In Out) (p : Session.Progress In Out) :
    (j.conclude p).history = j.history := by
  cases p <;> rfl

theorem filterMap_race_written_append (hlast : last.filterMap Entry.race? = []) :
    (evs.flatMap (written t ls) ++ last).filterMap Entry.race? = evs := by
  rw [List.filterMap_append, filterMap_race_flatMap_written, hlast, List.append_nil]

end History

/-! ## What is kept -/

/-- The times of a request that is raced from a start, as they are kept. -/
structure Clocked (svc : Service In Out) (d : Decision) (start : Instant) (j : Journey In Out) :
    Prop where
  first : (start, .issued (d.attempt 0)) ∈ j.history
  kept : Kept svc.callbacks j.history
  seen : ∀ x ∈ j.timeline, x.1 ≤ j.seen
  past : ∀ x ∈ j.history, x.1 ≤ j.now
  /-- What is left in flight has begun, and what can go on has ended. -/
  racing : ∀ ls r first, j.stage = .held ⟨.racing ls r, first⟩ →
    Airborne svc.callbacks j.history j.now r.flights
  straggling : ∀ task, j.stage = .straggling task →
    Airborne svc.callbacks j.history j.now task.stragglers.flights

section Steps

variable {svc : Service In Out} {d : Decision} {start : Instant} {ls : List (Listener In Out)}
  {j j' : Journey In Out} {r : Race In Out}

/-- Time that passes, and a drop, change nothing of what happened. -/
theorem Clocked.elsewhere (h : Clocked svc d start j) (htrace : j'.trace = j.trace)
    (haftermath : j'.aftermath = j.aftermath) (hseen : j'.seen = j.seen) (hnow : j.now ≤ j'.now)
    (hstage : j'.stage = j.stage ∨ j'.stage = .over) : Clocked svc d start j' := by
  have htimeline : j'.timeline = j.timeline := by rw [timeline, htrace, timeline]
  have hhistory : j'.history = j.history := by
    rw [history, history, htimeline, laterTimeline, haftermath, laterTimeline]
  constructor
  · exact hhistory ▸ h.first
  · exact hhistory ▸ h.kept
  · rw [htimeline, hseen]
    exact h.seen
  · rw [hhistory]
    exact fun x hx => Nat.le_trans (h.past x hx) hnow
  · intro ls r first hs
    rcases hstage with hsame | hover
    · exact hhistory ▸ (h.racing ls r first (hsame ▸ hs)).later hnow
    · cases hover.symm.trans hs
  · intro task hs
    rcases hstage with hsame | hover
    · exact hhistory ▸ (h.straggling task (hsame ▸ hs)).later hnow
    · cases hover.symm.trans hs

/-- Whoever has the request after a poll of its session, what the poll shows is kept. -/
theorem clocked_observe {before : Timeline In Out} {tr evs : List (Event In Out)}
    {entries : List (Entry In Out)} {stage : Stage In Out} {endings : List (Session.Ending Out)}
    (hquiet : j.aftermath = []) (hentries : entries.filterMap Entry.race? = evs)
    (hhistory : j.history = before ++ stamp j.now tr) (hpast : ∀ x ∈ before, x.1 ≤ j.now)
    (hkept : Kept svc.callbacks before) (hfirst : (start, .issued (d.attempt 0)) ∈ j.history)
    (hprompt : Prompt svc.callbacks before j.now [] (tr ++ evs))
    (hracing : ∀ ls r first, stage = .held ⟨.racing ls r, first⟩ →
      Airborne svc.callbacks (before ++ stamp j.now (tr ++ evs)) j.now r.flights)
    (hstraggling : ∀ task, stage = .straggling task →
      Airborne svc.callbacks (before ++ stamp j.now (tr ++ evs)) j.now task.stragglers.flights) :
    Clocked svc d start { j.observe entries with stage := stage, endings := endings } := by
  have hseen := history_observe hquiet hentries
  have hwhole : (j.observe entries).history = before ++ stamp j.now (tr ++ evs) := by
    rw [hseen, hhistory, List.append_assoc, stamp_append]
  have hquiet' : (j.observe entries).aftermath = [] := hquiet
  have hpast' : ∀ x ∈ (j.observe entries).history, x.1 ≤ j.now := by
    rw [hwhole]
    exact le_of_mem_append_stamp hpast
  have hfirst' : (start, .issued (d.attempt 0)) ∈ (j.observe entries).history := by
    rw [hseen]
    exact List.mem_append_left _ hfirst
  rw [← hwhole] at hracing hstraggling
  refine ⟨hfirst', ?_, ?_, hpast', hracing, hstraggling⟩
  · show Kept svc.callbacks (j.observe entries).history
    rw [hwhole]
    exact hkept.append hprompt
  · show ∀ x ∈ (j.observe entries).timeline, x.1 ≤ j.now
    rw [← history_of_quiet hquiet']
    exact hpast'

/-- What a poll of a session in a race shows, beside what it has shown so far, and what is kept. -/
theorem exists_prompt_held (before : Timeline In Out) (tr : List (Event In Out))
    (es : Estimators) (h : InRace svc d start ls j r)
    (hhistory : j.history = before ++ stamp j.now tr) (hpast : ∀ x ∈ before, x.1 ≤ j.now)
    (hkept : Kept svc.callbacks before) (hfirst : (start, .issued (d.attempt 0)) ∈ j.history)
    (hmetering : Metering svc.callbacks j.moment before tr (r.flights.wake j.moment)) :
    ∃ evs, (j.poll svc es).history = j.history ++ stamp j.now evs ∧
      Prompt svc.callbacks before j.now [] (tr ++ evs) ∧
      Clocked svc d start (j.poll svc es) := by
  obtain ⟨last, progress, hpoll, hled⟩ := exists_written_poll svc es h.stage
  have hmetered := metered_poll h.poised h.running hmetering
  rw [hpoll]
  generalize r.poll svc.callbacks j.moment = raced at hled hmetered ⊢
  obtain ⟨evs, p⟩ := raced
  dsimp only at hled hmetered ⊢
  obtain ⟨hprompt, hleft⟩ := hmetered
  have hentries : (evs.flatMap (written svc.telemetry ls) ++ last).filterMap Entry.race? = evs :=
    filterMap_race_written_append hled.filterMap_race_last
  refine ⟨evs, by rw [history_conclude, history_observe h.quiet hentries], hprompt, ?_⟩
  have hover : ∀ endings, Clocked svc d start { j.observe
      (evs.flatMap (written svc.telemetry ls) ++ last) with stage := .over, endings := endings } :=
    fun endings => clocked_observe h.quiet hentries hhistory hpast hkept hfirst hprompt (by simp)
      (by simp)
  cases hled with
  | waits r' hopen =>
    refine clocked_observe h.quiet hentries hhistory hpast hkept hfirst hprompt ?_ (by simp)
    intro ls' r'' first hs
    cases hs
    exact hleft
  | bounded r' deadline hdeadline hpassed => exact hover _
  | breaks fault r' => exact hover _
  | ends output r' hcancelled => exact hover _
  | hands output r' hspawner hany =>
    refine clocked_observe h.quiet hentries hhistory hpast hkept hfirst hprompt (by simp) ?_
    intro task hs
    cases hs
    exact hleft

/-- What a later poll of a session in a race shows, and what is kept. -/
theorem Clocked.exists_prompt_poll (h : Clocked svc d start j) (hrace : InRace svc d start ls j r)
    (es : Estimators) :
    ∃ evs, (j.poll svc es).history = j.history ++ stamp j.now evs ∧
      Prompt svc.callbacks j.history j.now [] evs ∧ Clocked svc d start (j.poll svc es) := by
  have hnothing : j.history ++ stamp j.now [] = j.history := List.append_nil _
  have hflights := (h.racing ls r (some start) hrace.stage).wake (m := j.moment) h.past
  refine exists_prompt_held _ [] es hrace hnothing.symm h.past h.kept h.first
    (Airborne.metering ?_ prompt_nil)
  show Airborne svc.callbacks (j.history ++ stamp j.now []) j.now _
  rw [hnothing]
  exact hflights

/-- What a poll of the task shows, and what is kept. -/
theorem Clocked.exists_prompt_drive (h : Clocked svc d start j) {task : Task In Out}
    (hstage : j.stage = .straggling task) (es : Estimators) :
    ∃ evs, (j.drive svc es).history = j.history ++ stamp j.now evs ∧
      (j.drive svc es).laterEvents = j.laterEvents ++ evs ∧
      Prompt svc.callbacks j.history j.now [] evs ∧ Clocked svc d start (j.drive svc es) := by
  obtain ⟨last, stage, hdrive, hlast, hnot, hleft⟩ := exists_written_drive svc es hstage
  obtain ⟨hprompt, hflights⟩ := Stragglers.prompt_poll (m := j.moment) (s := task.stragglers)
    (h.straggling task hstage) h.past
  rw [hdrive]
  generalize task.stragglers.poll svc.callbacks j.moment = polled at hprompt hflights hleft ⊢
  obtain ⟨evs, p⟩ := polled
  dsimp only at hprompt hflights hleft ⊢
  have hentries :
      (evs.flatMap (written svc.telemetry task.listeners) ++ last).filterMap Entry.race? = evs := by
    apply filterMap_race_written_append
    rcases hlast with rfl | ⟨-, crash, rfl⟩ <;> rfl
  have hseen := history_follow (j := j) hentries
  refine ⟨evs, hseen, laterEvents_follow hentries, hprompt, ?_⟩
  generalize evs.flatMap (written svc.telemetry task.listeners) ++ last = entries at *
  constructor
  · show _ ∈ (j.follow entries).history
    rw [hseen]
    exact List.mem_append_left _ h.first
  · show Kept svc.callbacks (j.follow entries).history
    rw [hseen]
    exact h.kept.append hprompt
  · exact h.seen
  · show ∀ x ∈ (j.follow entries).history, x.1 ≤ j.now
    rw [hseen]
    exact le_of_mem_append_stamp h.past
  · exact fun ls r first hs => absurd hs (hnot _)
  · intro task' hs
    show Airborne svc.callbacks (j.follow entries).history j.now _
    rw [hseen]
    exact hflights _ (hleft task' hs).2

/-- Whatever happens next keeps the times. -/
theorem clocked_step (hcourse : Course svc d start ls j) (h : Clocked svc d start j) (act : Act) :
    Clocked svc d start (j.step svc act) := by
  cases act with
  | advance by_ => exact h.elsewhere rfl rfl rfl (Nat.le_add_right _ _) (.inl rfl)
  | complete calls => exact h.elsewhere rfl rfl rfl (Nat.le_refl _) (.inl rfl)
  | poll es =>
    by_cases hheld : ∃ session, j.stage = .held session
    · obtain ⟨session, hsession⟩ := hheld
      obtain ⟨r, hrace⟩ := hcourse.inRace hsession
      obtain ⟨evs, -, -, hclocked⟩ := h.exists_prompt_poll hrace es
      exact hclocked
    · rw [step, poll_of_not_held es fun session hsession => hheld ⟨session, hsession⟩]
      exact h
  | drop =>
    rw [step]
    unfold drop
    split
    · exact h.elsewhere rfl rfl rfl (Nat.le_refl _) (.inr rfl)
    · exact h
  | drive es =>
    by_cases hstraggling : ∃ task, j.stage = .straggling task
    · obtain ⟨task, htask⟩ := hstraggling
      obtain ⟨evs, -, -, -, hclocked⟩ := h.exists_prompt_drive htask es
      exact hclocked
    · rw [step, drive_of_not_straggling es fun task htask => hstraggling ⟨task, htask⟩]
      exact h

/-- Whatever happens keeps the times. -/
theorem clocked_run (hcourse : Course svc d start ls j) (h : Clocked svc d start j)
    (acts : List Act) : Clocked svc d start (j.run svc acts) := by
  induction acts generalizing j with
  | nil => exact h
  | cons act acts ih => exact ih (course_step hcourse act) (clocked_step hcourse h act)

end Steps

/-- What the first poll of a request that is raced shows, and what is kept. -/
theorem exists_prompt_enter {svc : Service In Out} {now : Instant} {es : Estimators} {request : In}
    {d : Decision} {ls : List (Listener In Out)} (h : svc.Races now es request d ls)
    (opened : List Nat) :
    ∃ evs, (enter svc now opened es request).history = stamp now evs ∧
      Prompt svc.callbacks [] now [] evs ∧ Clocked svc d now (enter svc now opened es request) := by
  obtain ⟨es', r, henter, hrunning, hpoised, input, hflights⟩ := exists_enter_eq_poll h opened
  have hhistory :
      (started now opened ls r (Session.beginning svc d ls now es request)).history =
        stamp now (Session.opening d request) := by
    rw [history_of_quiet rfl, timeline, started, List.filterMap_map]
    show (Session.beginning svc d ls now es request).filterMap
      (fun e => e.race?.map (Prod.mk now)) = _
    rw [← List.map_filterMap, ← filterMap_race_news, Session.news_beginning]
    rfl
  have hrace : InRace svc d now ls
      (started now opened ls r (Session.beginning svc d ls now es request)) r :=
    ⟨rfl, rfl, rfl, not_gaveUp_started opened ls r,
      (events_started svc d now es request opened ls r).symm ▸ hrunning, hpoised⟩
  have hissued : (now, (.issued (d.attempt 0) : Event In Out)) ∈
      stamp now (Session.opening d request) :=
    mem_stamp.mpr ⟨rfl, List.mem_cons_of_mem _ (List.mem_singleton_self _)⟩
  have huncalled : (r.flights.wake ⟨now, opened⟩).uncalled = [d.attempt 0] := by
    have hperm := r.flights.uncalled_wake ⟨now, opened⟩
    rw [hflights] at hperm ⊢
    exact List.perm_singleton.mp hperm
  have hmetering : Metering svc.callbacks ⟨now, opened⟩ [] (Session.opening d request)
      (r.flights.wake ⟨now, opened⟩) := by
    refine ⟨.inr ?_, ?_⟩
    · rw [hflights]
      exact launched_start (m := ⟨now, opened⟩) _ input hissued
    · rw [huncalled]
      have hasked : Prompt svc.callbacks [] now [] ([] ++ [.copied (d.attempt 0) request]) :=
        prompt_nil.quiet (by simp)
      exact hasked.issue (List.mem_singleton_self _)
  obtain ⟨evs, hpoll, hprompt, hclocked⟩ := exists_prompt_held [] (Session.opening d request) es'
    hrace hhistory (by simp) kept_nil (hhistory ▸ hissued) hmetering
  rw [henter]
  refine ⟨_, ?_, hprompt, hclocked⟩
  rw [hpoll, hhistory, stamp_append]
  rfl

/-! ## How attempts are timed -/

/-- An attempt was reported at a time, and it had taken so long. -/
def TimedAt (j : Journey In Out) (t : Instant) (a : Attempt) (d : Duration) : Prop :=
  ∃ p, (t, .reported p) ∈ j.history ∧ p.attempt = a ∧ p.elapsed = d

/-- How the attempts of a request are timed, by the time of its first poll if there was one. -/
structure Clocking (svc : Service In Out) (first? : Option Instant) (j : Journey In Out) :
    Prop where
  /-- The primary attempt is issued in the first poll. -/
  primary : ∀ t a, a.isPrimary = true → (t, .issued a) ∈ j.history → first? = some t
  /-- A poll asks for the input of what it issues, and leaves nothing that it issued to be called;
  what it reports it consumed, and measured. -/
  polled : ∀ es, ∃ evs, (j.poll svc es).history = j.history ++ stamp j.now evs ∧
    Prompt svc.callbacks j.history j.now [] evs
  /-- So does a poll of the task, which issues and calls nothing. -/
  driven : ∀ es, ∃ evs, (j.drive svc es).history = j.history ++ stamp j.now evs ∧
    Prompt svc.callbacks j.history j.now [] evs ∧
      ∀ event ∈ evs, event.issued? = none ∧ event.called? = none
  /-- What is issued is asked for and called at the same reading of the clock; and a report is made
  when its attempt is consumed, and gives the time since that attempt was issued. -/
  kept : Kept svc.callbacks j.history
  /-- No attempt is issued or called at two readings. -/
  once : ∀ t t' a, (t, .issued a) ∈ j.history → ((t', .issued a) ∈ j.history → t' = t) ∧
    ∀ call, (t', .called call) ∈ j.history → call.attempt = a → t' = t
  /-- An attempt is not reported before it finishes; reported then, it took its own latency. -/
  latency : ∀ t p begun e d, (t, .reported p) ∈ j.history →
    Runs svc.callbacks j.history p.attempt begun e → e.wait = .lasting d →
      begun + d.nanos ≤ t ∧ (t = begun + d.nanos → p.elapsed = d)
  /-- An attempt that finished at the last poll of the session was reported then, unless that poll
  let another attempt win or broke down. -/
  looked : ∀ a begun e d, Runs svc.callbacks j.timeline a begun e → e.wait = .lasting d →
    begun + d.nanos = j.seen →
      j.TimedAt j.seen a d ∨ (∃ q ∈ j.reports, q.outcome = .success ∧ q.attempt ≠ a) ∨
        ∃ fault, .crashed fault ∈ j.endings
  /-- An attempt that finishes at a poll of the task is reported then, unless that breaks down. -/
  drained : ∀ es task, j.stage = .straggling task → ¬ (j.drive svc es).Torn →
    ∀ a begun e d, Runs svc.callbacks j.timeline a begun e → e.wait = .lasting d →
      begun + d.nanos = j.now → (j.drive svc es).TimedAt j.now a d
  /-- Listeners hear these reports, and no others. -/
  heard : ∀ h ∈ j.heard, ∃ t, (t, .reported h.2) ∈ j.history

section Races

variable {svc : Service In Out} {d : Decision} {start : Instant} {ls : List (Listener In Out)}
  {j : Journey In Out}

theorem exists_mem_history {p : Report In Out} (h : p ∈ j.reports) :
    ∃ t, (t, .reported p) ∈ j.history := by
  obtain ⟨event, hevent, hp⟩ := List.mem_filterMap.mp h
  rw [← map_snd_history] at hevent
  obtain ⟨⟨t, event'⟩, hmem, rfl⟩ := List.mem_map.mp hevent
  obtain rfl : event' = .reported p := by
    cases event' <;> cases hp
    rfl
  exact ⟨t, hmem⟩

/-- An attempt that was reported by the time it finished was reported then. -/
theorem Clocked.timedAt (h : Clocked svc d start j) (hcourse : Course svc d start ls j)
    {t : Instant} {p : Report In Out} (hp : (t, .reported p) ∈ j.history) {begun last : Instant}
    {e : Execution Out} (hruns : Runs svc.callbacks j.history p.attempt begun e)
    {latency : Duration} (hwait : e.wait = .lasting latency)
    (hfinish : begun + latency.nanos = last) (hle : t ≤ last) :
    j.TimedAt last p.attempt latency := by
  obtain ⟨hand, r, hbooks, -⟩ := hcourse.exists_books
  rw [← map_snd_history] at hbooks
  obtain ⟨hge, hexact⟩ := (h.kept.reported t p hp).2.exact hbooks hruns hwait
  obtain rfl : t = last := Nat.le_antisymm hle (hfinish ▸ hge)
  exact ⟨p, hp, rfl, hexact hfinish.symm⟩

/-- An attempt is issued once, and called at the same time. -/
theorem Clocked.once (h : Clocked svc d start j) (hcourse : Course svc d start ls j)
    {t t' : Instant} {a : Attempt} (ha : (t, .issued a) ∈ j.history) :
    ((t', .issued a) ∈ j.history → t' = t) ∧
      ∀ call, (t', .called call) ∈ j.history → call.attempt = a → t' = t := by
  obtain ⟨hand, r, hbooks, -⟩ := hcourse.exists_books
  rw [← map_snd_history] at hbooks
  have hissued := hbooks.nodup_issued.of_map
  have hcalled := (List.nodup_append.mp (hbooks.called.nodup_iff.mp hissued)).1
  constructor
  · intro ha'
    exact (Prod.mk.inj (eq_of_nodup_view hissued ha' ha rfl rfl)).1
  · rintro call hcall rfl
    obtain ⟨-, call', hcall', hattempt⟩ := h.kept.issued t _ ha
    exact (Prod.mk.inj (eq_of_nodup_view hcalled hcall hcall' rfl (congrArg some hattempt))).1

/-- The primary attempt is issued at the start. -/
theorem Clocked.eq_start (h : Clocked svc d start j) (hcourse : Course svc d start ls j)
    {t : Instant} {a : Attempt} (hprimary : a.isPrimary = true) (ha : (t, .issued a) ∈ j.history) :
    t = start := by
  obtain ⟨hand, r, hbooks, rfl⟩ := hcourse.exists_books
  rw [← map_snd_history] at hbooks
  have hmem : a ∈ (j.history.map Prod.snd).filterMap Event.issued? :=
    List.mem_filterMap.mpr ⟨.issued a, List.mem_map_of_mem ha, rfl⟩
  obtain ⟨i, -, rfl, hi⟩ := hbooks.exists_attempt (hbooks.issued_mem_asked hmem)
  obtain rfl : 0 = i := by
    have hzero : (r.decision.attempt i).index = 0 := by simpa [Attempt.isPrimary] using hprimary
    rw [← hi, hzero]
    rfl
  exact (h.once hcourse h.first).1 ha

/-- What finished at the last poll of a session was reported in it, unless another attempt won or
the race broke down. -/
theorem Clocked.looked (h : Clocked svc d start j) (hcourse : Course svc d start ls j)
    (hvigil : Vigil svc j) {a : Attempt} {begun : Instant} {e : Execution Out} {latency : Duration}
    (hruns : Runs svc.callbacks j.timeline a begun e) (hwait : e.wait = .lasting latency)
    (hfinish : begun + latency.nanos = j.seen) :
    j.TimedAt j.seen a latency ∨ (∃ q ∈ j.reports, q.outcome = .success ∧ q.attempt ≠ a) ∨
      ∃ fault, .crashed fault ∈ j.endings := by
  have hissued : a ∈ (j.timeline.map Prod.snd).filterMap Event.issued? :=
    List.mem_filterMap.mpr ⟨.issued a, List.mem_map_of_mem hruns.1, rfl⟩
  -- A report of the session was made by its last poll.
  have htimed : ∀ p ∈ j.events.filterMap Event.reported?, p.attempt = a →
      j.TimedAt j.seen a latency := by
    rintro p hp rfl
    obtain ⟨event, hevent, hreported⟩ := List.mem_filterMap.mp hp
    rw [← map_snd_timeline] at hevent
    obtain ⟨⟨t, event'⟩, hmem, rfl⟩ := List.mem_map.mp hevent
    obtain rfl : event' = .reported p := by
      cases event' <;> cases hreported
      rfl
    exact h.timedAt hcourse (List.mem_append_left _ hmem) (hruns.append _) hwait hfinish
      (h.seen _ hmem)
  obtain ⟨p, hstands, hphase⟩ := hcourse.stands
  cases p with
  | pending r =>
    obtain ⟨hrunning, -⟩ := hstands
    have hopen : j.endings = [] ∨ j.GaveUp := by
      cases hphase with
      | bounded r output stage quiet ended deadline gaveUp => exact .inr gaveUp
      | _ => exact .inl ‹j.endings = []›
    rcases hvigil.abiding hopen a hissued with
      ⟨output, hconsumed, -⟩ | ⟨-, begun', e', hruns', hlate⟩
    · rw [map_snd_timeline, hrunning.clean.reported] at hconsumed
      obtain ⟨p, hp, heq⟩ := List.mem_map.mp hconsumed
      exact .inl (htimed p hp (Prod.mk.inj heq).1)
    · have hbooks := hrunning.books
      rw [← map_snd_timeline] at hbooks
      obtain ⟨rfl, rfl⟩ := hbooks.runs_unique hruns hruns'
      have hlt := hlate _ (by rw [Execution.endsAt?, hwait])
      exact absurd hfinish (Nat.ne_of_gt hlt)
  | crashed fault r =>
    cases hphase with
    | broken _ _ stage quiet ended => exact .inr (.inr ⟨fault, by simp [ended]⟩)
  | finished output r =>
    obtain ⟨hbooks, -, -, -, hend⟩ := hstands
    rcases hend with ⟨failed, q, hreported, -, hsuccess, -⟩ | hspent
    · have hq : q ∈ j.events.filterMap Event.reported? := by
        rw [hreported]
        exact List.mem_append_right _ (List.mem_singleton_self _)
      by_cases hqa : q.attempt = a
      · exact .inl (htimed q hq hqa)
      · refine .inr (.inl ⟨q, ?_, hsuccess, hqa⟩)
        rw [reports, List.filterMap_append]
        exact List.mem_append_left _ hq
    · have hconserved := hbooks.conserved
      rw [hspent.none_left, List.append_nil, List.append_nil] at hconserved
      rw [map_snd_timeline] at hissued
      obtain ⟨p, hp, hpa⟩ := List.mem_map.mp (hconserved.subset hissued)
      exact .inl (htimed p hp hpa)

/-- What finishes at a poll of the task is reported in it, unless it breaks down. -/
theorem Clocked.drained (h : Clocked svc d start j) (hcourse : Course svc d start ls j)
    (es : Estimators) {task : Task In Out} (hstage : j.stage = .straggling task)
    (htorn : ¬ (j.drive svc es).Torn) {a : Attempt} {begun : Instant} {e : Execution Out}
    {latency : Duration} (hruns : Runs svc.callbacks j.timeline a begun e)
    (hwait : e.wait = .lasting latency) (hfinish : begun + latency.nanos = j.now) :
    (j.drive svc es).TimedAt j.now a latency := by
  obtain ⟨evs, hhistory, -, -, hclocked⟩ := h.exists_prompt_drive hstage es
  obtain ⟨last, stage, hdrive, -, hnot, -⟩ := exists_written_drive svc es hstage
  obtain ⟨output, r, -, hended, hspawner, -⟩ := hcourse.straggling hstage
  have hcourse' := course_drive hcourse es
  have hruns' : Runs svc.callbacks (j.drive svc es).history a begun e := by
    rw [hhistory, history, List.append_assoc]
    exact hruns.append _
  have hnow : (j.drive svc es).now = j.now := by rw [hdrive]; rfl
  have hissued : a ∈ ((j.drive svc es).events ++ (j.drive svc es).laterEvents).filterMap
      Event.issued? := by
    rw [← map_snd_history]
    exact List.mem_filterMap.mpr ⟨.issued a, List.mem_map_of_mem hruns'.1, rfl⟩
  have hreported : a ∈ (j.drive svc es).reports.map Report.attempt := by
    rcases hleft : (j.drive svc es).stage with session | task' | _
    · rw [hdrive] at hleft
      exact absurd hleft (hnot session)
    · obtain ⟨-, hconserved⟩ := hcourse'.conserved_straggling hleft
      refine (List.mem_append.mp (hconserved.subset hissued)).resolve_right fun hflying => ?_
      obtain ⟨begun', e', hbegun, hlate⟩ :=
        (hclocked.straggling task' hleft).tracked.unfinished (hcourse.idle es hleft).2 hflying
      obtain ⟨hand, r', hbooks, -⟩ := hcourse'.exists_books
      rw [← map_snd_history] at hbooks
      obtain ⟨rfl, rfl⟩ := hbooks.runs_unique hruns' hbegun
      exact absurd hfinish (Nat.ne_of_gt (hlate _ (by rw [Execution.endsAt?, hwait])))
    · have hended' : (j.drive svc es).endings = [.returned output] := by rw [hdrive]; exact hended
      have hgaveUp : ¬ (j.drive svc es).GaveUp := by
        rw [GaveUp, trace_drive]
        intro hgaveUp
        cases hstage.symm.trans (hcourse.gaveUp hgaveUp)
      exact (hcourse'.all_reported hspawner hleft hended' hgaveUp htorn).subset hissued
  obtain ⟨p, hp, rfl⟩ := List.mem_map.mp hreported
  obtain ⟨t, hmem⟩ := exists_mem_history hp
  exact hclocked.timedAt hcourse' hmem hruns' hwait hfinish (hnow ▸ hclocked.past _ hmem)

/-- The attempts of a request that is raced are timed. -/
theorem clocking_of_races {now : Instant} {es : Estimators} {request : In}
    (h : svc.Races now es request d ls) (opened : List Nat) (acts : List Act) :
    Clocking svc (some now) ((enter svc now opened es request).run svc acts) := by
  have hcourse := course_run (course_enter h opened) acts
  have hvigil := vigil_run (course_enter h opened) (vigil_enter h opened) acts
  obtain ⟨-, -, -, hentered⟩ := exists_prompt_enter h opened
  have hclocked := clocked_run (course_enter h opened) hentered acts
  generalize (enter svc now opened es request).run svc acts = j at hcourse hvigil hclocked
  obtain ⟨hand, r, hbooks, -⟩ := hcourse.exists_books
  rw [← map_snd_history] at hbooks
  refine {
    primary := fun t a hprimary ha => congrArg some (hclocked.eq_start hcourse hprimary ha).symm
    polled := fun es => ?_
    driven := fun es => ?_
    kept := hclocked.kept
    once := fun t t' a ha => hclocked.once hcourse ha
    latency := fun t p begun e d hp hruns hwait =>
      (hclocked.kept.reported t p hp).2.exact hbooks hruns hwait
    looked := fun a begun e d hruns hwait hfinish =>
      hclocked.looked hcourse hvigil hruns hwait hfinish
    drained := fun es task hstage htorn a begun e d hruns hwait hfinish =>
      hclocked.drained hcourse es hstage htorn hruns hwait hfinish
    heard := fun heard hmem => ?_ }
  · by_cases hheld : ∃ session, j.stage = .held session
    · obtain ⟨session, hsession⟩ := hheld
      obtain ⟨r, hrace⟩ := hcourse.inRace hsession
      obtain ⟨evs, hhistory, hprompt, -⟩ := hclocked.exists_prompt_poll hrace es
      exact ⟨evs, hhistory, hprompt⟩
    · rw [poll_of_not_held es fun session hsession => hheld ⟨session, hsession⟩]
      exact ⟨[], (List.append_nil _).symm, prompt_nil⟩
  · by_cases hstraggling : ∃ task, j.stage = .straggling task
    · obtain ⟨task, htask⟩ := hstraggling
      obtain ⟨evs, hhistory, hlater, hprompt, -⟩ := hclocked.exists_prompt_drive htask es
      have hcalled : ∀ event ∈ evs, event.called? = none := by
        intro event hevent
        have hsilent := silent_stragglers (course_drive hcourse es)
          (vigil_step hcourse hvigil (.drive es)) event
        exact (hsilent (hlater ▸ List.mem_append_right _ hevent)).2
      refine ⟨evs, hhistory, hprompt, fun event hevent => ⟨?_, hcalled event hevent⟩⟩
      cases event with
      | issued a =>
        obtain ⟨call, hcall, -⟩ := (hprompt _ hevent).2.resolve_left List.not_mem_nil
        cases hcalled _ hcall
      | _ => rfl
    · rw [drive_of_not_straggling es fun task htask => hstraggling ⟨task, htask⟩]
      exact ⟨[], (List.append_nil _).symm, prompt_nil, by simp⟩
  · rw [hcourse.record.heard_eq] at hmem
    obtain ⟨p, hp, hheard⟩ := List.mem_flatMap.mp hmem
    obtain ⟨position, -, rfl⟩ := List.mem_map.mp hheard
    exact exists_mem_history hp

end Races

/-! ## Every request -/

/-- A request of which nothing is issued or reported. -/
structure Unraced (j : Journey In Out) : Prop where
  quiet : j.aftermath = []
  idle : ∀ task, j.stage ≠ .straggling task
  silent : ∀ event ∈ j.events, event.issued? = none ∧ event.reported? = none
  unheard : j.heard = []

section Unraced

variable {svc : Service In Out} {request : In} {j : Journey In Out}

theorem Unpolled.unraced (h : Unpolled request j) : Unraced j where
  quiet := h.quiet
  idle := h.not_straggling
  silent := by
    rw [events, h.trace]
    exact fun event he => absurd he List.not_mem_nil
  unheard := by rw [heard, h.trace, h.quiet]; rfl

theorem silent_opening {now : Instant} {es : Estimators} {d : Decision} :
    ∀ event ∈ (Session.preface svc now es request ++
        [.race (.copied (d.attempt 0) request)] : List (Entry In Out)).filterMap Entry.race?,
      event.issued? = none ∧ event.reported? = none := by
  rw [List.filterMap_append, Session.filterMap_race_preface, List.nil_append]
  intro event he
  obtain rfl := List.mem_singleton.mp he
  exact ⟨rfl, rfl⟩

theorem heard_opening {now : Instant} {es : Estimators} {d : Decision} :
    (Session.preface svc now es request ++
      [.race (.copied (d.attempt 0) request)] : List (Entry In Out)).filterMap Entry.heard? =
        [] := by
  rw [List.filterMap_append, filterMap_heard_preface]
  rfl

/-- A request without a race issues and reports nothing. -/
theorem Direct.unraced {now : Instant} {es : Estimators} {before : List (Entry In Out)}
    {input : In} {begun : Instant} {start : Option Instant}
    (h : Direct svc before input begun start j)
    (hpasses : Session.Passes svc now es request before input start) : Unraced j := by
  have hbefore : (∀ event ∈ before.filterMap Entry.race?,
      event.issued? = none ∧ event.reported? = none) ∧ before.filterMap Entry.heard? = [] := by
    cases hpasses with
    | disabled => exact ⟨fun event he => absurd he List.not_mem_nil, rfl⟩
    | refused d left => exact ⟨silent_opening, heard_opening⟩
  refine ⟨h.quiet, h.not_straggling, ?_, h.heard_eq hbefore.2⟩
  rw [h.events_eq]
  exact List.forall_mem_append.mpr ⟨hbefore.1, List.forall_mem_singleton.mpr ⟨rfl, rfl⟩⟩

theorem Broken.unraced {now : Instant} {es : Estimators} {d : Decision} {crash : Crash}
    (h : Broken (Session.preface svc now es request ++
      [.race (.copied (d.attempt 0) request)]) crash j) : Unraced j := by
  refine ⟨h.quiet, fun task htask => ?_, ?_, ?_⟩
  · cases h.stage.symm.trans htask
  · have hraced : j.events = (j.trace.map Prod.snd).filterMap Entry.race? := by
      rw [List.filterMap_map]
      rfl
    rw [hraced, h.trace]
    exact silent_opening
  · rw [heard_eq_map, h.quiet, List.append_nil, h.trace, heard_opening]

/-- A poll that issues and reports nothing has nothing to show beside. -/
theorem Unraced.exists_prompt_poll (hquiet : j.aftermath = []) (es : Estimators)
    (h : Unraced (j.poll svc es)) :
    ∃ evs, (j.poll svc es).history = j.history ++ stamp j.now evs ∧
      Prompt svc.callbacks j.history j.now [] evs := by
  by_cases hheld : ∃ session, j.stage = .held session
  · obtain ⟨session, hsession⟩ := hheld
    obtain ⟨evs, htimeline, -⟩ := exists_timeline_poll svc hsession es
    have hhistory : (j.poll svc es).history = j.history ++ stamp j.now evs := by
      rw [history_of_quiet hquiet, history_of_quiet h.quiet, htimeline]
    refine ⟨evs, hhistory, fun event he => ?_⟩
    have hmem : event ∈ (j.poll svc es).events := by
      rw [← map_snd_timeline, htimeline, List.map_append, events_stamp]
      exact List.mem_append_right _ he
    exact backed_of_quiet (h.silent event hmem).1 (h.silent event hmem).2
  · rw [poll_of_not_held es fun session hsession => hheld ⟨session, hsession⟩]
    exact ⟨[], (List.append_nil _).symm, prompt_nil⟩

/-- Of a request of which nothing is issued or reported, nothing is timed. -/
theorem Unraced.clocking (h : Unraced j) (first? : Option Instant)
    (hpolled : ∀ es, ∃ evs, (j.poll svc es).history = j.history ++ stamp j.now evs ∧
      Prompt svc.callbacks j.history j.now [] evs) : Clocking svc first? j := by
  have hsilent : ∀ x ∈ j.history, x.2.issued? = none ∧ x.2.reported? = none := by
    rw [history_of_quiet h.quiet]
    intro x hx
    exact h.silent _ (map_snd_timeline j ▸ List.mem_map_of_mem hx)
  have hissued : ∀ {t a}, (t, .issued a) ∉ j.history := fun hmem => by cases (hsilent _ hmem).1
  have hreported : ∀ {t p}, (t, .reported p) ∉ j.history := fun hmem => by
    cases (hsilent _ hmem).2
  have hruns : ∀ {a begun e}, ¬ Runs svc.callbacks j.timeline a begun e := fun hruns =>
    hissued (List.mem_append_left _ hruns.1)
  constructor
  · exact fun t a _ ha => absurd ha hissued
  · exact hpolled
  · intro es
    rw [drive_of_not_straggling es h.idle]
    exact ⟨[], (List.append_nil _).symm, prompt_nil, by simp⟩
  · exact ⟨fun t a ha => absurd ha hissued, fun t p hp => absurd hp hreported⟩
  · exact fun t t' a ha => absurd ha hissued
  · exact fun t p begun e d hp => absurd hp hreported
  · exact fun a begun e d hr => absurd hr hruns
  · exact fun es task hstage => absurd hstage (h.idle task)
  · rw [h.unheard]
    exact fun heard hmem => absurd hmem List.not_mem_nil

/-- A request that is dropped before its first poll, or not polled at all, stays as it came. -/
theorem run_of_firstPoll?_eq_none (svc : Service In Out) {acts : List Act}
    (h : Unpolled request j) (hheld : j.stage = .held (.ofRequest request))
    (hfirst : firstPoll? j.now acts = none) : Unpolled request (j.run svc acts) := by
  induction acts generalizing j with
  | nil => exact h
  | cons act acts ih =>
    cases act with
    | poll es => cases hfirst
    | advance by_ => exact ih ⟨.inl hheld, h.trace, h.quiet, h.ended⟩ hheld hfirst
    | complete calls => exact ih ⟨.inl hheld, h.trace, h.quiet, h.ended⟩ hheld hfirst
    | drop =>
      have hdrop : j.step svc .drop = { j with stage := .over } := by rw [step, drop, hheld]
      have hrun : j.run svc (.drop :: acts) = run svc { j with stage := .over } acts :=
        congrArg (fun j => run svc j acts) hdrop
      obtain ⟨hover, htrace, haftermath, hendings⟩ :=
        run_of_over svc (j := { j with stage := .over }) rfl acts
      rw [hrun]
      exact ⟨.inr hover, htrace.trans h.trace, haftermath.trans h.quiet, hendings.trans h.ended⟩
    | drive es =>
      have hdrive : j.step svc (.drive es) = j := drive_of_not_straggling es h.not_straggling
      have hrun : j.run svc (.drive es :: acts) = j.run svc acts :=
        congrArg (fun j => run svc j acts) hdrive
      rw [hrun]
      exact ih h hheld hfirst

/-- What the first poll of a request shows, whether it is raced or not. -/
theorem Unpolled.exists_prompt_poll (svc : Service In Out) (h : Unpolled request j)
    (es : Estimators) :
    ∃ evs, (j.poll svc es).history = j.history ++ stamp j.now evs ∧
      Prompt svc.callbacks j.history j.now [] evs := by
  rcases h.stage with hheld | hover
  · have hpoll := h.poll_eq svc hheld es
    rcases enter_cases svc j.now j.opened es request with
      ⟨d, ls, hraces⟩ | ⟨before, input, start, hpasses, hdirect⟩ | ⟨d, crash, -, hbroken⟩
    · obtain ⟨evs, hhistory, hprompt, -⟩ := exists_prompt_enter hraces j.opened
      have hnothing : j.history = [] := by
        rw [history_of_quiet h.quiet, timeline, h.trace, List.filterMap_nil]
      exact ⟨evs, by rw [hpoll, hhistory, hnothing, List.nil_append], hnothing ▸ hprompt⟩
    · exact Unraced.exists_prompt_poll h.quiet es (hpoll ▸ hdirect.unraced hpasses)
    · exact Unraced.exists_prompt_poll h.quiet es (hpoll ▸ hbroken.unraced)
  · rw [poll_of_not_held es (by simp [hover])]
    exact ⟨[], (List.append_nil _).symm, prompt_nil⟩

/-- Whatever happens to a request, each of its attempts is timed from when it was issued. -/
theorem clocking_fresh (svc : Service In Out) (now : Instant) (opened : List Nat) (request : In)
    (acts : List Act) :
    Clocking svc ((firstPoll? now acts).map Prod.fst)
      ((fresh now opened request).run svc acts) := by
  have hfresh : Unpolled request (fresh now opened request : Journey In Out) :=
    unpolled_fresh now opened request
  cases hfirst : firstPoll? now acts with
  | none =>
    have hunpolled := run_of_firstPoll?_eq_none svc hfresh rfl hfirst
    exact hunpolled.unraced.clocking none (hunpolled.exists_prompt_poll svc)
  | some first =>
    obtain ⟨t, es⟩ := first
    obtain ⟨opened', after, hrun⟩ := exists_run_of_firstPoll? hfresh rfl hfirst
    rw [hrun]
    rcases enter_cases svc t opened' es request with
      ⟨d, ls, hraces⟩ | ⟨before, input, start, hpasses, hdirect⟩ | ⟨d, crash, -, hbroken⟩
    · exact clocking_of_races hraces opened' after
    · have hdirect' := direct_run hdirect after
      exact (hdirect'.unraced hpasses).clocking _ fun es' =>
        Unraced.exists_prompt_poll hdirect'.quiet es' ((hdirect'.poll es').unraced hpasses)
    · have hbroken' : Broken _ crash ((enter svc t opened' es request).run svc after) :=
        broken_run hbroken after
      exact hbroken'.unraced.clocking _ fun es' =>
        Unraced.exists_prompt_poll hbroken'.quiet es' (broken_run hbroken' [.poll es']).unraced

/-- The hedge is issued at two seconds and wins at three, and the primary attempt is drained at
five; they took one second and five. -/
example : ((fresh 0 [] 7).run slowFirst (.poll [] :: slowFirstActs)).heard.map
    (fun h => (h.2.attempt.index, h.2.elapsed)) =
      [(1, .ofSeconds 1), (0, .ofSeconds 5)] := by decide +kernel

end Unraced

end Journey

end RequestHedging
