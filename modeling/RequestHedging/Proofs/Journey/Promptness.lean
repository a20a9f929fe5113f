import RequestHedging.Proofs.Journey.Result
import RequestHedging.Proofs.Race.Timing

/-!
# No success is overlooked

An attempt that has finished is consumed by the next poll, or the race has ended before
that.  So a success ends the race in the first poll that could see it, no hedge is asked
for while one is there to be seen, and a race that is left pending has something to wait
for (`promptness_run`).

`Vigil` is what is known of the times of a journey after each poll.  It is kept beside
`Course`, which knows nothing of time but that hedges were due.
-/

namespace RequestHedging

open Race Trace

variable {In Out : Type}

namespace Journey

/-- The events of the race, as far as the session saw it, and when they happened. -/
def timeline (j : Journey In Out) : Timeline In Out :=
  j.trace.filterMap fun e => e.2.race?.map (Prod.mk e.1)

theorem map_snd_timeline (j : Journey In Out) : j.timeline.map Prod.snd = j.events := by
  rw [timeline, List.map_filterMap, events]
  congr 1
  funext e
  rw [Option.map_map]
  exact congrFun Option.map_id _

theorem timeline_observe {j : Journey In Out} {entries : List (Entry In Out)}
    {evs : List (Event In Out)} (h : entries.filterMap Entry.race? = evs) :
    (j.observe entries).timeline = j.timeline ++ stamp j.now evs := by
  rw [timeline, observe, List.filterMap_append, List.filterMap_map, stamp, ← h,
    List.map_filterMap]
  rfl

/-- What is known of the times of a request that is raced. -/
structure Vigil (svc : Service In Out) (j : Journey In Out) : Prop where
  landed : Landed svc.callbacks j.timeline
  patient : Patient svc.callbacks j.timeline
  /-- A race that did not end by itself looked at all that had finished. -/
  abiding : j.endings = [] ∨ j.GaveUp → Abiding svc.callbacks j.timeline j.seen
  /-- What waits in flight has begun, and has not finished. -/
  flying : ∀ ls r start, j.stage = .held ⟨.racing ls r, start⟩ →
    Tracked svc.callbacks j.timeline r.flights ∧ r.flights.ready = [] ∧
      ∀ a ∈ r.flights.attempts, Unfinished svc.callbacks j.timeline j.seen a
  /-- All attempts issued were called, unless the race crashed. -/
  called : (∀ fault, .crashed fault ∉ j.endings) →
    (j.events.filterMap Event.issued?).Perm (j.events.filterMap Event.called?)
  /-- Only a callback crashes. -/
  crashed : ∀ crash, .crashed (.callback crash) ∈ j.endings → ¬ svc.callbacks.Total

section Steps

variable {svc : Service In Out} {d : Decision} {start : Instant} {ls : List (Listener In Out)}
  {j j' : Journey In Out}

/-- What is not a poll of the session changes nothing. -/
theorem Vigil.elsewhere (h : Vigil svc j) (htrace : j'.trace = j.trace) (hseen : j'.seen = j.seen)
    (hendings : j'.endings = j.endings) (hstage : ∀ s, j'.stage = .held s → j.stage = .held s) :
    Vigil svc j' := by
  have htimeline : j'.timeline = j.timeline := by rw [timeline, timeline, htrace]
  have hevents : j'.events = j.events := by rw [events, events, htrace]
  constructor
  · rw [htimeline]
    exact h.landed
  · rw [htimeline]
    exact h.patient
  · rw [htimeline, hseen, hendings, GaveUp, htrace]
    exact h.abiding
  · intro ls r start hs
    rw [htimeline, hseen]
    exact h.flying ls r start (hstage _ hs)
  · rw [hevents, hendings]
    exact h.called
  · rw [hendings]
    exact h.crashed

/-- Between polls nothing becomes known, and the flights are woken at the next one. -/
theorem Vigil.watched (h : Vigil svc j) {r : Race In Out}
    (hstage : j.stage = .held ⟨.racing ls r, some start⟩) :
    Watched svc.callbacks j.moment j.timeline (r.flights.wake j.moment) :=
  ⟨.inl ((h.flying ls r (some start) hstage).1.wake _), r.flights.hasRung_wake _, h.landed,
    h.patient⟩

/-- What a poll of a session in a race leaves to be known. -/
theorem vigil_held {r : Race In Out} (es : Estimators)
    (hstage : j.stage = .held ⟨.racing ls r, some start⟩) (hended : j.endings = [])
    (hgaveUp : ¬ j.GaveUp) (hrunning : Running svc.callbacks d start j.now j.events r)
    (hpoised : r.Poised j.now)
    (hwatched : Watched svc.callbacks j.moment j.timeline (r.flights.wake j.moment)) :
    Vigil svc (j.poll svc es) := by
  obtain ⟨entries, last, progress, hpoll, hled, hnews, -, hfirst⟩ := exists_led_poll svc es hstage
  have hstands := stands_poll (m := j.moment) hpoised hrunning
  have hheeds := heeds_poll (m := j.moment) hpoised ((map_snd_timeline j).symm ▸ hrunning) hwatched
  rw [hpoll]
  generalize r.poll svc.callbacks j.moment = raced at hled hnews hstands hheeds
  obtain ⟨evs, p⟩ := raced
  dsimp only at hled hnews hstands hheeds
  have hraced : entries.filterMap Entry.race? = evs := filterMap_race_of_news hnews
  have hevents : (j.observe entries).events = j.events ++ evs := events_observe hraced
  rw [show j.moment.now = j.now from rfl, ← timeline_observe hraced] at hheeds
  rw [← hevents] at hstands
  have hquiet : (∀ e ∈ last, e.isGaveUp = false) → ¬ (j.observe entries).GaveUp := by
    intro hlast
    apply not_gaveUp_observe hgaveUp
    intro e he
    by_cases hmem : e ∈ last
    · exact hlast e hmem
    · exact hfirst e he hmem
  generalize hj : j.observe entries = seen at hheeds hstands hquiet ⊢
  have hnow : seen.seen = j.now := by rw [← hj, observe]
  have hnone : seen.endings = [] := by rw [← hj, observe, hended]
  have hnever : (∀ e ∈ last, e.isGaveUp = false) → ∀ ending : Session.Ending Out,
      ¬ (seen.endings ++ [ending] = [] ∨ seen.GaveUp) := by
    rintro hlast ending (hempty | hlate)
    · simp at hempty
    · exact hquiet hlast hlate
  cases hled with
  | waits r' hopen =>
    obtain ⟨htracked, hidle, habiding⟩ := hheeds.leaves
    have hunfinished := unfinished_of_idle ((map_snd_timeline seen).symm ▸ hstands.1) htracked hidle
    refine ⟨hheeds.landed, hheeds.patient, fun _ => hnow ▸ habiding, ?_,
      fun _ => hstands.1.books.called_of_uncalled htracked.uncalled, ?_⟩
    · intro ls' r'' start' hs
      cases hs
      exact ⟨htracked, hidle.1, hnow ▸ hunfinished⟩
    · simp [conclude, hnone]
  | bounded r' deadline hdeadline hpassed =>
    obtain ⟨htracked, -, habiding⟩ := hheeds.leaves
    have habiding' : Abiding svc.callbacks seen.timeline seen.seen := hnow ▸ habiding
    refine ⟨hheeds.landed, hheeds.patient, fun _ => habiding', by simp [conclude],
      fun _ => hstands.1.books.called_of_uncalled htracked.uncalled, ?_⟩
    simp [conclude, hnone]
  | breaks fault r' =>
    refine ⟨hheeds.landed, hheeds.patient, fun hor => absurd hor (hnever (by simp) _),
      by simp [conclude], ?_, ?_⟩
    · intro hcrash
      exact absurd (by simp [conclude]) (hcrash fault)
    · intro crash hcrash
      simp only [conclude, hnone, List.nil_append, List.mem_singleton] at hcrash
      cases hcrash
      exact hheeds.leaves (Fault.callback_ne_primaryMissing crash)
  | ends output r' hcancelled =>
    exact ⟨hheeds.landed, hheeds.patient, fun hor => absurd hor (hnever (by simp) _),
      by simp [conclude], fun _ => hstands.1.called_of_uncalled hheeds.leaves.uncalled,
      by simp [conclude, hnone]⟩
  | hands output r' hspawner hleft =>
    exact ⟨hheeds.landed, hheeds.patient, fun hor => absurd hor (hnever (by simp) _),
      by simp [conclude], fun _ => hstands.1.called_of_uncalled hheeds.leaves.uncalled,
      by simp [conclude, hnone]⟩

/-- Whatever happens next keeps what is known. -/
theorem vigil_step (hcourse : Course svc d start ls j) (h : Vigil svc j) (act : Act) :
    Vigil svc (j.step svc act) := by
  cases act with
  | advance by_ => exact h.elsewhere rfl rfl rfl fun _ hs => hs
  | complete calls => exact h.elsewhere rfl rfl rfl fun _ hs => hs
  | poll es =>
    by_cases hheld : ∃ session, j.stage = .held session
    · obtain ⟨session, hsession⟩ := hheld
      obtain ⟨r, rfl, -, hended, hrunning, hresting⟩ := hcourse.held hsession
      have hgaveUp : ¬ j.GaveUp := by
        intro hgaveUp
        cases hsession.symm.trans (hcourse.gaveUp hgaveUp)
      exact vigil_held es hsession hended hgaveUp (hrunning.later hcourse.seen_le)
        ((hresting.poised hrunning).later hcourse.seen_le) (h.watched hsession)
    · rw [step, poll_of_not_held es fun session hsession => hheld ⟨session, hsession⟩]
      exact h
  | drop =>
    rw [step]
    unfold drop
    split
    · exact h.elsewhere rfl rfl rfl (by simp)
    · exact h
  | drive es =>
    rw [step]
    unfold drive
    split
    · exact h.elsewhere rfl rfl rfl fun s hs => absurd hs (Stage.ofTask_ne_held _ s)
    · exact h

/-- Whatever happens keeps what is known. -/
theorem vigil_run (hcourse : Course svc d start ls j) (h : Vigil svc j) (acts : List Act) :
    Vigil svc (j.run svc acts) := by
  induction acts generalizing j with
  | nil => exact h
  | cons act acts ih => exact ih (course_step hcourse act) (vigil_step hcourse h act)

end Steps

/-- After the first poll of a request that is raced this is known. -/
theorem vigil_enter {svc : Service In Out} {now : Instant} {es : Estimators} {request : In}
    {d : Decision} {ls : List (Listener In Out)} (h : svc.Races now es request d ls)
    (opened : List Nat) : Vigil svc (enter svc now opened es request) := by
  obtain ⟨es', r, henter, hrunning, hpoised, input, hflights⟩ := exists_enter_eq_poll h opened
  have htimeline : (started now opened ls r (Session.beginning svc d ls now es request)).timeline =
      [(now, .copied (d.attempt 0) request), (now, .issued (d.attempt 0))] := by
    rw [timeline, started, List.filterMap_map]
    show (Session.beginning svc d ls now es request).filterMap
      (fun e => e.race?.map (Prod.mk now)) = _
    rw [← List.map_filterMap, ← filterMap_race_news, Session.news_beginning]
    rfl
  have hpatient : Patient svc.callbacks
      [(now, .copied (d.attempt 0) request), (now, .issued (d.attempt 0))] := by
    have hasked : Patient svc.callbacks [(now, .copied (d.attempt 0) request)] :=
      patient_nil.snoc fun _ _ _ a ha => absurd ha List.not_mem_nil
    exact hasked.snoc (by simp)
  rw [henter]
  refine vigil_held es' rfl rfl (not_gaveUp_started opened ls r)
    ((events_started svc d now es request opened ls r).symm ▸ hrunning) hpoised ?_
  rw [htimeline, hflights]
  refine ⟨.inr (launched_start _ input ?_), Flights.hasRung_wake _ _, ?_, hpatient⟩
  · exact List.mem_cons_of_mem _ (List.mem_singleton_self _)
  · exact fun a output hmem => absurd hmem List.not_mem_nil

/-! ## Promptness -/

/-- How a race ends that has a success: with an output that succeeded, or a callback crashes. -/
def EndsInTime (svc : Service In Out) (j : Journey In Out) : Prop :=
  (∃ output, j.endings = [.returned output] ∧ Won svc.callbacks j.events output) ∨
    ∃ crash, j.endings = [.crashed (.callback crash)] ∧ ¬ svc.callbacks.Total

/-- No success is overlooked, and no race waits for nothing. -/
structure Promptness (svc : Service In Out) (d : Decision) (start : Instant)
    (j : Journey In Out) : Prop where
  /-- When the input of a hedge is asked for, every attempt issued so far was lost or has not
  finished. -/
  patient : Patient svc.callbacks j.timeline
  /-- A success that was there at the last poll has ended the race. -/
  ended : ∀ a, Succeeds svc.callbacks j.timeline j.seen a → EndsInTime svc j
  /-- A success in flight ends the race in the next poll, which asks for no hedge. -/
  ends : ∀ es a, (∃ session, j.stage = .held session) → Succeeds svc.callbacks j.timeline j.now a →
    EndsInTime svc (j.poll svc es) ∧
      (j.poll svc es).events.filterMap Event.asked? = j.events.filterMap Event.asked?
  /-- A poll that leaves a race pending leaves nothing in flight that has finished, -/
  abiding : (∃ session, j.stage = .held session) → Abiding svc.callbacks j.timeline j.seen
  /-- and an attempt in flight that has not finished, or a hedge that is not due. -/
  busy : (∃ session, j.stage = .held session) →
    (∃ a ∈ j.events.filterMap Event.issued?, Unfinished svc.callbacks j.timeline j.seen a) ∨
      ∃ i, 1 ≤ i ∧ i ≤ d.maxHedges.toNat ∧ d.attempt i ∉ j.events.filterMap Event.asked? ∧
        j.seen < start + d.dueNanos i

section Promptness

variable {svc : Service In Out} {d : Decision} {start : Instant} {ls : List (Listener In Out)}
  {j : Journey In Out}

/-- A poll of a session adds to the timeline what happens at its time. -/
theorem exists_timeline_poll (svc : Service In Out) {session : Session In Out}
    (hsession : j.stage = .held session) (es : Estimators) :
    ∃ evs, (j.poll svc es).timeline = j.timeline ++ stamp j.now evs ∧
      (j.poll svc es).seen = j.now := by
  refine ⟨(session.poll svc j.moment es).entries.filterMap Entry.race?, ?_⟩
  rw [poll_of_held hsession, ← timeline_observe rfl]
  cases (session.poll svc j.moment es).progress <;> exact ⟨rfl, rfl⟩

/-- A success was neither lost nor unfinished at any time since it was issued. -/
theorem not_abiding_of_succeeds (hcourse : Course svc d start ls j) (h : Vigil svc j)
    {tl later : Timeline In Out} (hsplit : j.timeline = tl ++ later) {t : Instant} {a : Attempt}
    (hsucceeds : Succeeds svc.callbacks j.timeline t a) :
    ¬ (Lost svc.callbacks tl a ∨ Unfinished svc.callbacks tl t a) := by
  obtain ⟨p, hstands, -⟩ := hcourse.stands
  obtain ⟨hand, hbooks⟩ := hstands.exists_books
  have hlanded := h.landed
  rw [← map_snd_timeline] at hbooks
  rw [hsplit] at hbooks hlanded hsucceeds
  exact hsucceeds.not_abiding hbooks hlanded

/-- A success that was there at the last poll has ended the race. -/
theorem endsInTime_of_succeeds (hcourse : Course svc d start ls j) (h : Vigil svc j) {a : Attempt}
    (hsucceeds : Succeeds svc.callbacks j.timeline j.seen a) : EndsInTime svc j := by
  have hnot := not_abiding_of_succeeds hcourse h (List.append_nil _).symm hsucceeds
  have hopen : ¬ (j.endings = [] ∨ j.GaveUp) :=
    fun hopen => hnot (h.abiding hopen a hsucceeds.mem_issued)
  obtain ⟨p, hstands, hphase⟩ := hcourse.stands
  cases p with
  | pending r =>
    cases hphase with
    | bounded r output stage quiet ended deadline gaveUp => exact absurd (.inr gaveUp) hopen
    | _ => exact absurd (.inl ‹j.endings = []›) hopen
  | crashed fault r =>
    cases hphase with
    | broken fault r stage quiet ended =>
      cases fault with
      | callback crash => exact .inr ⟨crash, ended, h.crashed crash (by simp [ended])⟩
      | primaryMissing => exact absurd rfl hstands.1
  | finished output r =>
    obtain ⟨hbooks, hclean, hanswered, -, hend⟩ := hstands
    refine .inl ⟨output, ?_, ?_⟩
    · cases hphase with
      | _ => assumption
    · refine (hend.resolve_right ?_).won hbooks hclean
      intro hspent
      have hexhausted := hspent.exhausted hbooks hclean hanswered
      have hissued := hsucceeds.mem_issued
      rw [map_snd_timeline] at hissued
      obtain ⟨c, hc, rfl⟩ := List.mem_map.mp (hexhausted.completed.subset hissued)
      refine hnot (.inl ⟨c.2, ?_, hexhausted.failed c hc⟩)
      rw [map_snd_timeline]
      exact hc

/-- While a success is in flight, no input is asked for. -/
theorem asked_poll_of_succeeds (hcourse : Course svc d start ls j) (h : Vigil svc j)
    {session : Session In Out} (hsession : j.stage = .held session) (es : Estimators) {a : Attempt}
    (hsucceeds : Succeeds svc.callbacks j.timeline j.now a) :
    (j.poll svc es).events.filterMap Event.asked? = j.events.filterMap Event.asked? := by
  obtain ⟨evs, htimeline, -⟩ := exists_timeline_poll svc hsession es
  have hcourse' := course_poll hcourse es
  have hvigil' : Vigil svc (j.poll svc es) := vigil_step hcourse h (.poll es)
  have hnone : evs.filterMap Event.asked? = [] := by
    apply List.filterMap_eq_nil_iff.mpr
    intro e he
    cases e with
    | copied a' request =>
      obtain ⟨before, after, rfl⟩ := List.append_of_mem he
      have hsplit : (j.poll svc es).timeline = (j.timeline ++ stamp j.now before) ++
          ([(j.now, .copied a' request)] ++ stamp j.now after) := by
        rw [htimeline, List.append_assoc, stamp_append]
        rfl
      have hprefix : j.timeline ++ stamp j.now before ++ [(j.now, .copied a' request)] <+:
          (j.poll svc es).timeline := by
        rw [hsplit, ← List.append_assoc]
        exact List.prefix_append _ _
      have hsucceeds' : Succeeds svc.callbacks (j.poll svc es).timeline j.now a :=
        htimeline ▸ hsucceeds.append _
      have hissued := (hsucceeds.append (stamp j.now before)).mem_issued
      exact absurd (hvigil'.patient _ _ _ _ hprefix a hissued)
        (not_abiding_of_succeeds hcourse' hvigil' hsplit hsucceeds')
    | _ => rfl
  rw [← map_snd_timeline, ← map_snd_timeline, htimeline, List.map_append, events_stamp,
    List.filterMap_append, hnone, List.append_nil]

/-- A race that is left pending has something to wait for. -/
theorem busy_of_held (hcourse : Course svc d start ls j) (h : Vigil svc j)
    {session : Session In Out} (hsession : j.stage = .held session) :
    (∃ a ∈ j.events.filterMap Event.issued?, Unfinished svc.callbacks j.timeline j.seen a) ∨
      ∃ i, 1 ≤ i ∧ i ≤ d.maxHedges.toNat ∧ d.attempt i ∉ j.events.filterMap Event.asked? ∧
        j.seen < start + d.dueNanos i := by
  obtain ⟨r, rfl, -, -, hrunning, hresting⟩ := hcourse.held hsession
  obtain ⟨-, -, hunfinished⟩ := h.flying ls r (some start) hsession
  have hdecision := hrunning.timed.decision
  cases hnext : r.decision.next r.lastHedge with
  | none =>
    have hleft := hresting.landing hnext
    have hne : r.flights.attempts ≠ [] := by
      intro hnil
      rw [(Flights.isEmpty_iff_attempts _).mpr hnil] at hleft
      cases hleft
    obtain ⟨a, ha⟩ := List.exists_mem_of_ne_nil _ hne
    refine .inl ⟨a, ?_, hunfinished a ha⟩
    exact hrunning.books.conserved.symm.subset (List.mem_append_right _ ha)
  | some next =>
    obtain ⟨index, due⟩ := next
    obtain ⟨hindex, hmax⟩ := Decision.next_eq_some hnext
    have hdue := hresting.not_due index due hnext
    rw [hrunning.timed.started, Decision.nanos_of_next hnext, hdecision] at hdue
    refine .inr ⟨index.toNat, ?_, hdecision ▸ hmax, ?_, hdue⟩
    · rw [hindex]
      exact Nat.le_add_left 1 _
    · intro hasked
      obtain ⟨i, hi, heq, hattempt⟩ := hrunning.books.exists_attempt hasked
      have hself : (d.attempt index.toNat).index.toNat = index.toNat := by
        rw [Decision.attempt, UInt32.ofNat_toNat]
        rfl
      have : index.toNat = i := hself.symm.trans hattempt
      omega

/-- Whatever happens to a request that is raced, no success is overlooked. -/
theorem promptness_run {now : Instant} {es : Estimators} {request : In}
    (h : svc.Races now es request d ls) (opened : List Nat) (acts : List Act) :
    Promptness svc d now ((enter svc now opened es request).run svc acts) := by
  have hcourse := course_run (course_enter h opened) acts
  have hvigil := vigil_run (course_enter h opened) (vigil_enter h opened) acts
  generalize (enter svc now opened es request).run svc acts = j at hcourse hvigil
  constructor
  · exact hvigil.patient
  · exact fun a hsucceeds => endsInTime_of_succeeds hcourse hvigil hsucceeds
  · rintro es a ⟨session, hsession⟩ hsucceeds
    obtain ⟨evs, htimeline, hseen⟩ := exists_timeline_poll svc hsession es
    refine ⟨?_, asked_poll_of_succeeds hcourse hvigil hsession es hsucceeds⟩
    have hvigil' : Vigil svc (j.poll svc es) := vigil_step hcourse hvigil (.poll es)
    apply endsInTime_of_succeeds (course_poll hcourse es) hvigil' (a := a)
    rw [htimeline, hseen]
    exact hsucceeds.append _
  · rintro ⟨session, hsession⟩
    obtain ⟨r, rfl, -, hended, -⟩ := hcourse.held hsession
    exact hvigil.abiding (.inl hended)
  · rintro ⟨session, hsession⟩
    exact busy_of_held hcourse hvigil hsession

/-- The slow service asks for its hedge on time, and the hedge wins. -/
theorem promptness_run_slowFirst :
    slowFirst.Races 0 [] 7 .standard [.callback "log" fun _ => .ok ()] ∧
      Promptness slowFirst .standard 0 ((enter slowFirst 0 [] [] 7).run slowFirst slowFirstActs) ∧
      ((enter slowFirst 0 [] [] 7).run slowFirst slowFirstActs).timeline.filterMap
        (fun e => e.2.asked?.map fun a => (e.1, a.index)) = [(0, 0), (2000000000, 1)] :=
  ⟨races_slowFirst, promptness_run races_slowFirst [] slowFirstActs, by decide +kernel⟩

end Promptness

end Journey

end RequestHedging
