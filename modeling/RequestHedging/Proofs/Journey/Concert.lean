import RequestHedging.Proofs.Journey.Chronicle
import RequestHedging.Proofs.Race.Unison

/-!
# Hedges and the end of a race

What a race tells of its hedges, and how it ends by itself, over a whole request (`Concert`):
the race keeps its hedges in unison from poll to poll, stragglers tell nothing of hedges, and a
race that ended by itself has said so once (`Concert.closing`).
-/

namespace RequestHedging

open Race Trace

variable {In Out : Type}

/-! ## Stragglers -/

namespace Stragglers

section Poll

variable {cb : Callbacks In Out} {m : Moment} {s : Stragglers In Out}

/-- Neither a hedge nor the end of a race. -/
def Unremarkable (events : List (Event In Out)) : Prop :=
  ∀ e ∈ events, e.announced? = none ∧ e.issued? = none ∧ e.closing? = none

theorem Unremarkable.append {events later : List (Event In Out)} (h : Unremarkable events)
    (hlater : Unremarkable later) : Unremarkable (events ++ later) :=
  List.forall_mem_append.mpr ⟨h, hlater⟩

theorem unremarkable_calls (made : List (Call In)) :
    Unremarkable (made.map Event.called : List (Event In Out)) := by
  intro e he
  obtain ⟨call, -, rfl⟩ := List.mem_map.mp he
  exact ⟨rfl, rfl, rfl⟩

theorem unremarkable_complete (now : Instant) (c : Completed Out) :
    Unremarkable (s.complete cb now c).1 := by
  unfold complete
  dsimp only
  split <;> simp [Unremarkable]

/-- Stragglers call, classify and report. -/
theorem unremarkable_run : Unremarkable (s.run cb m).1 := by
  induction s using run.induct cb m with
  | case1 s made flights hp =>
    rw [run, hp]
    exact unremarkable_calls made
  | case2 s made flights crash hp =>
    rw [run, hp]
    exact unremarkable_calls made
  | case3 s made flights c hp events crash hc =>
    have hcomplete : Unremarkable (s.complete cb m.now c).1 := unremarkable_complete m.now c
    rw [hc] at hcomplete
    rw [run, hp]
    dsimp only
    rw [hc]
    exact (unremarkable_calls made).append hcomplete
  | case4 s made flights c hp events hc ih =>
    have hcomplete : Unremarkable (s.complete cb m.now c).1 := unremarkable_complete m.now c
    rw [hc] at hcomplete
    rw [run, hp]
    dsimp only
    rw [hc]
    exact ((unremarkable_calls made).append hcomplete).append ih

end Poll

end Stragglers

namespace Journey

/-! ## The race and its end -/

/-- What the race and its task have told of hedges, and of the end of the race. -/
structure Concert (svc : Service In Out) (d : Decision) (j : Journey In Out) : Prop where
  unison : Unison svc.callbacks d j.events []
  later : Stragglers.Unremarkable j.laterEvents
  /-- At the next poll nothing is left to call. -/
  racing : ∀ ls r start, j.stage = .held ⟨.racing ls r, start⟩ →
    ∀ m, Paired svc.callbacks d j.events { r with flights := r.flights.wake m }
  /-- The race has said how it ended exactly if it ended by itself. -/
  closed : (j.events.filterMap Event.closing? = [] ∧
      (j.GaveUp ∨ ∀ output, .returned output ∉ j.endings)) ∨
    ∃ output r, j.endings = [.returned output] ∧ ¬ j.GaveUp ∧
      r.issued = .ofNat (j.events.filterMap Event.issued?).length ∧
      Concludes d j.events (.finished output r)

section Concert

variable {svc : Service In Out} {d : Decision} {start : Instant} {ls : List (Listener In Out)}
  {j : Journey In Out} {r : Race In Out}

/-- What a poll of a session in a race tells. -/
theorem concert_poll (honHedge : ∀ a delay crash, svc.callbacks.onHedge a delay ≠ .error crash)
    (es : Estimators) (h : InRace svc d start ls j r)
    (hpaired : Paired svc.callbacks d j.events
      { r with flights := r.flights.wake j.moment }) : Concert svc d (j.poll svc es) := by
  obtain ⟨last, progress, hpoll, hled⟩ := exists_written_poll svc es h.stage
  have hstands := stands_poll (m := j.moment) h.poised h.running
  obtain ⟨hunison, hconcludes⟩ := concludes_poll honHedge h.poised h.running hpaired
  rw [hpoll]
  generalize r.poll svc.callbacks j.moment = raced at hled hstands hunison hconcludes ⊢
  obtain ⟨evs, p⟩ := raced
  dsimp only at hled hstands hunison hconcludes ⊢
  have hevents : (j.observe (evs.flatMap (written svc.telemetry ls) ++ last)).events =
      j.events ++ evs := events_observe_written hled.filterMap_race_last
  have hkept : (∀ e ∈ last, e.isGaveUp = false) →
      ¬ (j.observe (evs.flatMap (written svc.telemetry ls) ++ last)).GaveUp := by
    intro hlast
    apply not_gaveUp_observe h.kept
    exact List.forall_mem_append.mpr ⟨fun e he => isGaveUp_written he, hlast⟩
  have hgaveUp : ∀ since issued, .gaveUp since issued ∈ last →
      (j.observe (evs.flatMap (written svc.telemetry ls) ++ last)).GaveUp :=
    fun since issued hmem => gaveUp_observe j (List.mem_append_right _ hmem) rfl
  generalize hseen : j.observe (evs.flatMap (written svc.telemetry ls) ++ last) = seen at *
  have hended : seen.endings = [] := by rw [← hseen, observe, h.ended]
  have hlater : Stragglers.Unremarkable seen.laterEvents := by
    rw [laterEvents, ← hseen, observe, h.quiet]
    exact fun e he => absurd he List.not_mem_nil
  rw [← hevents] at hstands hunison hconcludes
  -- What the turns of the race left decides: only a race that ended by itself has an end to tell.
  cases hled with
  | waits r' hopen =>
    refine ⟨hunison, hlater, ?_, .inl ⟨hconcludes.1, .inr ?_⟩⟩
    · rintro ls' r'' start' hs m
      cases hs
      exact hunison.paired hconcludes m
    · simp [conclude, hended]
  | bounded r' deadline hdeadline hpassed =>
    exact ⟨hunison, hlater, by simp [conclude], .inl ⟨hconcludes.1, .inl
      (hgaveUp _ _ (List.mem_append_right _ (List.mem_singleton_self _)))⟩⟩
  | breaks fault r' =>
    exact ⟨hunison, hlater, by simp [conclude],
      .inl ⟨hconcludes, .inr (by simp [conclude, hended])⟩⟩
  | ends output r' hcancelled =>
    exact ⟨hunison, hlater, by simp [conclude], .inr ⟨output, r', by simp [conclude, hended],
      hkept (by simp), hstands.1.count, hconcludes⟩⟩
  | hands output r' hspawner hleft =>
    exact ⟨hunison, hlater, by simp [conclude], .inr ⟨output, r', by simp [conclude, hended],
      hkept (by simp), hstands.1.count, hconcludes⟩⟩

/-- What a poll of the task tells. -/
theorem concert_drive (es : Estimators) {task : Task In Out} (hstage : j.stage = .straggling task)
    (h : Concert svc d j) : Concert svc d (j.drive svc es) := by
  obtain ⟨last, stage, hdrive, hlast, hnot, -⟩ := exists_written_drive svc es hstage
  have hlater : (j.follow ((task.stragglers.poll svc.callbacks j.moment).1.flatMap
      (written svc.telemetry task.listeners) ++ last)).laterEvents =
        j.laterEvents ++ (task.stragglers.poll svc.callbacks j.moment).1 := by
    apply laterEvents_follow_written
    rcases hlast with rfl | ⟨-, crash, rfl⟩ <;> rfl
  rw [hdrive]
  refine ⟨h.unison, ?_, fun ls r start hs => absurd hs (hnot _), h.closed⟩
  show Stragglers.Unremarkable (j.follow _).laterEvents
  rw [hlater]
  exact h.later.append Stragglers.unremarkable_run

/-- What the race tells, whatever happens. -/
theorem concert_run (honHedge : ∀ a delay crash, svc.callbacks.onHedge a delay ≠ .error crash)
    {now : Instant} {es : Estimators} {request : In} (hraces : svc.Races now es request d ls)
    (opened : List Nat) (acts : List Act) :
    Concert svc d ((enter svc now opened es request).run svc acts) := by
  refine raced_induct hraces opened (fun es' r hr hflights => ?_) (fun es' hr h => ?_)
    (fun es' _ hstage h => concert_drive es' hstage h)
    (fun _ _ h => ⟨h.unison, h.later, h.racing, h.closed⟩)
    (fun h => ⟨h.unison, h.later, by simp, h.closed⟩) acts
  · obtain ⟨left, input, hcopy⟩ := hraces.granted
    obtain ⟨input', hflights⟩ := hflights
    refine concert_poll honHedge es' hr ?_
    rw [events_started svc d now es request opened ls r]
    exact paired_start hcopy _ hflights
  · exact concert_poll honHedge es' hr (h.racing _ _ _ hr.stage _)

end Concert

/-! ## Hedges -/

/-- Of events that a view without repetitions shows as the same there is only one. -/
theorem eq_of_nodup_filterMap {α β : Type} {f : α → Option β} {xs : List α} {x y : α} {b : β}
    (h : (xs.filterMap f).Nodup) (hx : x ∈ xs) (hy : y ∈ xs) (hfx : f x = some b)
    (hfy : f y = some b) : x = y := by
  induction xs with
  | nil => cases hx
  | cons z xs ih =>
    have hrest : (xs.filterMap f).Nodup := h.sublist ((List.sublist_cons_self z xs).filterMap f)
    have hnot : f z = some b → ∀ w ∈ xs, f w ≠ some b := by
      intro hz w hw hfw
      rw [List.filterMap_cons_some hz] at h
      exact (List.nodup_cons.mp h).1 (List.mem_filterMap.mpr ⟨w, hw, hfw⟩)
    rcases List.mem_cons.mp hx with rfl | hx'
    · rcases List.mem_cons.mp hy with rfl | hy'
      · rfl
      · exact absurd hfy (hnot hfx y hy')
    · rcases List.mem_cons.mp hy with rfl | hy'
      · exact absurd hfx (hnot hfy x hx')
      · exact ih hrest hx' hy'

section Hedges

variable {svc : Service In Out} {d : Decision} {start : Instant} {ls : List (Listener In Out)}
  {j : Journey In Out}
/-- What stragglers do is not about hedges. -/
theorem Concert.later_eq_nil (h : Concert svc d j) {α : Type} {f : Event In Out → Option α}
    (hf : ∀ e, e.announced? = none → e.issued? = none → e.closing? = none → f e = none) :
    j.laterEvents.filterMap f = [] :=
  List.filterMap_eq_nil_iff.mpr fun e he =>
    hf e (h.later e he).1 (h.later e he).2.1 (h.later e he).2.2

/-- All attempts issued were called, in the order in which they were issued. -/
theorem Concert.called (h : Concert svc d j)
    (hsilent : ∀ event ∈ j.laterEvents, event.asked? = none ∧ event.called? = none) :
    j.calls.map Call.attempt = j.events.filterMap Event.issued? := by
  have hlater : j.laterEvents.filterMap Event.called? = [] :=
    List.filterMap_eq_nil_iff.mpr fun e he => (hsilent e he).2
  rw [calls, map_attempt_calls, List.filterMap_append, hlater, h.unison.called]

/-- A hedge whose input is refused is not announced. -/
theorem Concert.not_announced_of_refused (h : Concert svc d j) (hcourse : Course svc d start ls j)
    {a : Attempt} {request left : In} (ha : .copied a request ∈ j.events)
    (hcopy : svc.callbacks.copy request a = .ok (left, none)) :
    a ∉ j.events.filterMap Event.announced? := by
  intro hmem
  have hissued : a ∈ j.events.filterMap Event.issued? := by
    rw [h.unison.issued]
    exact List.mem_cons_of_mem _ hmem
  rw [← h.unison.granted] at hissued
  obtain ⟨event, hevent, hgranted⟩ := List.mem_filterMap.mp hissued
  obtain ⟨p, hstands, -⟩ := hcourse.stands
  obtain ⟨hand, hbooks⟩ := hstands.exists_books
  have hnodup : (j.events.filterMap Event.asked?).Nodup := by
    refine List.Nodup.of_map (fun a => a.index.toNat) ?_
    rw [hbooks.indices_asked]
    exact List.nodup_range
  have hasked : event.asked? = some a := by
    cases event with
    | copied b request' =>
      simp only [Event.granted?] at hgranted
      split at hgranted
      · exact hgranted
      · cases hgranted
    | _ => cases hgranted
  obtain rfl : event = .copied a request :=
    eq_of_nodup_filterMap hnodup hevent ha hasked rfl
  simp only [Event.granted?, hcopy] at hgranted
  cases hgranted

end Hedges

/-! ## The end of a race -/

/-- How a race ended by itself, and with which attempt. -/
inductive Ends (cb : Callbacks In Out) (j : Journey In Out) : Attempt → Outcome → Prop where
  /-- The attempt that completed last succeeded, and its output is the result. -/
  | won (a : Attempt) (output : Out) (returned : j.endings = [.returned output])
      (kept : ¬ j.GaveUp) (last : (j.events.filterMap Event.consumed?).getLast? = some (a, output))
      (success : cb.verdict a output = .ok .success) : Ends cb j a .success
  /-- Every attempt issued completed and failed, the primary attempt among them. -/
  | exhausted (a : Attempt) (output : Out) (returned : j.endings = [.returned output])
      (kept : ¬ j.GaveUp) (primary : a.isPrimary = true)
      (issued : a ∈ j.events.filterMap Event.issued?)
      (failed : ∀ b ∈ j.events.filterMap Event.issued?, ∃ output',
        (b, output') ∈ j.events.filterMap Event.consumed? ∧
          cb.verdict b output' = .ok .failure) : Ends cb j a .failure

section Ends

variable {svc : Service In Out} {d : Decision} {start : Instant} {ls : List (Listener In Out)}
  {j : Journey In Out}

/-- A session that returned before any deadline did what its race did. -/
theorem Course.stands_of_returned (h : Course svc d start ls j) {output : Out}
    (hended : j.endings = [.returned output]) (hkept : ¬ j.GaveUp) :
    ∃ r, Stands svc.callbacks d start j.seen j.events (.finished output r) := by
  obtain ⟨p, hstands, hphase⟩ := h.stands
  have hsame : ∀ output' r, p = .finished output' r → j.endings = [.returned output'] →
      ∃ r, Stands svc.callbacks d start j.seen j.events (.finished output r) := by
    rintro output' r rfl hended'
    rw [hended] at hended'
    cases hended'
    exact ⟨r, hstands⟩
  cases hphase with
  | held r stage quiet ended => cases hended.symm.trans ended
  | dropped r stage quiet ended => cases hended.symm.trans ended
  | broken fault r stage quiet ended => cases hended.symm.trans ended
  | bounded r output' stage quiet ended deadline gaveUp => exact absurd gaveUp hkept
  | finished output' r stage quiet ended => exact hsame output' r rfl ended
  | straggling output' r left stage ended => exact hsame output' r rfl ended
  | settled output' r f stage ended => exact hsame output' r rfl ended
  | torn output' r f hand stage ended => exact hsame output' r rfl ended

/-- A race that was won ended with the attempt that completed last, and in no other way. -/
theorem ends_iff_of_won {output : Out} {r : Race In Out} (hended : j.endings = [.returned output])
    (hkept : ¬ j.GaveUp) (hbooks : Books svc.callbacks [] j.events r) (hclean : Clean j.events)
    (hwon : WonBy j.events output) {p : Report In Out}
    (hlast : (j.events.filterMap Event.reported?).getLast? = some p) (a : Attempt)
    (outcome : Outcome) :
    Ends svc.callbacks j a outcome ↔ a = p.attempt ∧ outcome = .success := by
  obtain ⟨failed, q, hreported, -, hsuccess, houtput⟩ := hwon
  obtain rfl : q = p := by
    rw [hreported, List.getLast?_concat] at hlast
    exact Option.some.inj hlast
  have hmem : q ∈ j.events.filterMap Event.reported? := List.mem_of_getLast? hlast
  have hconsumed : (j.events.filterMap Event.consumed?).getLast? = some (q.attempt, q.output) := by
    rw [hclean.reported, List.getLast?_map, hlast]
    rfl
  have hverdict : svc.callbacks.verdict q.attempt q.output = .ok .success :=
    hsuccess ▸ hbooks.judged q hmem
  constructor
  · intro hends
    cases hends with
    | won output' _ _ last =>
      rw [hconsumed] at last
      exact ⟨(Prod.mk.inj (Option.some.inj last)).1.symm, rfl⟩
    | exhausted _ _ _ _ _ allFailed =>
      have hissued : q.attempt ∈ j.events.filterMap Event.issued? :=
        hbooks.conserved.symm.subset (List.mem_append_left _ (List.mem_map_of_mem hmem))
      obtain ⟨output', hpair, hfailure⟩ := allFailed _ hissued
      rw [hclean.reported] at hpair
      obtain ⟨q', hq', heq⟩ := List.mem_map.mp hpair
      obtain ⟨hattempt, rfl⟩ := Prod.mk.inj heq
      obtain rfl : q' = q :=
        List.inj_on_of_nodup_map hbooks.nodup_reported hq' hmem (by rw [hattempt])
      cases hverdict.symm.trans hfailure
  · rintro ⟨rfl, rfl⟩
    exact .won _ _ (houtput ▸ hended) hkept hconsumed hverdict

/-- A race in which all attempts failed ended with the primary attempt, and in no other way. -/
theorem ends_iff_of_spent {output : Out} {r : Race In Out} (hended : j.endings = [.returned output])
    (hkept : ¬ j.GaveUp) (hbooks : Books svc.callbacks [] j.events r) (hclean : Clean j.events)
    (hspent : Spent j.events r output) (a : Attempt) (outcome : Outcome) :
    Ends svc.callbacks j a outcome ↔ a = r.decision.attempt 0 ∧ outcome = .failure := by
  have hfailed : ∀ p ∈ j.events.filterMap Event.reported?,
      svc.callbacks.verdict p.attempt p.output = .ok .failure := fun p hp =>
    hspent.failed p hp ▸ hbooks.judged p hp
  have hperm := hbooks.conserved
  rw [hspent.none_left, List.append_nil, List.append_nil] at hperm
  constructor
  · intro hends
    cases hends with
    | won output' _ _ last success =>
      rw [hclean.reported, List.getLast?_map] at last
      obtain ⟨p, hp, heq⟩ := Option.map_eq_some_iff.mp last
      obtain ⟨rfl, rfl⟩ := Prod.mk.inj heq
      cases success.symm.trans (hfailed p (List.mem_of_getLast? hp))
    | exhausted _ _ _ primary issued =>
      obtain ⟨i, -, rfl, hindex⟩ := hbooks.exists_attempt (hbooks.issued_mem_asked issued)
      rw [Attempt.isPrimary, decide_eq_true_iff] at primary
      rw [primary] at hindex
      exact ⟨hindex ▸ rfl, rfl⟩
  · rintro ⟨rfl, rfl⟩
    refine .exhausted _ output hended hkept rfl hbooks.primary fun b hb => ?_
    obtain ⟨p, hp, rfl⟩ := List.mem_map.mp (hperm.subset hb)
    refine ⟨p.output, ?_, hfailed p hp⟩
    rw [hclean.reported]
    exact List.mem_map_of_mem hp

/-- A race that ended by itself has said so once. -/
theorem Concert.closing (h : Concert svc d j) (hcourse : Course svc d start ls j) :
    (j.events.filterMap Event.closing? = [] ∧ ∀ a outcome, ¬ Ends svc.callbacks j a outcome) ∨
      ∃ a outcome, j.events.filterMap Event.closing? =
          [(a, .ofNat (j.events.filterMap Event.issued?).length, outcome)] ∧
        ∀ b outcome', Ends svc.callbacks j b outcome' ↔ b = a ∧ outcome' = outcome := by
  rcases h.closed with ⟨hopen, hnot⟩ | ⟨output, r, hended, hkept, hcount, hconcludes⟩
  · refine .inl ⟨hopen, fun a outcome hends => ?_⟩
    have hreturned : ∃ output, j.endings = [.returned output] ∧ ¬ j.GaveUp := by
      cases hends with
      | won output returned kept => exact ⟨output, returned, kept⟩
      | exhausted output returned kept => exact ⟨output, returned, kept⟩
    obtain ⟨output, hended, hkept⟩ := hreturned
    exact hnot.elim hkept fun hnone =>
      hnone output (by rw [hended]; exact List.mem_singleton_self _)
  · obtain ⟨r', hbooks, hclean, -, htimed, hwon⟩ := hcourse.stands_of_returned hended hkept
    rw [← hcount]
    rcases hconcludes with ⟨p, hlast, hsuccess, hclosing⟩ | ⟨hfailed, hclosing⟩
    · refine .inr ⟨_, _, hclosing, ends_iff_of_won hended hkept hbooks hclean ?_ hlast⟩
      refine hwon.resolve_right fun hspent => ?_
      cases hsuccess.symm.trans (hspent.failed p (List.mem_of_getLast? hlast))
    · refine .inr ⟨_, _, hclosing, ?_⟩
      rw [← htimed.decision]
      refine ends_iff_of_spent hended hkept hbooks hclean (hwon.resolve_left ?_)
      rintro ⟨failed, p, hreported, -, hsuccess, -⟩
      cases hsuccess.symm.trans (hfailed p (by rw [hreported]; simp))

end Ends

end Journey

end RequestHedging
