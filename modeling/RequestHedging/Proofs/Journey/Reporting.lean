import Mathlib.Data.List.Nodup
import Mathlib.Data.List.ProdSigma
import RequestHedging.Proofs.Journey.Course

/-!
# What listeners hear

Each attempt that completes is reported once, to all listeners and in their order, before
anything else happens in the race.  Reports go on in the task of stragglers where there is
one, and stop where there is none (`reporting_run`).
-/

namespace RequestHedging

open Race Trace

variable {In Out : Type}

namespace Journey

def reports (j : Journey In Out) : List (Report In Out) :=
  (j.events ++ j.laterEvents).filterMap Event.reported?

def hearings (j : Journey In Out) : List (Nat × Nat) :=
  j.heard.map fun h => (h.2.attempt.index.toNat, h.1)

theorem heard_eq_map (j : Journey In Out) :
    j.heard = ((j.trace ++ j.aftermath).map Prod.snd).filterMap Entry.heard? := by
  rw [heard, List.filterMap_map]
  rfl

/-- Each report was heard by all listeners, in their order. -/
theorem Record.heard_eq {d : Decision} {start : Instant} {ls : List (Listener In Out)}
    {j : Journey In Out} (h : Record d start ls j) :
    j.heard =
      j.reports.flatMap fun p => (List.range ls.length).map fun position => (position, p) := by
  rw [heard_eq_map, ← filterMap_heard_news, h.news_all, filterMap_heard_flatMap, reports]

theorem Record.hearings_eq {d : Decision} {start : Instant} {ls : List (Listener In Out)}
    {j : Journey In Out} (h : Record d start ls j) :
    j.hearings = (j.reports.map fun p => p.attempt.index.toNat).product (List.range ls.length) := by
  rw [hearings, h.heard_eq, List.map_flatMap, List.product, List.flatMap_map]
  simp only [List.map_map]
  rfl

/-! ## Silence -/

section Steps

variable {svc : Service In Out} {d : Decision} {start : Instant} {ls : List (Listener In Out)}
  {j : Journey In Out}

/-- Once nobody has the request, nothing more is heard of it. -/
theorem heard_run_of_over (h : j.stage = .over) (acts : List Act) :
    (j.run svc acts).heard = j.heard := by
  obtain ⟨-, htrace, haftermath, -⟩ := run_of_over svc h acts
  rw [heard, htrace, haftermath, ← heard]

/-! ## The session -/

/-- What the session showed is free of completions not reported, unless it crashed. -/
theorem Course.clean (h : Course svc d start ls j) (hcrash : ∀ fault, .crashed fault ∉ j.endings) :
    Clean j.events := by
  obtain ⟨p, hstands, hphase⟩ := h.stands
  cases p with
  | pending r => exact hstands.1.clean
  | finished output r => exact hstands.2.1
  | crashed fault r =>
    cases hphase with
    | broken _ _ stage quiet ended => exact absurd (by simp [ended]) (hcrash fault)

/-- Before the session ended, only the attempt that won succeeded, last and with the result. -/
theorem Course.winner (h : Course svc d start ls j) :
    (∀ p ∈ j.events.filterMap Event.reported?, p.outcome = .failure) ∨
      ∃ output, j.endings = [.returned output] ∧ WonBy j.events output := by
  obtain ⟨p, hstands, hphase⟩ := h.stands
  cases p with
  | pending r => exact .inl hstands.1.losing.failed
  | crashed fault r => exact .inl hstands.2.2.1
  | finished output r =>
    obtain ⟨-, -, -, -, hend⟩ := hstands
    have hended : j.endings = [.returned output] := by
      cases hphase with
      | _ => assumption
    rcases hend with hwon | hspent
    · exact .inr ⟨output, hended, hwon⟩
    · exact .inl hspent.failed

/-- While the caller waits, what was issued was reported or is in flight. -/
theorem Course.conserved_held (h : Course svc d start ls j) {session : Session In Out}
    (hsession : j.stage = .held session) :
    ∃ r, session.stage = .racing ls r ∧
      (j.events.filterMap Event.issued?).Perm
        (j.reports.map Report.attempt ++ r.flights.attempts) := by
  obtain ⟨r, rfl, hquiet, -, hrunning, -⟩ := h.held hsession
  have hlater : j.laterEvents = [] := by rw [laterEvents, hquiet]; rfl
  refine ⟨r, rfl, ?_⟩
  rw [reports, hlater, List.append_nil]
  exact hrunning.books.conserved

/-! ## The task -/

/-- A poll of the task leaves it only if an attempt waits for what has not come. -/
theorem Course.idle (h : Course svc d start ls j) (es : Estimators) {task : Task In Out}
    (htask : (j.drive svc es).stage = .straggling task) :
    task.stragglers.flights.isEmpty = false ∧ task.stragglers.flights.Idle j.moment := by
  by_cases hstraggling : ∃ task, j.stage = .straggling task
  · obtain ⟨⟨_, left⟩, hleft⟩ := hstraggling
    obtain ⟨output, r, rfl, -, -, -, hbooks, hclean⟩ := h.straggling hleft
    have hstands := Stragglers.stands_poll (m := j.moment) (s := left) hbooks hclean
    obtain ⟨last, -, hled⟩ := Task.exists_led_poll svc j.moment _ left es
    unfold drive at htask
    rw [hleft] at htask
    dsimp only at htask
    generalize Task.poll svc j.moment es _ = polled at hled htask
    generalize left.poll svc.callbacks j.moment = raced at hled hstands
    obtain ⟨entries, es', progress⟩ := polled
    obtain ⟨evs, p⟩ := raced
    dsimp only at hled hstands htask
    cases hled with
    | waits left' =>
      cases htask
      exact hstands.2.2
    | ends => cases htask
    | breaks crash left' => cases htask
  · rw [drive_of_not_straggling es fun task htask => hstraggling ⟨task, htask⟩] at htask
    exact absurd ⟨task, htask⟩ hstraggling

theorem Course.conserved_straggling (h : Course svc d start ls j) {task : Task In Out}
    (htask : j.stage = .straggling task) :
    task.listeners = ls ∧ ((j.events ++ j.laterEvents).filterMap Event.issued?).Perm
      (j.reports.map Report.attempt ++ task.stragglers.flights.attempts) := by
  obtain ⟨output, r, hlisteners, -, -, -, hbooks, -⟩ := h.straggling htask
  exact ⟨hlisteners, hbooks.conserved⟩

/-- Unless the task crashed, no completion in it is left unreported. -/
theorem Course.later_clean (h : Course svc d start ls j)
    (hcrash : ∀ fault, .crashed fault ∉ j.endings) (htorn : ¬ j.Torn) :
    Clean (j.events ++ j.laterEvents) := by
  have hclean := h.clean hcrash
  obtain ⟨p, hstands, hphase⟩ := h.stands
  have hquiet : j.aftermath = [] → Clean (j.events ++ j.laterEvents) := by
    intro hquiet
    rw [laterEvents, hquiet, List.filterMap_nil, List.append_nil]
    exact hclean
  cases hphase with
  | straggling output r left stage ended spawner books clean => exact clean
  | settled output r f stage ended spawner empty books clean => exact clean
  | torn output r f hand stage ended spawner torn => exact absurd torn htorn
  | _ => exact hquiet ‹j.aftermath = []›

/-- After a win, once the task is over, every attempt issued was reported. -/
theorem Course.all_reported (h : Course svc d start ls j) (hspawner : svc.spawner.isSome = true)
    (hstage : j.stage = .over) {output : Out} (hended : j.endings = [.returned output])
    (hgaveUp : ¬ j.GaveUp) (htorn : ¬ j.Torn) :
    ((j.events ++ j.laterEvents).filterMap Event.issued?).Perm (j.reports.map Report.attempt) := by
  obtain ⟨p, hstands, hphase⟩ := h.stands
  have hall : ∀ {r : Race In Out} {f : Flights In Out}, f.isEmpty = true →
      Books svc.callbacks [] (j.events ++ j.laterEvents) { r with flights := f } →
      ((j.events ++ j.laterEvents).filterMap Event.issued?).Perm
        (j.reports.map Report.attempt) := by
    intro r f hempty hbooks
    have hconserved := hbooks.conserved
    rw [(Flights.isEmpty_iff_attempts f).mp hempty, List.append_nil, List.append_nil] at hconserved
    exact hconserved
  cases hphase with
  | held r stage => cases hstage.symm.trans stage
  | straggling output r left stage => cases hstage.symm.trans stage
  | dropped r stage quiet ended => cases hended.symm.trans ended
  | broken fault r stage quiet ended => cases hended.symm.trans ended
  | bounded r output stage quiet ended deadline gaveUp => exact absurd gaveUp hgaveUp
  | torn output r f hand stage ended spawner torn => exact absurd torn htorn
  | settled output r f stage ended spawner empty books => exact hall empty books
  | finished output r stage quiet ended cancelled =>
    have hleft : r.flights.isEmpty = true := by
      apply cancelled.resolve_left
      intro hnone
      rw [hnone] at hspawner
      cases hspawner
    have hlater : j.laterEvents = [] := by rw [laterEvents, quiet]; rfl
    refine hall (r := r) hleft ?_
    rw [hlater, List.append_nil]
    exact hstands.1

/-- Without a spawner nobody has the request after its session ended. -/
theorem Course.over_of_ended (h : Course svc d start ls j) (hspawner : svc.spawner = none)
    (hended : j.endings ≠ []) : j.stage = .over := by
  obtain ⟨p, hstands, hphase⟩ := h.stands
  cases hphase with
  | held r stage quiet ended => exact absurd ended hended
  | straggling output r left stage ended spawner =>
    rw [hspawner] at spawner
    cases spawner
  | _ => assumption

end Steps

structure Reporting (svc : Service In Out) (ls : List (Listener In Out)) (j : Journey In Out) :
    Prop where
  /-- No listener hears of an attempt twice. -/
  once : j.hearings.Nodup
  /-- The news of the session are its events, each report followed by all listeners in order. -/
  inOrder : Trace.news (j.trace.map Prod.snd) = j.events.flatMap (told ls)
  /-- So are the news of the task. -/
  laterInOrder : Trace.news (j.aftermath.map Prod.snd) = j.laterEvents.flatMap (told ls)
  /-- A completion is followed by its report, and nothing else is. -/
  atOnce : (j.events ++ j.laterEvents).IsChain Event.Precedes
  /-- No completion in the session is left unreported, unless it crashed, -/
  reported : (∀ fault, .crashed fault ∉ j.endings) → Clean j.events
  /-- nor in the task. -/
  laterReported : (∀ fault, .crashed fault ∉ j.endings) → ¬ j.Torn →
    Clean (j.events ++ j.laterEvents)
  /-- Before the session ended, only the attempt that won succeeded, last and with the result. -/
  winner : (∀ p ∈ j.events.filterMap Event.reported?, p.outcome = .failure) ∨
    ∃ output, j.endings = [.returned output] ∧ WonBy j.events output
  /-- While the race is pending, what was issued is reported or in flight, -/
  inFlight : ∀ session, j.stage = .held session → ∃ r, session.stage = .racing ls r ∧
    (j.events.filterMap Event.issued?).Perm (j.reports.map Report.attempt ++ r.flights.attempts)
  /-- and so it is while the task has it. -/
  laterInFlight : ∀ task, j.stage = .straggling task → task.listeners = ls ∧
    ((j.events ++ j.laterEvents).filterMap Event.issued?).Perm
      (j.reports.map Report.attempt ++ task.stragglers.flights.attempts)
  /-- A poll of the task leaves it only if an attempt waits for what has not come. -/
  driven : ∀ es task, (j.drive svc es).stage = .straggling task →
    task.stragglers.flights.isEmpty = false ∧ task.stragglers.flights.Idle j.moment
  /-- With a spawner, all listeners hear of all attempts issued, in the end and once. -/
  complete : svc.spawner.isSome = true → j.stage = .over →
    ∀ output, j.endings = [.returned output] → ¬ j.GaveUp → ¬ j.Torn →
    ∀ a ∈ j.events.filterMap Event.issued?, ∀ position < ls.length,
      j.hearings.count (a.index.toNat, position) = 1
  /-- Without a spawner nothing is heard after the end, nor after the deadline, -/
  silent : svc.spawner = none ∧ j.endings ≠ [] ∨ j.GaveUp →
    ∀ acts, (j.run svc acts).heard = j.heard
  /-- nor after the session was dropped. -/
  dropped : ∀ session, j.stage = .held session → ∀ acts, (j.drop.run svc acts).heard = j.heard

/-- How completions are reported, whatever happens and whenever race and task are polled. -/
theorem reporting_run {svc : Service In Out} {now : Instant} {es : Estimators} {request : In}
    {d : Decision} {ls : List (Listener In Out)} (h : svc.Races now es request d ls)
    (opened : List Nat) (acts : List Act) :
    Reporting svc ls ((enter svc now opened es request).run svc acts) := by
  have hcourse := course_run (course_enter h opened) acts
  generalize (enter svc now opened es request).run svc acts = j at hcourse
  obtain ⟨hand, r, hbooks, -⟩ := hcourse.exists_books
  have honce : j.hearings.Nodup := by
    rw [hcourse.record.hearings_eq]
    exact hbooks.nodup_reported.product List.nodup_range
  refine {
    once := honce
    inOrder := hcourse.record.news
    laterInOrder := hcourse.record.laterNews
    atOnce := hbooks.chained
    reported := hcourse.clean
    laterReported := hcourse.later_clean
    winner := hcourse.winner
    inFlight := fun _ hsession => hcourse.conserved_held hsession
    laterInFlight := fun _ htask => hcourse.conserved_straggling htask
    driven := fun es _ htask => hcourse.idle es htask
    complete := ?_
    silent := ?_
    dropped := ?_ }
  · intro hspawner hstage output hended hgaveUp htorn a ha position hposition
    have hall := hcourse.all_reported hspawner hstage hended hgaveUp htorn
    have hreported : a ∈ j.reports.map Report.attempt := by
      refine hall.subset ?_
      rw [List.filterMap_append]
      exact List.mem_append_left _ ha
    obtain ⟨p, hp, rfl⟩ := List.mem_map.mp hreported
    refine List.count_eq_one_of_mem honce ?_
    rw [hcourse.record.hearings_eq]
    exact List.mem_product.mpr
      ⟨List.mem_map.mpr ⟨p, hp, rfl⟩, List.mem_range.mpr hposition⟩
  · rintro (⟨hspawner, hended⟩ | hgaveUp) acts
    · exact heard_run_of_over (hcourse.over_of_ended hspawner hended) acts
    · exact heard_run_of_over (hcourse.gaveUp hgaveUp) acts
  · intro session hsession acts
    have hdrop : j.drop = { j with stage := .over } := by rw [drop, hsession]
    have hover : j.drop.stage = .over := by rw [hdrop]
    have hheard : j.drop.heard = j.heard := by
      rw [hdrop]
      rfl
    exact (heard_run_of_over hover acts).trans hheard

/-- The slow service reports its hedge, and its primary attempt after it. -/
theorem reporting_run_slowFirst :
    slowFirst.Races 0 [] 7 .standard [.callback "log" fun _ => .ok ()] ∧
      Reporting slowFirst [.callback "log" fun _ => .ok ()]
        ((enter slowFirst 0 [] [] 7).run slowFirst slowFirstActs) ∧
      ((enter slowFirst 0 [] [] 7).run slowFirst slowFirstActs).hearings = [(1, 0), (0, 0)] :=
  ⟨races_slowFirst, reporting_run races_slowFirst [] slowFirstActs, by decide +kernel⟩

end Journey

end RequestHedging
