import RequestHedging.Proofs.Journey.Deadline
import RequestHedging.Proofs.Journey.FirstPoll
import RequestHedging.Proofs.Journey.Promptness

/-!
# What happens after a deadline

A deadline is looked at after the race was polled.  So it stops a request at the first
poll that does not come before it, but what that poll finds to be due is done first, even
if it came due after the deadline (`not_stopped_at_deadline`).  What is true is that this
poll is the last (`stopping_fresh`).
-/

namespace RequestHedging

open Race Trace

variable {In Out : Type}

namespace Journey

section Polls

variable {svc : Service In Out} {deadline : Deadline Out} {start : Option Instant}
  {j : Journey In Out}

/-- One step shows something of a session only if it is a poll. -/
theorem time_of_mem_trace_step (svc : Service In Out) (j : Journey In Out) (act : Act) :
    ∀ e ∈ (j.step svc act).trace, e ∈ j.trace ∨ (∃ es, act = .poll es) ∧ e.1 = j.now := by
  intro e he
  by_cases hheld : ∃ s, j.stage = .held s
  · obtain ⟨s, hs⟩ := hheld
    cases act with
    | poll es =>
      rw [step, poll_of_held hs, trace_conclude] at he
      refine (List.mem_append.mp he).imp_right fun he => ⟨⟨es, rfl⟩, ?_⟩
      obtain ⟨entry, -, rfl⟩ := List.mem_map.mp he
      rfl
    | drop =>
      simp only [step, drop, hs] at he
      exact .inl he
    | drive es => exact .inl (trace_drive svc es j ▸ he)
    | _ => exact .inl he
  · obtain ⟨-, htrace, -⟩ := step_of_not_held svc (fun s hs => hheld ⟨s, hs⟩) act
    exact .inl (htrace ▸ he)

/-- All that is observed of a session is observed in polls. -/
theorem time_of_mem_trace_run (svc : Service In Out) (j : Journey In Out) (acts : List Act) :
    ∀ e ∈ (j.run svc acts).trace, e ∈ j.trace ∨ e.1 ∈ pollTimes j.now acts := by
  induction acts generalizing j with
  | nil => exact fun e he => .inl he
  | cons act acts ih =>
    intro e he
    have hnow := now_step svc j act
    rcases ih (j.step svc act) e he with hmem | htime
    · rcases time_of_mem_trace_step svc j act e hmem with hmem | ⟨⟨es, rfl⟩, htime⟩
      · exact .inl hmem
      · exact .inr (htime ▸ List.mem_cons_self)
    · rw [hnow] at htime
      cases act with
      | poll es => exact .inr (List.mem_cons_of_mem _ htime)
      | _ => exact .inr htime

/-- A poll at or after the deadline leaves nobody waiting. -/
theorem Counting.not_held_poll (h : Counting svc start j) (hdeadline : svc.deadline = some deadline)
    (hlate : start.getD j.now + deadline.after.nanos ≤ j.now) (es : Estimators) :
    ∀ s, (j.poll svc es).stage ≠ .held s := by
  intro s hs
  by_cases hheld : ∃ s', (j.poll svc.unbounded es).stage = .held s'
  · obtain ⟨s', hs'⟩ := hheld
    have hcut := (h.cutShort hdeadline hlate hs' []).stage
    cases hs.symm.trans hcut
  · rw [poll_eq_bound, bound_of_not_held fun s' hs' => hheld ⟨s', hs'⟩] at hs
    exact hheld ⟨s, hs⟩

/-- A poll at or after the deadline is the last that shows anything. -/
theorem Counting.le_of_late (h : Counting svc start j) (hdeadline : svc.deadline = some deadline)
    (hpast : ∀ e ∈ j.trace, e.1 ≤ j.now) (acts : List Act) :
    ∀ first ∈ start.or (pollTimes j.now acts).head?, ∀ late ∈ pollTimes j.now acts,
      first + deadline.after.nanos ≤ late → ∀ e ∈ (j.run svc acts).trace, e.1 ≤ late := by
  induction acts generalizing j start with
  | nil => exact fun _ _ late hlate => absurd hlate List.not_mem_nil
  | cons act acts ih =>
    have hpast' : ∀ e ∈ (j.step svc act).trace, e.1 ≤ j.now := by
      intro e he
      rcases time_of_mem_trace_step svc j act e he with hmem | ⟨-, htime⟩
      · exact hpast e hmem
      · exact Nat.le_of_eq htime
    by_cases hact : ∃ es, act = .poll es
    · obtain ⟨es, rfl⟩ := hact
      have hnow := now_step svc j (.poll es)
      rw [first_pollTimes]
      rintro first hmem late hlate hle
      cases hmem
      by_cases hpassed : start.getD j.now + deadline.after.nanos ≤ j.now
      · obtain ⟨htrace, -⟩ := run_of_not_held svc (h.not_held_poll hdeadline hpassed es) acts
        intro e he
        have he' : e ∈ (j.poll svc es).trace := htrace ▸ he
        exact Nat.le_trans (hpast' e he') (le_of_mem_pollTimes hlate)
      · have hpoll := h.poll_eq hdeadline (Nat.lt_of_not_le hpassed) es
        have hlater : late ∈ pollTimes j.now acts := by
          rcases List.mem_cons.mp hlate with rfl | hlater
          · exact absurd hle hpassed
          · exact hlater
        rw [Journey.step, hpoll] at hpast' hnow
        have hrest := ih (h.poll es) (hnow ▸ hpast') _ rfl late (hnow ▸ hlater) hle
        rw [← hpoll] at hrest
        exact hrest
    · have hnot : ∀ es, act ≠ .poll es := fun es hes => hact ⟨es, hes⟩
      have hle : j.now ≤ (j.step svc act).now := by
        rw [now_step]
        cases act with
        | advance d => exact Nat.le_add_right _ _
        | _ => exact Nat.le_refl _
      rw [pollTimes_step svc j hnot]
      exact ih (step_unbounded svc j hnot ▸ h.step hnot) fun e he => Nat.le_trans (hpast' e he) hle

end Polls

/-- What a deadline stops, among what is observed of a request that is polled at some times. -/
structure Stopping (deadline : Deadline Out) (polls : List Instant) (j : Journey In Out) :
    Prop where
  /-- All that is observed of the session is observed in polls, -/
  polled : ∀ e ∈ j.trace, e.1 ∈ polls
  /-- none of them after the first at or after the deadline. -/
  stopped : ∀ first ∈ polls.head?, ∀ late ∈ polls, first + deadline.after.nanos ≤ late →
    ∀ e ∈ j.trace, e.1 ≤ late
  /-- Stragglers ask for no input, and call nothing. -/
  stragglers : ∀ event ∈ j.laterEvents, event.asked? = none ∧ event.called? = none

section Stopping

variable {svc : Service In Out} {deadline : Deadline Out} {request : In}

/-- What is entered behind books whose attempts were all called asks for nothing and calls
nothing. -/
theorem silent_of_books {cb : Callbacks In Out} {hand : List Attempt}
    {tr later : List (Event In Out)} {r : Race In Out} {f : Flights In Out} (h : Books cb [] tr r)
    (hlater : Books cb hand (tr ++ later) { r with flights := f })
    (hcalled : (tr.filterMap Event.issued?).Perm (tr.filterMap Event.called?)) :
    ∀ event ∈ later, event.asked? = none ∧ event.called? = none := by
  have hasked : later.filterMap Event.asked? = [] := by
    have hall := hlater.asked.trans h.asked.symm
    rw [List.filterMap_append] at hall
    exact List.append_right_eq_self.mp hall
  have hnone : later.filterMap Event.called? = [] := by
    have hall := hlater.called.length_eq
    rw [h.length_issued_eq hlater rfl, List.filterMap_append, List.length_append,
      List.length_append, hcalled.length_eq] at hall
    apply List.eq_nil_of_length_eq_zero
    omega
  intro event hevent
  exact ⟨List.filterMap_eq_nil_iff.mp hasked event hevent,
    List.filterMap_eq_nil_iff.mp hnone event hevent⟩

/-- All that stragglers wait for was called in the race. -/
theorem silent_stragglers {d : Decision} {start : Instant} {ls : List (Listener In Out)}
    {j : Journey In Out} (hcourse : Course svc d start ls j) (h : Vigil svc j) :
    ∀ event ∈ j.laterEvents, event.asked? = none ∧ event.called? = none := by
  have hquiet : j.aftermath = [] →
      ∀ event ∈ j.laterEvents, event.asked? = none ∧ event.called? = none := by
    intro hquiet event hevent
    rw [laterEvents, hquiet] at hevent
    exact absurd hevent List.not_mem_nil
  have hcalled : ∀ output, j.endings = [.returned output] →
      (j.events.filterMap Event.issued?).Perm (j.events.filterMap Event.called?) :=
    fun output hended => h.called (by simp [hended])
  obtain ⟨p, hstands, hphase⟩ := hcourse.stands
  cases hphase with
  | straggling output r left stage ended spawner books =>
    exact silent_of_books hstands.1 books (hcalled output ended)
  | settled output r f stage ended spawner empty books =>
    exact silent_of_books hstands.1 books (hcalled output ended)
  | torn output r f hand stage ended spawner torn books =>
    exact silent_of_books hstands.1 books (hcalled output ended)
  | _ => exact hquiet ‹j.aftermath = []›

/-- A request that was polled at or after its deadline is not heard of again. -/
theorem stopping_fresh (hdeadline : svc.deadline = some deadline)
    (henabled : svc.enabled request = true) (now : Instant) (opened : List Nat)
    (acts : List Act) :
    Stopping deadline (pollTimes now acts) ((fresh now opened request).run svc acts) := by
  have hnothing : ∀ e ∈ (fresh now opened request : Journey In Out).trace, e.1 ≤ now :=
    fun e he => absurd he List.not_mem_nil
  constructor
  · intro e he
    exact (time_of_mem_trace_run svc _ acts e he).resolve_left List.not_mem_nil
  · exact (counting_fresh henabled now opened).le_of_late hdeadline hnothing acts
  · rcases run_of_unpolled svc (unpolled_fresh now opened request) acts with
      hunpolled | ⟨now', opened', es, after, hrun⟩
    · intro event hevent
      rw [laterEvents, hunpolled.quiet] at hevent
      exact absurd hevent List.not_mem_nil
    · rw [hrun]
      rcases races_or_plain_enter henabled now' opened' es rfl with hraces | hplain
      · exact silent_stragglers (course_run (course_enter hraces opened') after)
          (vigil_run (course_enter hraces opened') (vigil_enter hraces opened') after)
      · intro event hevent
        rw [laterEvents, (plain_run hplain after).quiet] at hevent
        exact absurd hevent List.not_mem_nil

def askedAt (j : Journey In Out) : List Instant :=
  j.timeline.filterMap fun e => e.2.asked?.map fun _ => e.1

/-- A poll long after the deadline of one second, and after the hedge was due at two. -/
def lateActs : List Act := [.poll [], .advance (.ofSeconds 3), .poll []]

/-- A late poll of the slow service issues its hedge, and then gives up. -/
theorem stopping_fresh_impatient :
    impatient.deadline = some oneSecond ∧ impatient.enabled 7 = true ∧
      Stopping oneSecond (pollTimes 0 lateActs) ((fresh 0 [] 7).run impatient lateActs) ∧
      pollTimes 0 lateActs = [0, 3000000000] ∧
      ((fresh 0 [] 7).run impatient lateActs).endings = [.returned 102] :=
  ⟨rfl, rfl, stopping_fresh rfl rfl 0 [] lateActs, by decide +kernel, by decide +kernel⟩

/-- A hedge may be asked for after the deadline. -/
theorem not_stopped_at_deadline :
    ¬ ∀ (svc : Service Nat Nat) (deadline : Deadline Nat) (request : Nat) (acts : List Act),
      svc.deadline = some deadline → svc.enabled request = true →
      ∀ first ∈ (pollTimes 0 acts).head?,
        ∀ t ∈ ((fresh 0 [] request).run svc acts).askedAt, t ≤ first + deadline.after.nanos := by
  intro h
  have hlate : 3000000000 ∈ ((fresh 0 [] 7).run impatient lateActs).askedAt := by decide +kernel
  exact absurd (h impatient oneSecond 7 lateActs rfl rfl 0 rfl _ hlate) (by decide +kernel)

end Stopping

end Journey

end RequestHedging
