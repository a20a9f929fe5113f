import RequestHedging.Proofs.Race.Books

/-!
# The turns of a poll

A poll goes round in turns until it has to wait or is over, and attempts that end at once keep it
going.  `Rounds` lists its turns.  A turn that is not the last takes one attempt out of the flights,
or it comes to the next hedge and puts at most one in (`Moved`), and so there is a bound on their
number that a race can be asked for beforehand (`rounds_poll`).

None of this needs a sensible clock or alarm.  Of a race that waits for a hedge it is only asked
that this is the next one (`AwaitsNext`), which holds of all races that were started.
-/

namespace RequestHedging.Race

variable {In Out : Type}

/-! ## Where turns lead -/

def Pause.index? : Pause → Option UInt32
  | .asleep index _ | .contested index _ => some index
  | .landing => none

/-- If a race waits for a hedge, this is the one after the last. -/
def AwaitsNext (r : Race In Out) : Prop :=
  ∀ p index, r.pause = some p → p.index? = some index →
    ∃ due, r.decision.next r.lastHedge = some (index, due)

/-- What a turn that is not the last did, by what completed in it. -/
inductive Moved (r r' : Race In Out) : List (Attempt × Out) → Prop
  /-- One attempt was consumed. -/
  | landed (c : Attempt × Out) (took : r.flights.attempts.Perm (c.1 :: r'.flights.attempts))
      (last_eq : r'.lastHedge = r.lastHedge) : Moved r r' [c]
  /-- The next hedge was refused or issued. -/
  | hedged (last_eq : r'.lastHedge.toNat = r.lastHedge.toNat + 1)
      (within : r'.lastHedge.toNat ≤ r.decision.maxHedges.toNat)
      (added : r'.flights.attempts.Perm r.flights.attempts ∨
        r'.flights.attempts.Perm
          (r.flights.attempts ++ [.planned r'.lastHedge r.decision.maxHedges])) : Moved r r' []

/-- What holds of a race after the last turn of a poll. -/
structure Rests (r : Race In Out) (p : Progress In Out) : Prop where
  decision_eq : p.race.decision = r.decision
  schedule : p.race.lastHedge = r.lastHedge ∨
    p.race.lastHedge.toNat = r.lastHedge.toNat + 1 ∧
      p.race.lastHedge.toNat ≤ r.decision.maxHedges.toNat
  awaits : ∀ r', p = .pending r' → r'.AwaitsNext

def Steps (r : Race In Out) : List (Event In Out) × Turn In Out → Prop
  | (events, .again r') =>
    r'.decision = r.decision ∧ r'.pause = none ∧ Moved r r' (events.filterMap Event.consumed?)
  | (_, .settled p) => Rests r p

theorem Flights.length_attempts (f : Flights In Out) : f.attempts.length = f.size := by
  simp [attempts, all, size]

/-- A turn that is not the last leaves less to do. -/
theorem Moved.measure_lt {r r' : Race In Out} {completed : List (Attempt × Out)}
    (h : Moved r r' completed) (hdecision : r'.decision = r.decision) : r'.measure < r.measure := by
  simp only [measure, hdecision, ← Flights.length_attempts]
  cases h with
  | landed c took last_eq =>
    rw [took.length_eq, last_eq, List.length_cons]
    omega
  | hedged last_eq within added =>
    rcases added with hperm | hperm
    · rw [hperm.length_eq]
      omega
    · rw [hperm.length_eq, List.length_append, List.length_singleton]
      omega

theorem Moved.lastHedge_le {r r' : Race In Out} {completed : List (Attempt × Out)}
    (h : Moved r r' completed) (hle : r.lastHedge.toNat ≤ r.decision.maxHedges.toNat) :
    r'.lastHedge.toNat ≤ r.decision.maxHedges.toNat := by
  cases h with
  | landed c took last_eq => rwa [last_eq]
  | hedged last_eq within added => exact within

theorem Rests.lastHedge_le {r : Race In Out} {p : Progress In Out} (h : Rests r p)
    (hle : r.lastHedge.toNat ≤ r.decision.maxHedges.toNat) :
    p.race.lastHedge.toNat ≤ r.decision.maxHedges.toNat := by
  rcases h.schedule with hsame | ⟨-, hwithin⟩
  · rwa [hsame]
  · exact hwithin

/-! ## The parts of a turn -/

section Parts

variable {cb : Callbacks In Out} {m : Moment} {r : Race In Out}

theorem awaitsNext_of_none (h : r.pause = none) : r.AwaitsNext := by
  intro p index hp
  rw [h] at hp
  cases hp

theorem AwaitsNext.wake (h : r.AwaitsNext) (m : Moment) :
    { r with flights := r.flights.wake m }.AwaitsNext :=
  h

/-- A race that does not wait for a hedge after a turn. -/
theorem rests_of_same {p : Progress In Out} (hdecision : p.race.decision = r.decision)
    (hlast : p.race.lastHedge = r.lastHedge) (hpending : ∀ r', p ≠ .pending r') : Rests r p :=
  ⟨hdecision, .inl hlast, fun r' hp => absurd hp (hpending r')⟩

theorem steps_suspend {p : Pause}
    (h : ∀ index, p.index? = some index → ∃ due, r.decision.next r.lastHedge = some (index, due)) :
    Steps r (r.suspend p) := by
  refine ⟨rfl, .inl rfl, ?_⟩
  rintro r' hr'
  cases hr'
  intro p' index hp'
  cases hp'
  exact h index

theorem steps_exhaust : Steps r r.exhaust := by
  rw [exhaust]
  cases r.primaryOutput with
  | none => exact rests_of_same rfl rfl (by simp)
  | some output => exact rests_of_same rfl rfl (by simp)

theorem steps_hedge {now : Instant} {index : UInt32} {due : Duration}
    (hnext : r.decision.next r.lastHedge = some (index, due)) :
    Steps r (r.hedge cb now index) := by
  obtain ⟨hlast, hwithin⟩ := Decision.next_eq_some hnext
  unfold hedge
  dsimp only
  split
  · exact ⟨rfl, .inr ⟨hlast, hwithin⟩, by simp⟩
  · exact ⟨rfl, rfl, .hedged hlast hwithin (.inl (.refl _))⟩
  · split
    · exact ⟨rfl, .inr ⟨hlast, hwithin⟩, by simp⟩
    · exact ⟨rfl, rfl, .hedged hlast hwithin (.inr (r.flights.attempts_issue _ _ _))⟩

/-- Nothing completes before what was called. -/
theorem consumed_calls (made : List (Call In)) (events : List (Event In Out)) :
    (made.map Event.called ++ events).filterMap Event.consumed? =
      events.filterMap Event.consumed? := by
  have hcalls := (quiet_calls made : Quiet (made.map Event.called : List (Event In Out)))
  have hnone := hcalls.consumed []
  rw [List.nil_append] at hnone
  rw [List.filterMap_append, hnone]
  rfl

/-- An attempt that completed is no longer in flight. -/
theorem steps_complete {now : Instant} {c : Completed Out} {f : Flights In Out}
    (htook : r.flights.attempts.Perm (c.attempt :: f.attempts)) (made : List (Call In)) :
    Steps r (made.map Event.called ++ ({ r with flights := f }.complete cb now c).1,
      ({ r with flights := f }.complete cb now c).2) := by
  unfold complete
  split
  · exact rests_of_same rfl rfl (by simp)
  · dsimp only
    split
    · exact rests_of_same rfl rfl (by simp)
    · refine ⟨rfl, rfl, ?_⟩
      rw [consumed_calls]
      exact .landed (c.attempt, c.output) htook rfl

/-- What is done after polling the flights, if nothing landed, is done with the same attempts. -/
theorem Steps.polled {f : Flights In Out} {out : List (Event In Out) × Turn In Out}
    (hperm : r.flights.attempts.Perm f.attempts) (h : Steps { r with flights := f } out)
    (made : List (Call In)) : Steps r (made.map Event.called ++ out.1, out.2) := by
  obtain ⟨events, turn⟩ := out
  cases turn with
  | settled p => exact ⟨h.decision_eq, h.schedule, h.awaits⟩
  | again r' =>
    obtain ⟨hdecision, hpause, hmoved⟩ := h
    refine ⟨hdecision, hpause, ?_⟩
    rw [consumed_calls]
    generalize events.filterMap Event.consumed? = completed at hmoved
    cases hmoved with
    | landed c took last_eq => exact .landed c (hperm.trans took) last_eq
    | hedged last_eq within added =>
      refine .hedged last_eq within (added.imp (·.trans hperm.symm) fun hadded => ?_)
      exact hadded.trans (hperm.symm.append_right _)

theorem steps_await {idle : Race In Out → List (Event In Out) × Turn In Out}
    (h : ∀ f, Steps { r with flights := f } (idle { r with flights := f })) :
    Steps r (r.await cb m idle) := by
  obtain ⟨taken, htook, hperm⟩ := r.flights.exists_taken_poll cb.serve m
  unfold await
  dsimp only
  split
  · exact rests_of_same rfl rfl (by simp)
  · rename_i c hlanded
    rw [hlanded] at htook
    obtain rfl : taken = [c.attempt] := htook
    exact steps_complete hperm _
  · rename_i hlanded
    rw [hlanded] at htook
    obtain rfl : taken = [] := htook
    exact (h _).polled hperm _

theorem steps_waitFor {p : Pause}
    (h : ∀ index, p.index? = some index → ∃ due, r.decision.next r.lastHedge = some (index, due)) :
    Steps r (r.waitFor cb m p) := by
  cases p with
  | asleep index alarm =>
    obtain ⟨due, hnext⟩ := h index rfl
    unfold waitFor
    dsimp only
    split
    · exact steps_hedge hnext
    · exact steps_suspend h
  | contested index alarm =>
    obtain ⟨due, hnext⟩ := h index rfl
    unfold waitFor
    refine steps_await fun f => ?_
    dsimp only
    split
    · exact steps_hedge hnext
    · exact steps_suspend h
  | landing =>
    unfold waitFor
    refine steps_await fun f => ?_
    dsimp only
    split
    · exact steps_exhaust
    · exact steps_suspend h

/-- What any turn comes to, from its beginning or from where it was waiting. -/
theorem steps_resume (cb : Callbacks In Out) (m : Moment) (h : r.AwaitsNext) :
    Steps r (r.resume cb m) := by
  unfold resume
  split
  · unfold turn
    split
    · exact steps_waitFor fun index hindex => by cases hindex
    · rename_i index due hnext
      have hindex : ∀ i, some index = some i → ∃ d, r.decision.next r.lastHedge = some (i, d) := by
        rintro i hi
        cases hi
        exact ⟨due, hnext⟩
      dsimp only
      split
      · exact steps_await fun f => steps_hedge hnext
      · split
        · exact steps_waitFor hindex
        · exact steps_waitFor hindex
  · rename_i p hp
    exact steps_waitFor fun index hindex => h p index hp hindex

end Parts

/-! ## The turns of a poll -/

structure Round (In Out : Type) where
  race : Race In Out
  events : List (Event In Out)

/-- The turns from a race on, and where the last of them leads. -/
inductive Rounds (cb : Callbacks In Out) (m : Moment) :
    Race In Out → List (Round In Out) → Progress In Out → Prop
  | last {r : Race In Out} {events : List (Event In Out)} {p : Progress In Out}
      (settled : r.resume cb m = (events, .settled p)) : Rounds cb m r [⟨r, events⟩] p
  | more {r r' : Race In Out} {events : List (Event In Out)} {rounds : List (Round In Out)}
      {p : Progress In Out} (again : r.resume cb m = (events, .again r'))
      (rest : Rounds cb m r' rounds p) : Rounds cb m r (⟨r, events⟩ :: rounds) p

section Rounds

variable {cb : Callbacks In Out} {m : Moment} {r : Race In Out} {rounds : List (Round In Out)}
  {p : Progress In Out}

/-- A poll takes turns until it is at rest. -/
theorem exists_rounds_run (cb : Callbacks In Out) (m : Moment) (h : r.pause = none) : ∃ rounds,
    Rounds cb m r rounds (r.run cb m).2 ∧ (r.run cb m).1 = rounds.flatMap Round.events := by
  have hresume : ∀ r : Race In Out, r.pause = none → r.resume cb m = r.turn cb m := by
    intro r hr
    rw [resume, hr]
  induction r using run.induct cb m with
  | case1 r events p ht =>
    rw [run, ht]
    exact ⟨_, .last ((hresume r h).trans ht), by simp⟩
  | case2 r events r' ht ih =>
    have hagain := (hresume r h).trans ht
    have hsteps := steps_resume cb m (awaitsNext_of_none h)
    rw [hagain] at hsteps
    obtain ⟨rounds, hrounds, hevents⟩ := ih hsteps.2.1
    rw [run, ht]
    refine ⟨_, .more hagain hrounds, ?_⟩
    rw [List.flatMap_cons, ← hevents]

/-- A poll is the turns from the race on, once those that were waited for were woken. -/
theorem exists_rounds_poll (cb : Callbacks In Out) (m : Moment) (h : r.AwaitsNext) : ∃ rounds,
    Rounds cb m { r with flights := r.flights.wake m } rounds (r.poll cb m).2 ∧
      (r.poll cb m).1 = rounds.flatMap Round.events := by
  have hsteps := steps_resume cb m (h.wake m)
  unfold poll
  split
  · rename_i events p hsettled
    exact ⟨_, .last hsettled, by simp⟩
  · rename_i events r' hagain
    rw [hagain] at hsteps
    obtain ⟨rounds, hrounds, hevents⟩ := exists_rounds_run cb m hsteps.2.1
    refine ⟨_, .more hagain hrounds, ?_⟩
    rw [List.flatMap_cons, ← hevents]

/-- The turns are determined by the race. -/
theorem Rounds.unique {rounds' : List (Round In Out)} {p' : Progress In Out}
    (h : Rounds cb m r rounds p) (h' : Rounds cb m r rounds' p') : rounds' = rounds ∧ p' = p := by
  induction h generalizing rounds' p' with
  | last settled =>
    cases h' with
    | last settled' =>
      cases settled.symm.trans settled'
      exact ⟨rfl, rfl⟩
    | more again' rest' => cases settled.symm.trans again'
  | more again rest ih =>
    cases h' with
    | last settled' => cases again.symm.trans settled'
    | more again' rest' =>
      cases again.symm.trans again'
      obtain ⟨rfl, rfl⟩ := ih rest'
      exact ⟨rfl, rfl⟩

theorem Rounds.head_race (h : Rounds cb m r rounds p) : ∀ a ∈ rounds.head?, a.race = r := by
  cases h with
  | last => simp
  | more => simp

/-- There are no more turns than the race has to do. -/
theorem Rounds.length_le (h : Rounds cb m r rounds p) (hr : r.AwaitsNext) :
    rounds.length ≤ r.measure + 1 := by
  induction h with
  | last settled => exact Nat.le_add_left 1 _
  | more again rest ih =>
    have hsteps := steps_resume cb m hr
    rw [again] at hsteps
    have hlt := hsteps.2.2.measure_lt hsteps.1
    have hrest := ih (awaitsNext_of_none hsteps.2.1)
    rw [List.length_cons]
    omega

/-- Every turn that is not the last consumes an attempt or comes to the next hedge. -/
theorem Rounds.moved (h : Rounds cb m r rounds p) (hr : r.AwaitsNext) :
    rounds.IsChain fun a b => Moved a.race b.race (a.events.filterMap Event.consumed?) := by
  induction h with
  | last settled => exact .singleton _
  | more again rest ih =>
    have hsteps := steps_resume cb m hr
    rw [again] at hsteps
    refine List.isChain_cons.mpr ⟨fun b hb => ?_, ih (awaitsNext_of_none hsteps.2.1)⟩
    rw [rest.head_race b hb]
    exact hsteps.2.2

/-- What a poll keeps of the schedule. -/
theorem Rounds.scheduled (h : Rounds cb m r rounds p) (hr : r.AwaitsNext) :
    p.race.decision = r.decision ∧ (∀ r', p = .pending r' → r'.AwaitsNext) ∧
      (r.lastHedge.toNat ≤ r.decision.maxHedges.toNat →
        (∀ a ∈ rounds, a.race.lastHedge.toNat ≤ r.decision.maxHedges.toNat) ∧
          p.race.lastHedge.toNat ≤ r.decision.maxHedges.toNat) := by
  induction h with
  | last settled =>
    have hsteps := steps_resume cb m hr
    rw [settled] at hsteps
    refine ⟨hsteps.decision_eq, hsteps.awaits, fun hle => ⟨?_, hsteps.lastHedge_le hle⟩⟩
    exact List.forall_mem_singleton.mpr hle
  | more again rest ih =>
    have hsteps := steps_resume cb m hr
    rw [again] at hsteps
    obtain ⟨hdecision, hpause, hmoved⟩ := hsteps
    obtain ⟨hkept, hawaits, hwithin⟩ := ih (awaitsNext_of_none hpause)
    rw [hdecision] at hkept hwithin
    refine ⟨hkept, hawaits, fun hle => ?_⟩
    obtain ⟨hrounds, hp⟩ := hwithin (hmoved.lastHedge_le hle)
    exact ⟨List.forall_mem_cons.mpr ⟨hle, hrounds⟩, hp⟩

end Rounds

/-! ## The bound -/

/-- The races that a race can be between polls. -/
inductive Underway (cb : Callbacks In Out) (d : Decision) : Race In Out → Prop
  | started {now : Instant} {request : In} {events : List (Event In Out)} {r : Race In Out}
      (starts : start cb now d request = (events, .racing r)) : Underway cb d r
  | polled {m : Moment} {events : List (Event In Out)} {r r' : Race In Out}
      (underway : Underway cb d r) (polls : r.poll cb m = (events, .pending r')) :
      Underway cb d r'

/-- A race under way waits for no hedge but its next one, and keeps to its plan. -/
theorem Underway.awaitsNext {cb : Callbacks In Out} {d : Decision} {r : Race In Out}
    (h : Underway cb d r) :
    r.AwaitsNext ∧ r.decision = d ∧ r.lastHedge.toNat ≤ d.maxHedges.toNat := by
  induction h with
  | started starts =>
    unfold start at starts
    dsimp only at starts
    split at starts
    · cases starts
    · cases starts
    · cases starts
      exact ⟨awaitsNext_of_none rfl, rfl, Nat.zero_le _⟩
  | polled underway polls ih =>
    rename_i m events r r'
    obtain ⟨hawaits, rfl, hle⟩ := ih
    obtain ⟨rounds, hrounds, -⟩ := exists_rounds_poll cb m hawaits
    rw [polls] at hrounds
    obtain ⟨hdecision, hnext, hwithin⟩ := hrounds.scheduled (hawaits.wake m)
    exact ⟨hnext r' rfl, hdecision, (hwithin hle).2⟩

/-- The turns of a poll of a race, and where they lead. -/
structure Bounded (cb : Callbacks In Out) (m : Moment) (r : Race In Out)
    (rounds : List (Round In Out)) (p : Progress In Out) : Prop where
  poll_eq : r.poll cb m = (rounds.flatMap Round.events, p)
  taken : Rounds cb m { r with flights := r.flights.wake m } rounds p
  only : ∀ rounds' p', Rounds cb m { r with flights := r.flights.wake m } rounds' p' →
    rounds' = rounds ∧ p' = p
  length_le : rounds.length ≤
    2 * (r.decision.maxHedges.toNat - r.lastHedge.toNat) + r.flights.size + 1
  moved : rounds.IsChain fun a b => Moved a.race b.race (a.events.filterMap Event.consumed?)
  within : r.lastHedge.toNat ≤ r.decision.maxHedges.toNat →
    (∀ a ∈ rounds, a.race.lastHedge.toNat ≤ r.decision.maxHedges.toNat) ∧
      p.race.lastHedge.toNat ≤ r.decision.maxHedges.toNat

/-- Every poll ends after so many turns as the race has hedges left, twice, and attempts in flight,
and one more. -/
theorem rounds_poll (cb : Callbacks In Out) :
    (∀ d r, Underway cb d r →
      r.AwaitsNext ∧ r.decision = d ∧ r.lastHedge.toNat ≤ d.maxHedges.toNat) ∧
    ∀ m r, r.AwaitsNext → ∃ rounds p, Bounded cb m r rounds p := by
  refine ⟨fun d r => Underway.awaitsNext, fun m r hr => ?_⟩
  obtain ⟨rounds, hrounds, hevents⟩ := exists_rounds_poll cb m hr
  have hsize : (r.flights.wake m).size = r.flights.size := by
    rw [← Flights.length_attempts, ← Flights.length_attempts, (r.flights.attempts_wake m).length_eq]
  refine ⟨rounds, (r.poll cb m).2, Prod.ext hevents rfl, hrounds, fun _ _ => hrounds.unique, ?_,
    hrounds.moved (hr.wake m), (hrounds.scheduled (hr.wake m)).2.2⟩
  have hlength := hrounds.length_le (hr.wake m)
  simp only [measure, hsize] at hlength
  exact hlength

/-- Callbacks of a service whose calls all end at once and are to be retried. -/
def relapsing : Callbacks Nat Nat where
  copy := fun request _ => .ok (request, some request)
  recovery := fun _ _ => .ok .retry
  handleUnavailable := false
  onHedge := fun _ _ => .ok ()
  serve := fun request _ => ⟨.lasting .zero, .ok request⟩

def threeAtOnce : Decision := ⟨3, some .zero⟩

/-- A race that is over in its first poll, after as many turns as it may take. -/
def burst : Race Nat Nat where
  request := 7
  decision := threeAtOnce
  started := 0
  lastHedge := 0
  issued := 1
  primaryOutput := none
  flights := Flights.none.issue (.planned 0 threeAtOnce.maxHedges) 0 7
  pause := none

/-- All four attempts of the burst complete in one poll. -/
theorem rounds_poll_burst :
    Underway relapsing threeAtOnce burst ∧ burst.lastHedge.toNat ≤ threeAtOnce.maxHedges.toNat ∧
      burst.AwaitsNext ∧ (∃ rounds p, Bounded relapsing ⟨0, []⟩ burst rounds p) ∧
      ((burst.poll relapsing ⟨0, []⟩).1.filterMap Event.consumed?).length = 4 := by
  have hstarts : start relapsing 0 threeAtOnce 7 = (_, .racing burst) := rfl
  have hunderway : Underway relapsing threeAtOnce burst := .started hstarts
  have hscheduled := (rounds_poll relapsing).1 threeAtOnce burst hunderway
  exact ⟨hunderway, hscheduled.2.2, hscheduled.1,
    (rounds_poll relapsing).2 ⟨0, []⟩ burst hscheduled.1, by decide +kernel⟩

end RequestHedging.Race
