import RequestHedging.Proofs.Race.Turns

/-!
# When attempts finish

A race looks at all attempts in flight before it issues a hedge and before it waits, so at
either time each attempt issued was lost or has not finished yet (`Patient`, `Abiding`).
Here the times at which things happened are kept beside them, since it depends on these
when an attempt finishes.

An attempt begins when it is issued: the flights are polled again in the same poll.  So an
attempt that was issued and not called is alone in the queue (`Launched`), and none is left
when the flights were polled (`Tracked`).
-/

namespace RequestHedging

variable {In Out : Type}

/-- No callback crashes, and no execution of the inner service. -/
structure Callbacks.Total (cb : Callbacks In Out) : Prop where
  copy : ∀ request a, ∃ answer, cb.copy request a = .ok answer
  recovery : ∀ output a, ∃ recovery, cb.recovery output a = .ok recovery
  onHedge : ∀ a delay, cb.onHedge a delay = .ok ()
  serve : ∀ input call, ∃ output, (cb.serve input call).result = .ok output

namespace Race

/-- When an execution that began at a time ends, if it waits for time alone. -/
def Execution.endsAt? (begun : Instant) (e : Execution Out) : Option Instant :=
  match e.wait with
  | .lasting d => some (begun + d.nanos)
  | _ => none

abbrev Timeline (In Out : Type) : Type := List (Instant × Event In Out)

def stamp (now : Instant) (events : List (Event In Out)) : Timeline In Out :=
  events.map fun e => (now, e)

@[simp] theorem events_stamp (now : Instant) (events : List (Event In Out)) :
    (stamp now events).map Prod.snd = events := by
  rw [stamp, List.map_map]
  exact List.map_id _

@[simp] theorem stamp_append (now : Instant) (events events' : List (Event In Out)) :
    stamp now (events ++ events') = stamp now events ++ stamp now events' :=
  List.map_append

/-- An attempt was issued at a time, and the inner service called at once; this is how it
executes it. -/
def Runs (cb : Callbacks In Out) (tl : Timeline In Out) (a : Attempt) (begun : Instant)
    (e : Execution Out) : Prop :=
  (begun, .issued a) ∈ tl ∧
    ∃ call : Call In, (begun, .called call) ∈ tl ∧ call.attempt = a ∧
      cb.serve call.copy call.number = e

/-- An attempt completed, and its output is a failure. -/
def Lost (cb : Callbacks In Out) (tl : Timeline In Out) (a : Attempt) : Prop :=
  ∃ output, (a, output) ∈ (tl.map Prod.snd).filterMap Event.consumed? ∧
    cb.verdict a output = .ok .failure

/-- An attempt has not completed, and has not finished by a time. -/
def Unfinished (cb : Callbacks In Out) (tl : Timeline In Out) (t : Instant) (a : Attempt) : Prop :=
  (∀ output, (a, output) ∉ (tl.map Prod.snd).filterMap Event.consumed?) ∧
    ∃ begun e, Runs cb tl a begun e ∧ ∀ finish, e.endsAt? begun = some finish → t < finish

/-- Every attempt issued was lost or has not finished by a time. -/
def Abiding (cb : Callbacks In Out) (tl : Timeline In Out) (t : Instant) : Prop :=
  ∀ a ∈ (tl.map Prod.snd).filterMap Event.issued?, Lost cb tl a ∨ Unfinished cb tl t a

/-- Whenever the input of an attempt is asked for, every attempt issued before was lost or has not
finished. -/
def Patient (cb : Callbacks In Out) (tl : Timeline In Out) : Prop :=
  ∀ before t a request, before ++ [(t, .copied a request)] <+: tl → Abiding cb before t

/-- What completed is what the execution of its attempt results in. -/
def Landed (cb : Callbacks In Out) (tl : Timeline In Out) : Prop :=
  ∀ a output, (a, output) ∈ (tl.map Prod.snd).filterMap Event.consumed? →
    ∃ begun e, Runs cb tl a begun e ∧ e.result = .ok output

/-- An attempt was issued and has finished with a success by a time. -/
def Succeeds (cb : Callbacks In Out) (tl : Timeline In Out) (t : Instant) (a : Attempt) : Prop :=
  ∃ begun e finish output, Runs cb tl a begun e ∧ e.endsAt? begun = some finish ∧ finish ≤ t ∧
    e.result = .ok output ∧ cb.verdict a output = .ok .success

/-- What landed is what the execution of an attempt results in. -/
def Ends (cb : Callbacks In Out) (tl : Timeline In Out) (now : Instant)
    (landed : Except Crash (Completed Out)) : Prop :=
  ∃ a begun e, Runs cb tl a begun e ∧
    landed = e.result.map fun output => ⟨a, output, elapsed begun now⟩

/-! ## Flights and their executions -/

/-- The inner service executes a flight since it was issued. -/
def Begun (cb : Callbacks In Out) (tl : Timeline In Out) (flight : Flight In Out)
    (e : Execution Out) : Prop :=
  (∃ call, flight.stage = .begun call e.result) ∧ Runs cb tl flight.attempt flight.issuedAt e

def Waits (cb : Callbacks In Out) (tl : Timeline In Out) (w : Alarm × Flight In Out) : Prop :=
  ∃ e, Begun cb tl w.2 e ∧ ∀ finish, e.endsAt? w.2.issuedAt = some finish → w.1 = .time finish

/-- All flights have begun. -/
structure Tracked (cb : Callbacks In Out) (tl : Timeline In Out) (f : Flights In Out) : Prop where
  ready : ∀ flight ∈ f.ready, ∃ e, Begun cb tl flight e
  waiting : ∀ w ∈ f.waiting, Waits cb tl w

/-- One flight has just been issued, and all others wait. -/
structure Launched (cb : Callbacks In Out) (now : Instant) (tl : Timeline In Out)
    (f : Flights In Out) : Prop where
  ready : ∃ a copy, f.ready = [⟨a, now, .fresh copy⟩] ∧ (now, .issued a) ∈ tl
  waiting : ∀ w ∈ f.waiting, Waits cb tl w

section Growth

variable {cb : Callbacks In Out} {tl : Timeline In Out} {a : Attempt} {begun t : Instant}
  {e : Execution Out}

theorem Runs.append (h : Runs cb tl a begun e) (later : Timeline In Out) :
    Runs cb (tl ++ later) a begun e := by
  obtain ⟨hissued, call, hcall, ha, he⟩ := h
  exact ⟨List.mem_append_left _ hissued, call, List.mem_append_left _ hcall, ha, he⟩

theorem Waits.append {w : Alarm × Flight In Out} (h : Waits cb tl w) (later : Timeline In Out) :
    Waits cb (tl ++ later) w := by
  obtain ⟨e, ⟨hstage, hruns⟩, halarm⟩ := h
  exact ⟨e, ⟨hstage, hruns.append later⟩, halarm⟩

theorem Tracked.append {f : Flights In Out} (h : Tracked cb tl f) (later : Timeline In Out) :
    Tracked cb (tl ++ later) f := by
  constructor
  · intro flight hflight
    obtain ⟨e, hstage, hruns⟩ := h.ready flight hflight
    exact ⟨e, hstage, hruns.append later⟩
  · exact fun w hw => (h.waiting w hw).append later

theorem patient_nil : Patient cb [] := by
  intro before t a request h
  exact absurd (List.prefix_nil.mp h) (by simp)

/-- Asking for one more input is all that has to be looked at. -/
theorem Patient.snoc (h : Patient cb tl) {x : Instant × Event In Out}
    (hx : ∀ a request, x.2 = .copied a request → Abiding cb tl x.1) : Patient cb (tl ++ [x]) := by
  intro before t a request hprefix
  rcases List.prefix_concat_iff.mp hprefix with heq | hprefix
  · obtain ⟨rfl, hlast⟩ := List.append_inj' heq rfl
    obtain rfl := (List.singleton_inj.mp hlast)
    exact hx a request rfl
  · exact h before t a request hprefix

/-- Events that ask for no input leave a race patient. -/
theorem Patient.append (h : Patient cb tl) {later : Timeline In Out}
    (hlater : ∀ x ∈ later, x.2.asked? = none) : Patient cb (tl ++ later) := by
  induction later generalizing tl with
  | nil => rwa [List.append_nil]
  | cons x later ih =>
    have hx : ∀ a request, x.2 = .copied a request → Abiding cb tl x.1 := by
      intro a request hcopied
      have hnone := hlater x List.mem_cons_self
      rw [hcopied] at hnone
      cases hnone
    have := ih (h.snoc hx) fun y hy => hlater y (List.mem_cons_of_mem _ hy)
    rwa [List.append_assoc] at this

/-- As long as nothing completes, there is nothing to add. -/
theorem Landed.append (h : Landed cb tl) {later : Timeline In Out}
    (hlater : ∀ x ∈ later, x.2.consumed? = none) : Landed cb (tl ++ later) := by
  intro a output hmem
  rw [List.map_append, List.filterMap_append] at hmem
  have hnone : (later.map Prod.snd).filterMap Event.consumed? = [] := by
    apply List.filterMap_eq_nil_iff.mpr
    intro e he
    obtain ⟨x, hx, rfl⟩ := List.mem_map.mp he
    exact hlater x hx
  rw [hnone, List.append_nil] at hmem
  obtain ⟨begun, e, hruns, hresult⟩ := h a output hmem
  exact ⟨begun, e, hruns.append later, hresult⟩

end Growth

/-- If nothing in flight is left to call, all attempts issued were called. -/
theorem Books.called_of_uncalled {cb : Callbacks In Out} {hand : List Attempt}
    {tr : List (Event In Out)} {r : Race In Out} (h : Books cb hand tr r)
    (hnone : r.flights.uncalled = []) :
    (tr.filterMap Event.issued?).Perm (tr.filterMap Event.called?) := by
  have hcalled := h.called
  rwa [hnone, List.append_nil] at hcalled

def stampedCall? : Instant × Event In Out → Option (Instant × Call In)
  | (t, .called call) => some (t, call)
  | _ => none

/-- An attempt runs once. -/
theorem Books.runs_unique {cb : Callbacks In Out} {hand : List Attempt} {tl : Timeline In Out}
    {r : Race In Out} (h : Books cb hand (tl.map Prod.snd) r) {a : Attempt}
    {begun begun' : Instant} {e e' : Execution Out} (hruns : Runs cb tl a begun e)
    (hruns' : Runs cb tl a begun' e') : begun = begun' ∧ e = e' := by
  obtain ⟨-, call, hcall, rfl, rfl⟩ := hruns
  obtain ⟨-, call', hcall', hattempt, rfl⟩ := hruns'
  have hview : (tl.filterMap stampedCall?).map (fun c => c.2.attempt) =
      (tl.map Prod.snd).filterMap Event.called? := by
    rw [List.map_filterMap, List.filterMap_map]
    congr 1
    funext ⟨t, event⟩
    cases event <;> rfl
  have hnodup := h.called.nodup_iff.mp h.nodup_issued.of_map
  have hinj := List.inj_on_of_nodup_map (hview ▸ (List.nodup_append.mp hnodup).1)
  have hmem : (begun, call) ∈ tl.filterMap stampedCall? := List.mem_filterMap.mpr ⟨_, hcall, rfl⟩
  have hmem' : (begun', call') ∈ tl.filterMap stampedCall? := List.mem_filterMap.mpr ⟨_, hcall', rfl⟩
  obtain ⟨rfl, rfl⟩ := Prod.mk.inj (hinj hmem hmem' hattempt.symm)
  exact ⟨rfl, rfl⟩

theorem Succeeds.append {cb : Callbacks In Out} {tl : Timeline In Out} {t : Instant} {a : Attempt}
    (h : Succeeds cb tl t a) (later : Timeline In Out) : Succeeds cb (tl ++ later) t a := by
  obtain ⟨begun, e, finish, output, hruns, hrest⟩ := h
  exact ⟨begun, e, finish, output, hruns.append later, hrest⟩

theorem Succeeds.mem_issued {cb : Callbacks In Out} {tl : Timeline In Out} {t : Instant}
    {a : Attempt} (h : Succeeds cb tl t a) : a ∈ (tl.map Prod.snd).filterMap Event.issued? := by
  obtain ⟨begun, -, -, -, ⟨hissued, -⟩, -⟩ := h
  exact List.mem_filterMap.mpr ⟨.issued a, List.mem_map_of_mem hissued, rfl⟩

/-- An attempt that has finished with a success was never lost, and never unfinished since. -/
theorem Succeeds.not_abiding {cb : Callbacks In Out} {hand : List Attempt}
    {tl later : Timeline In Out} {r : Race In Out} {t : Instant} {a : Attempt}
    (h : Succeeds cb (tl ++ later) t a) (hbooks : Books cb hand ((tl ++ later).map Prod.snd) r)
    (hlanded : Landed cb (tl ++ later)) : ¬ (Lost cb tl a ∨ Unfinished cb tl t a) := by
  obtain ⟨begun, e, finish, output, hruns, hfinish, hle, hresult, hverdict⟩ := h
  rintro (⟨output', hconsumed, hfailure⟩ | ⟨-, begun', e', hruns', hlater⟩)
  · have hmem : (a, output') ∈ ((tl ++ later).map Prod.snd).filterMap Event.consumed? := by
      rw [List.map_append, List.filterMap_append]
      exact List.mem_append_left _ hconsumed
    obtain ⟨begun', e', hruns', hresult'⟩ := hlanded a output' hmem
    obtain ⟨rfl, rfl⟩ := hbooks.runs_unique hruns hruns'
    cases hresult.symm.trans hresult'
    cases hverdict.symm.trans hfailure
  · obtain ⟨rfl, rfl⟩ := hbooks.runs_unique hruns (hruns'.append later)
    exact Nat.not_lt_of_le hle (hlater finish hfinish)

/-! ## Polling the flights -/

section Flights

variable {cb : Callbacks In Out} {m : Moment} {tl : Timeline In Out} {f : Flights In Out}

/-- Flights that are woken have begun as before. -/
theorem Tracked.wake (h : Tracked cb tl f) (m : Moment) : Tracked cb tl (f.wake m) := by
  constructor
  · intro flight hflight
    rcases List.mem_append.mp hflight with hready | hrung
    · exact h.ready flight hready
    · obtain ⟨w, hw, rfl⟩ := List.mem_map.mp hrung
      have hmem := (List.mem_filter.mp ((List.mergeSort_perm _ _).mem_iff.mp hw)).1
      obtain ⟨e, hbegun, -⟩ := h.waiting w hmem
      exact ⟨e, hbegun⟩
  · exact fun w hw => h.waiting w (List.mem_filter.mp hw).1

/-- A race starts with its primary attempt just launched. -/
theorem launched_start (cb : Callbacks In Out) {a : Attempt} (copy : In)
    (h : (m.now, .issued a) ∈ tl) :
    Launched cb m.now tl ((Flights.none.issue a m.now copy).wake m) := by
  constructor
  · exact ⟨a, copy, by simp [Flights.none, Flights.issue, Flights.wake], h⟩
  · simp [Flights.none, Flights.issue, Flights.wake]

/-- A call waits for the end of its execution. -/
theorem alarm?_eq_time {call : Nat} {e : Execution Out} {alarm : Alarm}
    (h : e.wait.alarm? m call = some alarm) {finish : Instant}
    (hfinish : e.endsAt? m.now = some finish) : alarm = .time finish := by
  unfold Execution.endsAt? at hfinish
  split at hfinish
  · rename_i d hwait
    rw [hwait, Wait.alarm?] at h
    split at h
    · cases h
    · cases h
      cases hfinish
      rfl
  · cases hfinish

/-- After a poll all flights have begun, and what landed is what the execution of a flight results
in. -/
def TrackedPoll (cb : Callbacks In Out) (m : Moment) (tl : Timeline In Out)
    (f : Flights In Out) : Prop :=
  Tracked cb (tl ++ stamp m.now ((f.poll cb.serve m).made.map Event.called))
      (f.poll cb.serve m).flights ∧
    ∀ landed, (f.poll cb.serve m).landed = some landed →
      Ends cb (tl ++ stamp m.now ((f.poll cb.serve m).made.map Event.called)) m.now landed

/-- Of flights that have begun, the first in the queue lands. -/
theorem Tracked.poll (h : Tracked cb tl f) : TrackedPoll cb m tl f := by
  obtain ⟨-, hleft, hlands⟩ := Flights.poll_begun cb.serve m h.ready
  have hrest : Tracked cb tl { f with ready := f.ready.tail } :=
    ⟨fun flight hflight => h.ready flight (List.mem_of_mem_tail hflight), h.waiting⟩
  unfold TrackedPoll
  rw [hleft]
  refine ⟨hrest.append _, fun landed hlanded => ?_⟩
  obtain ⟨flight, e, hruns, rfl⟩ := hlands landed hlanded
  exact ⟨_, _, e, hruns.append _, rfl⟩

/-- An attempt that was just put in flight is called, and leaves the queue: it lands at once if its
execution does not wait. -/
theorem Launched.leaves (h : Launched cb m.now tl f) :
    (f.poll cb.serve m).flights.ready = [] ∧
      (∀ w ∈ (f.poll cb.serve m).flights.waiting,
        Waits cb (tl ++ stamp m.now ((f.poll cb.serve m).made.map Event.called)) w) ∧
      ∀ landed, (f.poll cb.serve m).landed = some landed → ∃ a e call,
        Runs cb (tl ++ stamp m.now ((f.poll cb.serve m).made.map Event.called)) a m.now e ∧
          e.wait.alarm? m call = none ∧
          landed = e.result.map fun output => ⟨a, output, elapsed m.now m.now⟩ := by
  obtain ⟨ready, waiting, calls⟩ := f
  obtain ⟨⟨a, copy, hready, hissued⟩, hwaiting⟩ := h
  obtain rfl : ready = [⟨a, m.now, .fresh copy⟩] := hready
  let e := cb.serve copy calls
  let call : Call In := ⟨a, calls, copy⟩
  have hruns : Runs cb (tl ++ stamp m.now [.called call]) a m.now e :=
    ⟨List.mem_append_left _ hissued, call,
      List.mem_append_right _ (List.mem_singleton_self _), rfl, rfl⟩
  cases halarm : e.wait.alarm? m calls with
  | none =>
    have hpoll : Flights.poll ⟨[⟨a, m.now, .fresh copy⟩], waiting, calls⟩ cb.serve m =
        ⟨[call], ⟨[], waiting, calls + 1⟩,
          some (Flights.land ⟨a, m.now, .fresh copy⟩ m.now e.result)⟩ := by
      simp only [Flights.poll, Flights.pollQueue, e, call] at halarm ⊢
      rw [halarm]
    rw [hpoll]
    refine ⟨rfl, fun w hw => (hwaiting w hw).append _, fun landed hlanded => ?_⟩
    cases hlanded
    exact ⟨a, e, calls, hruns, halarm, rfl⟩
  | some alarm =>
    let flight : Flight In Out := ⟨a, m.now, .begun calls e.result⟩
    have hpoll : Flights.poll ⟨[⟨a, m.now, .fresh copy⟩], waiting, calls⟩ cb.serve m =
        ⟨[call], ⟨[], waiting ++ [(alarm, flight)], calls + 1⟩, none⟩ := by
      simp only [Flights.poll, Flights.pollQueue, e, call, flight] at halarm ⊢
      rw [halarm]
    rw [hpoll]
    refine ⟨rfl, fun w hw => ?_, fun landed hlanded => by cases hlanded⟩
    rcases List.mem_append.mp hw with hw | hw
    · exact (hwaiting w hw).append _
    · obtain rfl := List.mem_singleton.mp hw
      exact ⟨e, ⟨⟨calls, rfl⟩, hruns⟩, fun finish hfinish => alarm?_eq_time halarm hfinish⟩

/-- Once the attempt that was put in flight is called, all flights have begun. -/
theorem Launched.poll (h : Launched cb m.now tl f) : TrackedPoll cb m tl f := by
  obtain ⟨hready, hwaiting, hlands⟩ := h.leaves
  refine ⟨⟨fun flight hflight => ?_, hwaiting⟩, fun landed hlanded => ?_⟩
  · rw [hready] at hflight
    cases hflight
  · obtain ⟨a, e, -, hruns, -, rfl⟩ := hlands landed hlanded
    exact ⟨a, m.now, e, hruns, rfl⟩

/-- No attempt of flights that have begun is to be called. -/
theorem Tracked.uncalled (h : Tracked cb tl f) : f.uncalled = [] := by
  apply List.filterMap_eq_nil_iff.mpr
  intro flight hflight
  have hbegun : ∃ e, Begun cb tl flight e := by
    rcases List.mem_append.mp hflight with hready | hwaiting
    · exact h.ready flight hready
    · obtain ⟨w, hw, rfl⟩ := List.mem_map.mp hwaiting
      obtain ⟨e, hbegun, -⟩ := h.waiting w hw
      exact ⟨e, hbegun⟩
  obtain ⟨e, ⟨call, hstage⟩, -⟩ := hbegun
  rw [Flight.uncalled?, hstage]

/-- If nothing in flight can go on, what is in flight has not finished. -/
theorem Tracked.unfinished (h : Tracked cb tl f) (hidle : f.Idle m) {a : Attempt}
    (ha : a ∈ f.attempts) :
    ∃ begun e, Runs cb tl a begun e ∧ ∀ finish, e.endsAt? begun = some finish → m.now < finish := by
  obtain ⟨flight, hflight, rfl⟩ := List.mem_map.mp ha
  obtain ⟨hready, hasleep⟩ := hidle
  rw [Flights.all, hready, List.nil_append] at hflight
  obtain ⟨w, hw, rfl⟩ := List.mem_map.mp hflight
  obtain ⟨e, ⟨-, hruns⟩, halarm⟩ := h.waiting w hw
  refine ⟨w.2.issuedAt, e, hruns, ?_⟩
  intro finish hfinish
  have hrung := hasleep w hw
  rw [halarm finish hfinish, Alarm.hasRung, decide_eq_false_iff_not] at hrung
  exact Nat.lt_of_not_le hrung

end Flights

/-! ## Turns -/

/-- The flights of a race in a poll: none that waits can go on at the moment. -/
structure Watched (cb : Callbacks In Out) (m : Moment) (tl : Timeline In Out)
    (f : Flights In Out) : Prop where
  begun : Tracked cb tl f ∨ Launched cb m.now tl f
  asleep : ∀ w ∈ f.waiting, w.1.hasRung m = false
  landed : Landed cb tl
  patient : Patient cb tl

def Leaves (cb : Callbacks In Out) (m : Moment) (tl : Timeline In Out) : Progress In Out → Prop
  | .pending r => Tracked cb tl r.flights ∧ r.flights.Idle m ∧ Abiding cb tl m.now
  | .finished _ r => Tracked cb tl r.flights
  | .crashed fault _ => fault ≠ .primaryMissing → ¬ cb.Total

structure Heeds (cb : Callbacks In Out) (m : Moment) (tl : Timeline In Out)
    (p : Progress In Out) : Prop where
  landed : Landed cb tl
  patient : Patient cb tl
  leaves : Leaves cb m tl p

def Turns (cb : Callbacks In Out) (m : Moment) (tl : Timeline In Out) : Turn In Out → Prop
  | .again r => Watched cb m tl r.flights
  | .settled p => Heeds cb m tl p

section Turns

variable {cb : Callbacks In Out} {d : Decision} {start : Instant} {m : Moment}
  {tl : Timeline In Out} {r : Race In Out}

/-- If nothing in flight can go on, no attempt in flight has finished. -/
theorem unfinished_of_idle {now : Instant} (h : Running cb d start now (tl.map Prod.snd) r)
    (htracked : Tracked cb tl r.flights) (hidle : r.flights.Idle m) :
    ∀ a ∈ r.flights.attempts, Unfinished cb tl m.now a := by
  intro a hflying
  refine ⟨?_, htracked.unfinished hidle hflying⟩
  intro output hconsumed
  rw [h.clean.reported] at hconsumed
  obtain ⟨p, hp, heq⟩ := List.mem_map.mp hconsumed
  obtain ⟨rfl, -⟩ := Prod.mk.inj heq
  have hnodup := (h.books.conserved.nodup_iff).mp h.books.nodup_issued.of_map
  exact (List.nodup_append.mp hnodup).2.2 _ (List.mem_map_of_mem hp) _ hflying rfl

/-- And every attempt issued was lost or has not finished. -/
theorem abiding_of_idle {now : Instant} (h : Running cb d start now (tl.map Prod.snd) r)
    (htracked : Tracked cb tl r.flights) (hidle : r.flights.Idle m) : Abiding cb tl m.now := by
  intro a ha
  rcases List.mem_append.mp (h.books.conserved.subset ha) with hreported | hflying
  · obtain ⟨p, hp, rfl⟩ := List.mem_map.mp hreported
    refine .inl ⟨p.output, ?_, ?_⟩
    · rw [h.clean.reported]
      exact List.mem_map_of_mem hp
    · rw [← h.losing.failed p hp]
      exact h.books.judged p hp
  · exact .inr (unfinished_of_idle h htracked hidle a hflying)

/-- A completion is known from its execution; a callback may crash on it. -/
theorem turns_complete {c : Completed Out} {begun : Instant} {e : Execution Out}
    (h : Watched cb m tl r.flights) (htracked : Tracked cb tl r.flights)
    (hruns : Runs cb tl c.attempt begun e) (hresult : e.result = .ok c.output) :
    Turns cb m (tl ++ stamp m.now (r.complete cb m.now c).1) (r.complete cb m.now c).2 := by
  have hlanded : Landed cb (tl ++ [(m.now, .classified c.attempt c.output m.now)]) := by
    intro a output hmem
    rw [List.map_append, List.map_singleton, filterMap_snoc_some _ (b := (c.attempt, c.output)) rfl]
      at hmem
    rcases List.mem_append.mp hmem with hmem | hmem
    · obtain ⟨begun', e', hruns', hresult'⟩ := h.landed a output hmem
      exact ⟨begun', e', hruns'.append _, hresult'⟩
    · obtain ⟨rfl, rfl⟩ := Prod.mk.inj (List.mem_singleton.mp hmem)
      exact ⟨begun, e, hruns.append _, hresult⟩
  have hpatient : Patient cb (tl ++ [(m.now, .classified c.attempt c.output m.now)]) :=
    h.patient.append (by simp)
  unfold complete
  split
  · rename_i crash hcrash
    refine ⟨hlanded, hpatient, ?_⟩
    rintro - htotal
    obtain ⟨recovery, hrecovery⟩ := htotal.recovery c.output c.attempt
    cases hcrash.symm.trans hrecovery
  · rename_i recovery hrecovery
    let p : Report In Out :=
      ⟨r.request, c.output, recovery.outcome cb.handleUnavailable, c.elapsed, c.attempt⟩
    dsimp only
    split
    · have htrace : tl ++ stamp m.now [.classified c.attempt c.output m.now, .reported p,
          .won c.attempt r.issued] = tl ++ [(m.now, .classified c.attempt c.output m.now)] ++
            [(m.now, .reported p), (m.now, .won c.attempt r.issued)] := by simp [stamp]
      show Turns cb m (tl ++ stamp m.now [.classified c.attempt c.output m.now, .reported p,
        .won c.attempt r.issued]) (.settled (.finished c.output r))
      rw [htrace]
      refine ⟨hlanded.append (by simp), hpatient.append (by simp), ?_⟩
      exact (htracked.append _).append _
    · have htrace : tl ++ stamp m.now [.classified c.attempt c.output m.now, .reported p] =
          tl ++ [(m.now, .classified c.attempt c.output m.now)] ++ [(m.now, .reported p)] := by
        simp [stamp]
      show Turns cb m (tl ++ stamp m.now [.classified c.attempt c.output m.now, .reported p]) _
      rw [htrace]
      exact ⟨.inl ((htracked.append _).append _), h.asleep, hlanded.append (by simp),
        hpatient.append (by simp)⟩

/-- A hedge is asked for when every attempt issued was lost or has not finished. -/
theorem turns_hedge {index : UInt32} (h : Watched cb m tl r.flights)
    (htracked : Tracked cb tl r.flights) (hidle : r.flights.Idle m)
    (habiding : Abiding cb tl m.now) :
    Turns cb m (tl ++ stamp m.now (r.hedge cb m.now index).1) (r.hedge cb m.now index).2 := by
  let a := Attempt.planned index r.decision.maxHedges
  let asked : Timeline In Out := tl ++ [(m.now, .copied a r.request)]
  have hpatient : Patient cb asked := h.patient.snoc fun _ _ _ => habiding
  have hlanded : Landed cb asked := h.landed.append (by simp)
  unfold hedge
  dsimp only
  split
  · rename_i crash hcrash
    refine ⟨hlanded, hpatient, ?_⟩
    rintro - htotal
    obtain ⟨answer, hanswer⟩ := htotal.copy r.request a
    cases hcrash.symm.trans hanswer
  · exact ⟨.inl (htracked.append _), h.asleep, hlanded, hpatient⟩
  · rename_i left copy hcopy
    let delay := r.decision.delay.getD Duration.zero
    split
    · rename_i crash hcrash
      have htrace : tl ++ stamp m.now [.copied a r.request, .announced a delay] =
          asked ++ [(m.now, .announced a delay)] := by simp [asked, stamp]
      show Turns cb m (tl ++ stamp m.now [.copied a r.request, .announced a delay]) _
      rw [htrace]
      refine ⟨hlanded.append (by simp), hpatient.append (by simp), ?_⟩
      rintro - htotal
      cases hcrash.symm.trans (htotal.onHedge a delay)
    · have htrace : tl ++ stamp m.now [.copied a r.request, .announced a delay, .issued a] =
          asked ++ [(m.now, .announced a delay), (m.now, .issued a)] := by simp [asked, stamp]
      show Turns cb m (tl ++ stamp m.now [.copied a r.request, .announced a delay, .issued a]) _
      rw [htrace]
      refine ⟨.inr ⟨⟨a, copy, ?_, by simp⟩, ?_⟩, h.asleep, hlanded.append (by simp),
        hpatient.append (by simp)⟩
      · show r.flights.ready ++ [_] = [_]
        rw [hidle.1]
        rfl
      · exact fun w hw => ((htracked.waiting w hw).append _).append _

/-- A race goes on by its schedule when nothing in flight can go on. -/
theorem turns_goOn (hrunning : Running cb d start m.now (tl.map Prod.snd) r)
    (h : Watched cb m tl r.flights) (htracked : Tracked cb tl r.flights)
    (hidle : r.flights.Idle m) :
    Turns cb m (tl ++ stamp m.now (r.goOn cb m).1) (r.goOn cb m).2 := by
  have habiding := abiding_of_idle hrunning htracked hidle
  have hsuspend : ∀ p, Turns cb m (tl ++ stamp m.now (r.suspend p).1) (r.suspend p).2 := by
    intro p
    rw [suspend, show stamp m.now [] = ([] : Timeline In Out) from rfl, List.append_nil]
    exact ⟨h.landed, h.patient, htracked, hidle, habiding⟩
  unfold goOn
  split
  · split
    · rename_i hempty
      obtain ⟨output, houtput⟩ := exists_primaryOutput hrunning hempty
      rw [exhaust, houtput]
      exact ⟨h.landed.append (by simp [stamp]), h.patient.append (by simp [stamp]),
        htracked.append _⟩
    · exact hsuspend _
  · split
    · exact turns_hedge h htracked hidle habiding
    · split
      · exact hsuspend _
      · exact hsuspend _

/-- What a turn of a race in a poll leads to. -/
theorem turns_stride (hrunning : Running cb d start m.now (tl.map Prod.snd) r)
    (h : Watched cb m tl r.flights) :
    Turns cb m (tl ++ stamp m.now (r.stride cb m).1) (r.stride cb m).2 := by
  obtain ⟨htracked, hends⟩ := h.begun.elim Tracked.poll Launched.poll
  have hasleep := Flights.hasRung_pollQueue cb.serve m r.flights.ready _ r.flights.calls h.asleep
  change ∀ w ∈ (r.flights.poll cb.serve m).flights.waiting, _ at hasleep
  have hpolled : Watched cb m
      (tl ++ stamp m.now ((r.flights.poll cb.serve m).made.map Event.called))
      (r.flights.poll cb.serve m).flights := by
    refine ⟨.inl htracked, hasleep, h.landed.append ?_, h.patient.append ?_⟩
    · simp [stamp]
    · simp [stamp]
  unfold stride await
  dsimp only
  rw [stamp_append, ← List.append_assoc]
  split
  · rename_i crash hlanded
    obtain ⟨a, begun, e, ⟨-, call, -, -, rfl⟩, hresult⟩ := hends _ hlanded
    rw [show stamp m.now [] = ([] : Timeline In Out) from rfl, List.append_nil]
    refine ⟨hpolled.landed, hpolled.patient, ?_⟩
    rintro - htotal
    obtain ⟨output, houtput⟩ := htotal.serve call.copy call.number
    rw [houtput] at hresult
    cases hresult
  · rename_i c hlanded
    obtain ⟨a, begun, e, hruns, hresult⟩ := hends _ hlanded
    cases he : e.result with
    | error crash =>
      rw [he] at hresult
      cases hresult
    | ok output =>
      rw [he] at hresult
      cases hresult
      exact turns_complete hpolled htracked hruns he
  · rename_i hlanded
    have hrunning' := hrunning.polled hlanded
    rw [← events_stamp m.now ((r.flights.poll cb.serve m).made.map Event.called),
      ← List.map_append] at hrunning'
    exact turns_goOn hrunning' hpolled htracked (Flights.idle_poll h.asleep hlanded)

/-- What a poll of a race leads to. -/
theorem heeds_poll (hr : r.Poised m.now) (hrunning : Running cb d start m.now (tl.map Prod.snd) r)
    (h : Watched cb m tl (r.flights.wake m)) :
    Heeds cb m (tl ++ stamp m.now (r.poll cb m).1) (r.poll cb m).2 := by
  let P : List (Event In Out) → Race In Out → Prop := fun new r =>
    Running cb d start m.now ((tl ++ stamp m.now new).map Prod.snd) r ∧
      Watched cb m (tl ++ stamp m.now new) r.flights
  let Q : List (Event In Out) → Progress In Out → Prop := fun new p =>
    Heeds cb m (tl ++ stamp m.now new) p
  have hstart : P [] { r with flights := r.flights.wake m } := by
    show Running cb d start m.now ((tl ++ []).map Prod.snd) _ ∧ Watched cb m (tl ++ []) _
    rw [List.append_nil]
    exact ⟨hrunning.wake m, h⟩
  refine poll_induct (P := P) (Q := Q) (fun h => h.1.started_le) ?_ ?_ hr hstart
  · rintro tr r events r' ⟨hrunning, hwatched⟩ hs
    have hleads := leads_stride hrunning
    have hturns := turns_stride hrunning hwatched
    rw [hs] at hleads hturns
    show Running cb d start m.now ((tl ++ stamp m.now (tr ++ events)).map Prod.snd) r' ∧
      Watched cb m (tl ++ stamp m.now (tr ++ events)) r'.flights
    rw [stamp_append, ← List.append_assoc, List.map_append, events_stamp]
    exact ⟨hleads, hturns⟩
  · rintro tr r events p ⟨hrunning, hwatched⟩ hs
    have hturns := turns_stride hrunning hwatched
    rw [hs] at hturns
    show Heeds cb m (tl ++ stamp m.now (tr ++ events)) p
    rw [stamp_append, ← List.append_assoc]
    exact hturns

end Turns

end Race

end RequestHedging
