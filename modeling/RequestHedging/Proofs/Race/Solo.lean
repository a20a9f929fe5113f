import RequestHedging.Proofs.Race.Turns

/-!
# One call alone

A request without hedges makes one call of the inner service, in its first poll.  From then on
every poll asks only whether that call is over (`Execution.isOver`): if it is, it lands, and if
it is not, it goes on waiting (`Flights.Goes`).
-/

namespace RequestHedging.Race

variable {In Out : Type}

def Execution.isOver (e : Execution Out) (call : Nat) (begun : Instant) (m : Moment) : Bool :=
  match e.wait with
  | .lasting d => begun + d.nanos ≤ m.now
  | .opening => call ∈ m.opened
  | .forever => false

/-- A call is waited for unless it is over. -/
theorem Execution.alarm?_eq_none_iff (e : Execution Out) (call : Nat) (m : Moment) :
    e.wait.alarm? m call = none ↔ e.isOver call m.now m = true := by
  unfold isOver
  cases e.wait with
  | lasting d =>
    simp only [Wait.alarm?, Duration.isZero, beq_iff_eq, decide_eq_true_eq]
    split
    · rename_i hzero
      simp [hzero]
    · rename_i hpos
      have hlt : m.now < m.now + d.nanos := Nat.lt_add_of_pos_right (Nat.pos_of_ne_zero hpos)
      exact iff_of_false (Option.some_ne_none _) (Nat.not_le.mpr hlt)
  | opening =>
    simp only [Wait.alarm?]
    split <;> simp_all
  | forever => simp [Wait.alarm?]

/-- What a call waits for has come when it is over. -/
theorem Execution.hasRung_eq_isOver {e : Execution Out} {call : Nat} {m : Moment} {alarm : Alarm}
    (h : e.wait.alarm? m call = some alarm) (later : Moment) :
    alarm.hasRung later = e.isOver call m.now later := by
  unfold isOver
  generalize e.wait = wait at h
  cases wait with
  | lasting d =>
    simp only [Wait.alarm?] at h
    split at h
    · cases h
    · cases h
      rfl
  | opening =>
    simp only [Wait.alarm?] at h
    split at h
    · cases h
    · cases h
      rfl
  | forever =>
    cases h
    rfl

namespace Flights

/-- An attempt alone in flight, which waits for the first call to be over. -/
def Awaits (f : Flights In Out) (a : Attempt) (e : Execution Out) (begun : Instant) : Prop :=
  ∃ alarm, f = ⟨[], [(alarm, ⟨a, begun, .begun 0 e.result⟩)], 1⟩ ∧
    ∀ m, alarm.hasRung m = e.isOver 0 begun m

/-- What comes of polling an attempt alone: it lands if its call is over, and else it waits. -/
inductive Goes (a : Attempt) (e : Execution Out) (begun : Instant) (m : Moment)
    (made : List (Call In)) : Polled In Out → Prop where
  | lands (finished : e.isOver 0 begun m = true) : Goes a e begun m made
    ⟨made, ⟨[], [], 1⟩, some (e.result.map fun output => ⟨a, output, elapsed begun m.now⟩)⟩
  | waits (f : Flights In Out) (pending : e.isOver 0 begun m = false)
      (awaits : f.Awaits a e begun) :
    Goes a e begun m made ⟨made, f, .none⟩

/-- An attempt that was just issued is called. -/
theorem goes_start (serve : In → Nat → Execution Out) (m : Moment) (a : Attempt) (copy : In) :
    Goes a (serve copy 0) m.now m [⟨a, 0, copy⟩]
      (((none.issue a m.now copy).wake m).poll serve m) := by
  have hwake : (none.issue a m.now copy : Flights In Out).wake m =
      ⟨[⟨a, m.now, .fresh copy⟩], [], 0⟩ := by simp [wake, issue, none]
  rw [hwake]
  cases halarm : (serve copy 0).wait.alarm? m 0 with
  | none =>
    have hpoll : Flights.poll ⟨[⟨a, m.now, .fresh copy⟩], [], 0⟩ serve m =
        ⟨[⟨a, 0, copy⟩], ⟨[], [], 1⟩,
          some (land ⟨a, m.now, .fresh copy⟩ m.now (serve copy 0).result)⟩ := by
      simp only [poll, pollQueue]
      rw [halarm]
    rw [hpoll]
    exact .lands (((serve copy 0).alarm?_eq_none_iff 0 m).mp halarm)
  | some alarm =>
    have hpoll : Flights.poll ⟨[⟨a, m.now, .fresh copy⟩], [], 0⟩ serve m =
        ⟨[⟨a, 0, copy⟩],
          ⟨[], [(alarm, ⟨a, m.now, .begun 0 (serve copy 0).result⟩)], 1⟩, .none⟩ := by
      simp only [poll, pollQueue]
      rw [halarm]
      rfl
    have hpending : (serve copy 0).isOver 0 m.now m = false := by
      rw [← Bool.not_eq_true, ← Execution.alarm?_eq_none_iff, halarm]
      simp
    rw [hpoll]
    exact .waits _ hpending ⟨alarm, rfl, Execution.hasRung_eq_isOver halarm⟩

/-- An attempt that waits makes no other call. -/
theorem Awaits.goes {f : Flights In Out} {a : Attempt} {e : Execution Out} {begun : Instant}
    (h : f.Awaits a e begun) (serve : In → Nat → Execution Out) (m : Moment) :
    Goes a e begun m [] ((f.wake m).poll serve m) := by
  obtain ⟨alarm, rfl, hrings⟩ := h
  let flight : Flight In Out := ⟨a, begun, .begun 0 e.result⟩
  have hrung := hrings m
  cases hover : e.isOver 0 begun m with
  | true =>
    rw [hover] at hrung
    have hpoll : ((⟨[], [(alarm, flight)], 1⟩ : Flights In Out).wake m).poll serve m =
        ⟨[], ⟨[], [], 1⟩, some (land flight m.now e.result)⟩ := by
      simp [wake, poll, pollQueue, hrung, flight]
    rw [hpoll]
    exact .lands hover
  | false =>
    rw [hover] at hrung
    have hpoll : ((⟨[], [(alarm, flight)], 1⟩ : Flights In Out).wake m).poll serve m =
        ⟨[], ⟨[], [(alarm, flight)], 1⟩, .none⟩ := by
      simp [wake, poll, pollQueue, hrung]
    rw [hpoll]
    exact .waits _ hover ⟨alarm, rfl, hrings⟩

end Flights

/-! ## A race without hedges -/

/-- Where a race without hedges stands after a poll, by how its only call goes. -/
inductive SoloLed (a : Attempt) (e : Execution Out) (begun : Instant) (m : Moment) :
    Progress In Out → Prop where
  | ends (output : Out) (r : Race In Out) (finished : e.isOver 0 begun m = true)
      (result : e.result = .ok output) (empty : r.flights.isEmpty = true) :
    SoloLed a e begun m (.finished output r)
  | breaks (crash : Crash) (r : Race In Out) (finished : e.isOver 0 begun m = true)
      (result : e.result = .error crash) : SoloLed a e begun m (.crashed (.callback crash) r)
  | waits (r : Race In Out) (pending : e.isOver 0 begun m = false)
      (awaits : r.flights.Awaits a e begun) : SoloLed a e begun m (.pending r)

section Solo

variable {cb : Callbacks In Out} {a : Attempt} {e : Execution Out} {begun : Instant} {m : Moment}
  {made : List (Call In)}

/-- Between the turns of a poll, a race without hedges has its call to poll, or has lost. -/
def SoloTurn (a : Attempt) (e : Execution Out) (begun : Instant) (m : Moment)
    (serve : In → Nat → Execution Out) (made : List (Call In)) (tr : List (Event In Out))
    (r : Race In Out) : Prop :=
  r.started ≤ m.now ∧ r.decision.maxHedges = 0 ∧
    ((tr = [] ∧ Flights.Goes a e begun m made (r.flights.poll serve m)) ∨
      (tr.filterMap Event.call? = made ∧ e.isOver 0 begun m = true ∧ r.flights.isEmpty = true ∧
        ∃ output, e.result = .ok output ∧ r.primaryOutput = some output))

theorem filterMap_call_calls (made : List (Call In)) :
    (made.map Event.called : List (Event In Out)).filterMap Event.call? = made := by
  rw [List.filterMap_map]
  exact List.filterMap_some

/-- Where no hedge may be issued, none is next. -/
theorem next_of_maxHedges {r : Race In Out} (h : r.decision.maxHedges = 0) :
    r.decision.next r.lastHedge = none := by
  rw [Decision.next_eq_none_iff, h]
  exact Nat.zero_le _

/-- What a turn of a race without hedges leads to. -/
theorem solo_stride (hrecovery : ∀ output a crash, cb.recovery output a ≠ .error crash)
    (hprimary : a.isPrimary = true) {tr : List (Event In Out)} {r : Race In Out}
    (h : SoloTurn a e begun m cb.serve made tr r) :
    match r.stride cb m with
    | (events, .again r') => SoloTurn a e begun m cb.serve made (tr ++ events) r'
    | (events, .settled p) => (tr ++ events).filterMap Event.call? = made ∧
        SoloLed a e begun m p := by
  obtain ⟨hstarted, hmax, ⟨rfl, hgoes⟩ | ⟨hcalled, hover, hempty, output, hresult, hkept⟩⟩ := h
  · have hcalled : ∀ events : List (Event In Out), events.filterMap Event.call? = [] →
        ([] ++ (made.map Event.called ++ events)).filterMap Event.call? = made := by
      intro events hevents
      rw [List.nil_append, List.filterMap_append, filterMap_call_calls, hevents, List.append_nil]
    unfold stride await
    dsimp only
    generalize r.flights.poll cb.serve m = polled at hgoes ⊢
    cases hgoes with
    | waits f pending awaits =>
      obtain ⟨alarm, rfl, -⟩ := id awaits
      have hnext : r.decision.next r.lastHedge = none := next_of_maxHedges hmax
      simp only [goOn, hnext]
      exact ⟨hcalled _ rfl, .waits _ pending awaits⟩
    | lands finished =>
      cases hresult : e.result with
      | error crash => exact ⟨hcalled _ rfl, .breaks crash _ finished hresult⟩
      | ok output =>
        simp only [Except.map, complete]
        cases hanswer : cb.recovery output a with
        | error crash => exact absurd hanswer (hrecovery _ _ _)
        | ok recovery =>
          dsimp only
          cases recovery.outcome cb.handleUnavailable with
          | success => exact ⟨hcalled _ rfl, .ends output _ finished hresult rfl⟩
          | failure =>
            exact ⟨hstarted, hmax, .inr ⟨hcalled _ rfl, finished, rfl, output, hresult,
              by simp [hprimary]⟩⟩
  · have hnext : r.decision.next r.lastHedge = none := next_of_maxHedges hmax
    rw [stride, await_of_isEmpty hempty, goOn, hnext]
    simp only [hempty, if_true, exhaust, hkept]
    refine ⟨?_, .ends output _ hover hresult hempty⟩
    rw [List.filterMap_append, hcalled]
    exact List.append_nil _

/-- A poll of a race without hedges makes the calls that are left to make, and ends with the result
of the call once that is over. -/
theorem soloLed_poll (hrecovery : ∀ output a crash, cb.recovery output a ≠ .error crash)
    (hprimary : a.isPrimary = true) {r : Race In Out} (hr : r.Poised m.now)
    (hmax : r.decision.maxHedges = 0)
    (h : Flights.Goes a e begun m made ((r.flights.wake m).poll cb.serve m)) :
    (r.poll cb m).1.filterMap Event.call? = made ∧ SoloLed a e begun m (r.poll cb m).2 := by
  have hwoken : SoloTurn a e begun m cb.serve made [] { r with flights := r.flights.wake m } :=
    ⟨hr.started_le, hmax, .inl ⟨rfl, h⟩⟩
  refine poll_induct (P := SoloTurn a e begun m cb.serve made)
    (Q := fun tr p => tr.filterMap Event.call? = made ∧ SoloLed a e begun m p)
    (fun h => h.1) (fun h hs => ?_) (fun h hs => ?_) hr hwoken
  · have hturn := solo_stride hrecovery hprimary h
    rwa [hs] at hturn
  · have hturn := solo_stride hrecovery hprimary h
    rwa [hs] at hturn

end Solo

end RequestHedging.Race
