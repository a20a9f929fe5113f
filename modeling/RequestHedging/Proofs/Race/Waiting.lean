import RequestHedging.Proofs.Race.Flights
import RequestHedging.Race

/-!
# How a race waits

A turn waits in one of several ways, each with a timer of its own.  Seen from outside
they are one: poll the attempts in flight, and if none completed, issue the next hedge
exactly if it is due on the schedule.  `stride` is a turn in this form.

A timer is set for the time that is left until the hedge is due, so it rings when the
hedge is due, however late it is looked at.  `Poised` says this of a race between polls,
and `resume_eq_stride` is what follows from it.

`poll_induct` is the induction over the turns of a poll.
-/

namespace RequestHedging.Race

variable {In Out : Type}

/-- Goes on when no attempt completed: by the schedule, whatever timer was set. -/
def goOn (cb : Callbacks In Out) (m : Moment) (r : Race In Out) :
    List (Event In Out) × Turn In Out :=
  match r.decision.next r.lastHedge with
  | none => if r.flights.isEmpty then r.exhaust else r.suspend .landing
  | some (index, due) =>
    if r.started + due.nanos ≤ m.now then r.hedge cb m.now index
    else if r.flights.isEmpty then r.suspend (.asleep index (r.started + due.nanos))
    else r.suspend (.contested index (r.started + due.nanos))

def stride (cb : Callbacks In Out) (m : Moment) (r : Race In Out) :
    List (Event In Out) × Turn In Out :=
  r.await cb m fun r => r.goOn cb m

/-- What a race waits for belongs to its next hedge, and the timer rings when that is due. -/
def Fits (r : Race In Out) : Pause → Prop
  | .asleep index alarm => r.flights.isEmpty = true ∧
      ∃ due, r.decision.next r.lastHedge = some (index, due) ∧ alarm = r.started + due.nanos
  | .contested index alarm => r.flights.isEmpty = false ∧
      ∃ due, r.decision.next r.lastHedge = some (index, due) ∧ alarm = r.started + due.nanos
  | .landing => r.decision.next r.lastHedge = none

/-- A race that was started, and that waits for the right thing if it waits. -/
structure Poised (r : Race In Out) (now : Instant) : Prop where
  started_le : r.started ≤ now
  fits : ∀ p, r.pause = some p → r.Fits p

/-! ## The ways of waiting are one -/

/-- What follows polling matters only as applied to what polling leaves. -/
theorem await_congr {cb : Callbacks In Out} {m : Moment} {r : Race In Out}
    {idle idle' : Race In Out → List (Event In Out) × Turn In Out}
    (h : (r.flights.poll cb.serve m).landed = none →
      idle { r with flights := (r.flights.poll cb.serve m).flights } =
        idle' { r with flights := (r.flights.poll cb.serve m).flights }) :
    r.await cb m idle = r.await cb m idle' := by
  simp only [await]
  cases hl : (r.flights.poll cb.serve m).landed with
  | none => rw [h hl]
  | some landed => cases landed <;> rfl

theorem await_of_isEmpty {cb : Callbacks In Out} {m : Moment} {r : Race In Out}
    {idle : Race In Out → List (Event In Out) × Turn In Out} (h : r.flights.isEmpty = true) :
    r.await cb m idle = idle r := by
  simp only [await, Flights.poll_of_isEmpty h]
  rfl

/-- To wait for the next hedge takes the same turn as not to wait. -/
theorem waitFor_eq_stride {cb : Callbacks In Out} {m : Moment} {r : Race In Out} {p : Pause}
    (h : r.Fits p) : r.waitFor cb m p = r.stride cb m := by
  cases p with
  | asleep index alarm =>
    obtain ⟨hempty, due, hnext, rfl⟩ := h
    rw [stride, await_of_isEmpty hempty]
    simp only [waitFor, goOn, hnext, hempty, if_true]
  | contested index alarm =>
    obtain ⟨hempty, due, hnext, rfl⟩ := h
    rw [waitFor, stride]
    apply await_congr
    intro hl
    have he := (Flights.isEmpty_poll hl).trans hempty
    simp only [goOn, hnext, he, Bool.false_or, Bool.false_eq_true, if_false, decide_eq_true_eq]
  | landing =>
    have hnext : r.decision.next r.lastHedge = none := h
    rw [waitFor, stride]
    apply await_congr
    intro _
    simp only [goOn, hnext]

/-- The time left until a hedge is due ends when it is due. -/
theorem now_add_wait {started now : Nat} {due : Duration} (hs : started ≤ now)
    (hw : (due.minus (elapsed started now)).isZero = false) :
    now + (due.minus (elapsed started now)).nanos = started + due.nanos := by
  have hd := due.nanos_le
  simp only [Duration.isZero, Duration.minus, elapsed, Duration.nanos_ofNanos, beq_eq_false_iff_ne,
    ne_eq] at hw ⊢
  omega

/-- No time is left to wait exactly when the hedge is due. -/
theorem wait_isZero_iff {started now : Nat} {due : Duration} (hs : started ≤ now) :
    (due.minus (elapsed started now)).isZero = true ↔ started + due.nanos ≤ now := by
  have hd := due.nanos_le
  simp only [Duration.isZero, Duration.minus, elapsed, Duration.nanos_ofNanos, beq_iff_eq]
  omega

/-- A turn from its beginning is a stride. -/
theorem turn_eq_stride {cb : Callbacks In Out} {m : Moment} {r : Race In Out}
    (hs : r.started ≤ m.now) : r.turn cb m = r.stride cb m := by
  unfold turn
  split
  · rename_i hnext
    exact waitFor_eq_stride hnext
  · rename_i index due hnext
    dsimp only
    split
    · rename_i hw
      have hdue := (wait_isZero_iff hs).1 hw
      apply await_congr
      intro _
      simp only [goOn, hnext, if_pos hdue]
    · rename_i hw
      have halarm := now_add_wait hs (Bool.not_eq_true _ ▸ hw)
      split
      · rename_i hempty
        exact waitFor_eq_stride ⟨hempty, due, hnext, halarm⟩
      · rename_i hempty
        exact waitFor_eq_stride ⟨Bool.not_eq_true _ ▸ hempty, due, hnext, halarm⟩

/-- However it waits, a race goes on by its schedule. -/
theorem resume_eq_stride {cb : Callbacks In Out} {m : Moment} {r : Race In Out}
    (h : r.Poised m.now) : r.resume cb m = r.stride cb m := by
  unfold resume
  split
  · exact turn_eq_stride h.started_le
  · rename_i p hp
    exact waitFor_eq_stride (h.fits p hp)

/-! ## Between polls -/

theorem Poised.later {r : Race In Out} {now later : Instant} (h : r.Poised now)
    (hle : now ≤ later) : r.Poised later :=
  ⟨Nat.le_trans h.started_le hle, h.fits⟩

theorem Poised.wake {r : Race In Out} {now : Instant} (h : r.Poised now) (m : Moment) :
    { r with flights := r.flights.wake m }.Poised now := by
  refine ⟨h.started_le, fun p hp => ?_⟩
  have hfits := h.fits p hp
  have he := r.flights.isEmpty_wake m
  cases p <;> simpa only [Fits, he] using hfits

/-- A race that goes on waiting does so for its next hedge, which is not due. -/
structure Resting (r : Race In Out) (now : Instant) : Prop where
  fits : ∀ p, r.pause = some p → r.Fits p
  not_due : ∀ index due, r.decision.next r.lastHedge = some (index, due) →
    now < r.started + due.nanos
  landing : r.decision.next r.lastHedge = none → r.flights.isEmpty = false

/-- A race that is over does not go on waiting. -/
theorem exhaust_ne_pending (r r' : Race In Out) : r.exhaust.2 ≠ .settled (.pending r') := by
  rw [exhaust]
  cases r.primaryOutput <;> simp

/-- What a race that could not go on is left as. -/
theorem exists_pause_of_goOn {cb : Callbacks In Out} {m : Moment} {r r' : Race In Out}
    {events : List (Event In Out)} (h : r.goOn cb m = (events, .settled (.pending r'))) :
    events = [] ∧ (∃ p, r' = { r with pause := some p }) ∧ r'.Resting m.now := by
  unfold goOn at h
  split at h
  · rename_i hnext
    split at h
    · exact absurd (congrArg Prod.snd h) (exhaust_ne_pending r r')
    · rename_i hempty
      cases h
      refine ⟨rfl, ⟨_, rfl⟩, ⟨?_, ?_, fun _ => by simpa using hempty⟩⟩
      · rintro p hp
        cases hp
        exact hnext
      · rintro index due hn
        rw [show r.decision.next r.lastHedge = some (index, due) from hn] at hnext
        cases hnext
  · rename_i index due hnext
    have hnone : r.decision.next r.lastHedge ≠ none := by simp [hnext]
    split at h
    · unfold hedge at h
      dsimp only at h
      split at h
      · cases h
      · cases h
      · split at h <;> cases h
    · rename_i hdue
      have hlate : ∀ i d, r.decision.next r.lastHedge = some (i, d) →
          m.now < r.started + d.nanos := by
        intro i d hn
        rw [hnext] at hn
        cases hn
        exact Nat.lt_of_not_le hdue
      split at h
      · rename_i hempty
        cases h
        refine ⟨rfl, ⟨_, rfl⟩, ⟨?_, hlate, fun hn => absurd hn hnone⟩⟩
        rintro p hp
        cases hp
        exact ⟨hempty, due, hnext, rfl⟩
      · rename_i hempty
        cases h
        refine ⟨rfl, ⟨_, rfl⟩, ⟨?_, hlate, fun hn => absurd hn hnone⟩⟩
        rintro p hp
        cases hp
        exact ⟨by simpa using hempty, due, hnext, rfl⟩

/-! ## Induction over a poll -/

section Induction

variable {cb : Callbacks In Out} {m : Moment} {P : List (Event In Out) → Race In Out → Prop}
  {Q : List (Event In Out) → Progress In Out → Prop}

/-- What every turn keeps, the turns of a poll keep. -/
theorem run_induct (started_le : ∀ {tr r}, P tr r → r.started ≤ m.now)
    (again : ∀ {tr r events r'}, P tr r → r.stride cb m = (events, .again r') →
      P (tr ++ events) r')
    (settled : ∀ {tr r events p}, P tr r → r.stride cb m = (events, .settled p) →
      Q (tr ++ events) p)
    {tr : List (Event In Out)} {r : Race In Out} (h : P tr r) :
    Q (tr ++ (r.run cb m).1) (r.run cb m).2 := by
  induction r using run.induct cb m generalizing tr with
  | case1 r events p ht =>
    rw [run, ht]
    rw [turn_eq_stride (started_le h)] at ht
    exact settled h ht
  | case2 r events r' ht ih =>
    rw [run, ht]
    rw [turn_eq_stride (started_le h)] at ht
    simpa only [List.append_assoc] using ih (again h ht)

/-- What waking and every turn keep, a poll keeps. -/
theorem poll_induct (started_le : ∀ {tr r}, P tr r → r.started ≤ m.now)
    (again : ∀ {tr r events r'}, P tr r → r.stride cb m = (events, .again r') →
      P (tr ++ events) r')
    (settled : ∀ {tr r events p}, P tr r → r.stride cb m = (events, .settled p) →
      Q (tr ++ events) p)
    {tr : List (Event In Out)} {r : Race In Out} (hr : r.Poised m.now)
    (h : P tr { r with flights := r.flights.wake m }) :
    Q (tr ++ (r.poll cb m).1) (r.poll cb m).2 := by
  have hresume : { r with flights := r.flights.wake m }.resume cb m = _ :=
    resume_eq_stride (hr.wake m)
  unfold poll
  split
  · rename_i events p hp
    exact settled h (hresume ▸ hp)
  · rename_i events r' hp
    have h' := again h (hresume ▸ hp)
    simpa only [List.append_assoc] using run_induct started_le again settled h'

end Induction

end RequestHedging.Race
