import Mathlib.Data.List.Basic
import RequestHedging.Race.Flights

/-!
# What becomes of the attempts in flight

Waking and polling move attempts from one queue to the other and never lose or double
one: `all_wake` and `exists_taken_poll` say so up to the order.  An attempt leaves the
flights only by landing, and `Took` says which attempt a landing takes with it.

The calls of the inner service are accounted for apart: an attempt that was not called
yet is called once or stays uncalled (`uncalled_poll`).
-/

namespace RequestHedging.Race

variable {In Out : Type}

def Flight.uncalled? (flight : Flight In Out) : Option Attempt :=
  match flight.stage with
  | .fresh _ => some flight.attempt
  | .begun .. => none

/-- The attempts that leave the flights by a landing: the one that completed, or one that
crashed. -/
def Took : Option (Except Crash (Completed Out)) → List Attempt → Prop
  | none, taken => taken = []
  | some (.ok c), taken => taken = [c.attempt]
  | some (.error _), taken => taken.length = 1

namespace Flights

def all (f : Flights In Out) : List (Flight In Out) := f.ready ++ f.waiting.map Prod.snd

def attempts (f : Flights In Out) : List Attempt := f.all.map Flight.attempt

def uncalled (f : Flights In Out) : List Attempt := f.all.filterMap Flight.uncalled?

/-- Nothing in flight can go on at a moment. -/
def Idle (f : Flights In Out) (m : Moment) : Prop :=
  f.ready = [] ∧ ∀ w ∈ f.waiting, w.1.hasRung m = false

theorem isEmpty_iff_attempts (f : Flights In Out) : f.isEmpty = true ↔ f.attempts = [] := by
  simp [isEmpty, size, attempts, all]

/-! ## Issuing and waking -/

theorem attempts_issue (f : Flights In Out) (a : Attempt) (now : Instant) (copy : In) :
    (f.issue a now copy).attempts.Perm (f.attempts ++ [a]) := by
  simp only [attempts, all, issue, List.map_append, List.append_assoc]
  exact (List.perm_append_comm).append_left _

theorem uncalled_issue (f : Flights In Out) (a : Attempt) (now : Instant) (copy : In) :
    (f.issue a now copy).uncalled.Perm (f.uncalled ++ [a]) := by
  simp only [uncalled, all, issue, List.filterMap_append, List.append_assoc]
  exact (List.perm_append_comm).append_left _

/-- Waking only moves flights from one queue to the other. -/
theorem all_wake (f : Flights In Out) (m : Moment) : (f.wake m).all.Perm f.all := by
  simp only [all, wake, List.append_assoc]
  refine List.Perm.append_left _ ?_
  rw [← List.map_append]
  refine List.Perm.map _ ?_
  have hsplit := List.filter_append_perm (fun w => w.1.hasRung m) f.waiting
  exact ((List.mergeSort_perm _ _).append_right _).trans hsplit

/-- Waking moves attempts into the queue, and loses none. -/
theorem attempts_wake (f : Flights In Out) (m : Moment) : (f.wake m).attempts.Perm f.attempts :=
  (f.all_wake m).map _

theorem uncalled_wake (f : Flights In Out) (m : Moment) : (f.wake m).uncalled.Perm f.uncalled :=
  (f.all_wake m).filterMap _

theorem isEmpty_wake (f : Flights In Out) (m : Moment) : (f.wake m).isEmpty = f.isEmpty := by
  rw [Bool.eq_iff_iff, isEmpty_iff_attempts, isEmpty_iff_attempts]
  exact ⟨fun h => (h ▸ (f.attempts_wake m).symm).eq_nil, fun h => (h ▸ f.attempts_wake m).eq_nil⟩

/-! ## Polling -/

theorem took_land (flight : Flight In Out) (now : Instant) (result : Except Crash Out) :
    Took (some (land flight now result)) [flight.attempt] := by
  cases result <;> rfl

/-- The flight at the front of a queue, moved behind those that wait. -/
theorem all_requeue (flight : Flight In Out) (queue : List (Flight In Out))
    (waiting : List (Alarm × Flight In Out)) (alarm : Alarm) (calls : Nat) :
    (⟨queue, waiting ++ [(alarm, flight)], calls⟩ : Flights In Out).all.Perm
      (flight :: (queue ++ waiting.map Prod.snd)) := by
  simp only [all, List.map_append, List.map_cons, List.map_nil, ← List.append_assoc]
  exact List.perm_append_singleton _ _

/-- Polling a queue loses exactly the attempt that lands. -/
theorem exists_taken_pollQueue (serve : In → Nat → Execution Out) (m : Moment)
    (queue : List (Flight In Out)) (waiting : List (Alarm × Flight In Out)) (calls : Nat) :
    ∃ taken, Took (pollQueue serve m queue waiting calls).landed taken ∧
      (⟨queue, waiting, calls⟩ : Flights In Out).attempts.Perm
        (taken ++ (pollQueue serve m queue waiting calls).flights.attempts) := by
  induction queue generalizing waiting calls with
  | nil => exact ⟨[], rfl, .refl _⟩
  | cons flight queue ih =>
    unfold pollQueue
    split
    · exact ⟨[flight.attempt], took_land _ _ _, .refl _⟩
    · dsimp only
      split
      · exact ⟨[flight.attempt], took_land _ _ _, .refl _⟩
      · rename_i copy _ _ alarm _
        let begun : Flight In Out :=
          { flight with stage := .begun calls (serve copy calls).result }
        obtain ⟨taken, htook, hperm⟩ := ih (waiting ++ [(alarm, begun)]) (calls + 1)
        refine ⟨taken, htook, List.Perm.trans ?_ hperm⟩
        exact ((all_requeue begun queue waiting alarm (calls + 1)).map Flight.attempt).symm

theorem exists_taken_poll (f : Flights In Out) (serve : In → Nat → Execution Out) (m : Moment) :
    ∃ taken, Took (f.poll serve m).landed taken ∧
      f.attempts.Perm (taken ++ (f.poll serve m).flights.attempts) :=
  exists_taken_pollQueue serve m f.ready f.waiting f.calls

/-- Of the attempts not yet called, polling a queue calls some, once each, and leaves the
others. -/
theorem uncalled_pollQueue (serve : In → Nat → Execution Out) (m : Moment)
    (queue : List (Flight In Out)) (waiting : List (Alarm × Flight In Out)) (calls : Nat) :
    (⟨queue, waiting, calls⟩ : Flights In Out).uncalled.Perm
      ((pollQueue serve m queue waiting calls).made.map Call.attempt ++
        (pollQueue serve m queue waiting calls).flights.uncalled) := by
  induction queue generalizing waiting calls with
  | nil => exact .refl _
  | cons flight queue ih =>
    unfold pollQueue
    split
    · rename_i hs
      simp [uncalled, all, Flight.uncalled?, hs]
    · rename_i copy hs
      have hf : flight.uncalled? = some flight.attempt := by simp [Flight.uncalled?, hs]
      dsimp only
      split
      · simp [uncalled, all, hf]
      · rename_i alarm _
        let begun : Flight In Out :=
          { flight with stage := .begun calls (serve copy calls).result }
        have hrest := ih (waiting ++ [(alarm, begun)]) (calls + 1)
        have hq := (all_requeue begun queue waiting alarm (calls + 1)).filterMap Flight.uncalled?
        have hb : begun.uncalled? = .none := rfl
        simp only [uncalled, all, List.cons_append, List.filterMap_cons, hf, hb] at hq hrest ⊢
        exact (hq.symm.trans hrest).cons flight.attempt

theorem uncalled_poll (f : Flights In Out) (serve : In → Nat → Execution Out) (m : Moment) :
    f.uncalled.Perm
      ((f.poll serve m).made.map Call.attempt ++ (f.poll serve m).flights.uncalled) :=
  uncalled_pollQueue serve m f.ready f.waiting f.calls

/-- Of flights that have begun, the first in the queue lands, and none is called.  What is known of
the execution of each is known of the one that lands. -/
theorem poll_begun {f : Flights In Out} {P : Flight In Out → Execution Out → Prop}
    (serve : In → Nat → Execution Out) (m : Moment)
    (h : ∀ flight ∈ f.ready, ∃ e, (∃ call, flight.stage = .begun call e.result) ∧ P flight e) :
    (f.poll serve m).made = [] ∧ (f.poll serve m).flights = { f with ready := f.ready.tail } ∧
      ∀ landed, (f.poll serve m).landed = some landed →
        ∃ flight e, P flight e ∧ landed = land flight m.now e.result := by
  obtain ⟨ready, waiting, calls⟩ := f
  cases ready with
  | nil => exact ⟨rfl, rfl, fun landed hlanded => by cases hlanded⟩
  | cons flight queue =>
    obtain ⟨e, ⟨call, hstage⟩, hP⟩ := h flight List.mem_cons_self
    have hpoll : poll ⟨flight :: queue, waiting, calls⟩ serve m =
        ⟨[], ⟨queue, waiting, calls⟩, some (land flight m.now e.result)⟩ := by
      simp only [poll, pollQueue, hstage]
    rw [hpoll]
    refine ⟨rfl, rfl, fun landed hlanded => ?_⟩
    cases hlanded
    exact ⟨flight, e, hP, rfl⟩

/-- Polling when nothing is in flight does nothing. -/
theorem poll_of_isEmpty {f : Flights In Out} (h : f.isEmpty = true)
    (serve : In → Nat → Execution Out) (m : Moment) : f.poll serve m = ⟨[], f, .none⟩ := by
  obtain ⟨ready, waiting, calls⟩ := f
  simp only [isEmpty, size, beq_iff_eq, Nat.add_eq_zero_iff, List.length_eq_zero_iff] at h
  obtain ⟨rfl, rfl⟩ := h
  rfl

/-- If nothing lands, as much is in flight as before. -/
theorem isEmpty_poll {f : Flights In Out} {serve : In → Nat → Execution Out} {m : Moment}
    (h : (f.poll serve m).landed = .none) : (f.poll serve m).flights.isEmpty = f.isEmpty := by
  have hs := f.size_poll serve m
  rw [h] at hs
  simp only [Option.toList_none, List.length_nil, Nat.add_zero] at hs
  simp only [isEmpty, hs]

/-! ## What waits -/

theorem hasRung_wake (f : Flights In Out) (m : Moment) :
    ∀ w ∈ (f.wake m).waiting, w.1.hasRung m = false := by
  intro w hw
  simpa using (List.mem_filter.mp hw).2

/-- What a call begins to wait for has not come yet. -/
theorem hasRung_of_alarm? {m : Moment} {call : Nat} {wait : Wait} {alarm : Alarm}
    (h : wait.alarm? m call = some alarm) : alarm.hasRung m = false := by
  cases wait with
  | lasting d =>
    simp only [Wait.alarm?] at h
    split at h
    · cases h
    · rename_i hd
      cases h
      simp only [Duration.isZero, beq_iff_eq] at hd
      simp only [Alarm.hasRung, decide_eq_false_iff_not]
      exact Nat.not_le.mpr (Nat.lt_add_of_pos_right (Nat.pos_of_ne_zero hd))
  | opening =>
    simp only [Wait.alarm?] at h
    split at h
    · cases h
    · rename_i hc
      cases h
      simpa [Alarm.hasRung] using hc
  | forever =>
    cases h
    rfl

/-- Polling a queue puts only such flights aside as have to wait. -/
theorem hasRung_pollQueue (serve : In → Nat → Execution Out) (m : Moment)
    (queue : List (Flight In Out)) (waiting : List (Alarm × Flight In Out)) (calls : Nat)
    (h : ∀ w ∈ waiting, w.1.hasRung m = false) :
    ∀ w ∈ (pollQueue serve m queue waiting calls).flights.waiting, w.1.hasRung m = false := by
  induction queue generalizing waiting calls with
  | nil => exact h
  | cons flight queue ih =>
    unfold pollQueue
    split
    · exact h
    · dsimp only
      split
      · exact h
      · rename_i alarm ha
        apply ih _ _
        intro w hw
        rcases List.mem_append.mp hw with hw | hw
        · exact h w hw
        · rw [List.mem_singleton.mp hw]
          exact hasRung_of_alarm? ha

/-- If nothing lands, the queue was polled to its end. -/
theorem ready_pollQueue {serve : In → Nat → Execution Out} {m : Moment}
    {queue : List (Flight In Out)} {waiting : List (Alarm × Flight In Out)} {calls : Nat}
    (h : (pollQueue serve m queue waiting calls).landed = .none) :
    (pollQueue serve m queue waiting calls).flights.ready = [] := by
  induction queue generalizing waiting calls with
  | nil => rfl
  | cons flight queue ih =>
    unfold pollQueue at h ⊢
    split at h
    · cases h
    · dsimp only at h ⊢
      split at h
      · cases h
      · exact ih h

/-- If nothing lands, nothing in flight can go on at the moment. -/
theorem idle_poll {f : Flights In Out} {serve : In → Nat → Execution Out} {m : Moment}
    (hw : ∀ w ∈ f.waiting, w.1.hasRung m = false) (h : (f.poll serve m).landed = .none) :
    (f.poll serve m).flights.Idle m :=
  ⟨ready_pollQueue h, hasRung_pollQueue serve m _ _ _ hw⟩

end Flights

end RequestHedging.Race
