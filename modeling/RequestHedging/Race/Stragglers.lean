import RequestHedging.Race

/-!
# Stragglers

The attempts left in flight when a race was won.  On a spawner they run to completion,
and each is classified and reported as in the race.
-/

namespace RequestHedging

/-- The attempts that a won race left in flight. -/
structure Stragglers (In Out : Type) where
  /-- The request, as the callbacks left it. -/
  request : In
  flights : Race.Flights In Out

namespace Stragglers

open Race

variable {In Out : Type}

inductive Progress (In Out : Type) where
  | pending (left : Stragglers In Out)
  | done
  | crashed (crash : Crash) (left : Stragglers In Out)

def complete (cb : Callbacks In Out) (now : Instant) (s : Stragglers In Out)
    (c : Completed Out) : List (Event In Out) × Option Crash :=
  let classified : Event In Out := .classified c.attempt c.output now
  match cb.recovery c.output c.attempt with
  | .error crash => ([classified], some crash)
  | .ok recovery =>
    let outcome := recovery.outcome cb.handleUnavailable
    ([classified, .reported ⟨s.request, c.output, outcome, c.elapsed, c.attempt⟩], none)

/-- Completes stragglers until no more can at the moment. -/
def run (cb : Callbacks In Out) (m : Moment) (s : Stragglers In Out) :
    List (Event In Out) × Progress In Out :=
  match _h : s.flights.poll cb.serve m with
  | ⟨made, flights, none⟩ =>
    (made.map Event.called,
      if flights.isEmpty then .done else .pending { s with flights := flights })
  | ⟨made, flights, some (.error crash)⟩ =>
    (made.map Event.called, .crashed crash { s with flights := flights })
  | ⟨made, flights, some (.ok completed)⟩ =>
    match s.complete cb m.now completed with
    | (events, some crash) =>
      (made.map Event.called ++ events, .crashed crash { s with flights := flights })
    | (events, none) =>
      let rest := run cb m { s with flights := flights }
      (made.map Event.called ++ events ++ rest.1, rest.2)
termination_by s.flights.size
decreasing_by
  have hs := s.flights.size_poll cb.serve m
  rw [_h] at hs
  simp only [Option.toList_some, List.length_singleton] at hs
  omega

/-- Polls stragglers: what waited for this moment can go on. -/
def poll (cb : Callbacks In Out) (m : Moment) (s : Stragglers In Out) :
    List (Event In Out) × Progress In Out :=
  { s with flights := s.flights.wake m }.run cb m

end Stragglers

end RequestHedging
