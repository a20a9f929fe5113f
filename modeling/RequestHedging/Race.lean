import RequestHedging.Decision
import RequestHedging.Race.Flights
import RequestHedging.Report

/-!
# Races

A race executes a request and, on the schedule of its decision, hedges of it, until an
attempt succeeds or all have failed.  It goes round in turns.  A turn waits in one of
four ways: it polls the attempts in flight and issues the next hedge if that is due and
none completed; it sleeps until the next hedge if nothing is in flight; it waits for the
attempts in flight and the next hedge together; or, if no hedge is left, for the attempts
alone.  A completed attempt is classified and reported, and a success ends the race.
When all attempts failed and no hedge is left, the output of the primary attempt is the
result.

`turn` is one turn, `resume` the rest of a turn that was waiting, and `poll` all that
happens at one moment.  What happens is returned as a list of events; nothing that
listeners or logs do with them comes back into the race.  Every turn that is not the last
at its moment makes `measure` smaller, so a poll ends.
-/

namespace RequestHedging

/-- The callbacks of a hedged service, and the inner service. -/
structure Callbacks (In Out : Type) where
  /-- Makes the input of an attempt from the request, which it may change; it may refuse. -/
  copy : In → Attempt → Except Crash (In × Option In)
  /-- Says what the output of an attempt means for the race. -/
  recovery : Out → Attempt → Except Crash Recovery
  /-- Whether unavailable outputs are failures. -/
  handleUnavailable : Bool
  /-- Is told about each hedge before it is issued, with the delay between attempts. -/
  onHedge : Attempt → Duration → Except Crash Unit
  /-- How the inner service executes an input, as the given call of the request. -/
  serve : In → Nat → Race.Execution Out

namespace Race

inductive Event (In Out : Type) where
  /-- The input of an attempt was asked for, of the request as it then was. -/
  | copied (attempt : Attempt) (request : In)
  /-- The callback was told about a hedge. -/
  | announced (attempt : Attempt) (delay : Duration)
  /-- An attempt was put in flight. -/
  | issued (attempt : Attempt)
  /-- The inner service was called. -/
  | called (call : Call In)
  /-- The output of an attempt was classified. -/
  | classified (attempt : Attempt) (output : Out) (now : Instant)
  /-- An attempt was reported. -/
  | reported (report : Report In Out)
  /-- The race was won by an attempt, with so many issued. -/
  | won (attempt : Attempt) (issued : UInt32)
  /-- All attempts failed. -/
  | exhausted (primary : Attempt) (issued : UInt32)

/-- What a turn of a race waits for, after it set its timer, if it has one. -/
inductive Pause
  /-- Nothing is in flight; the timer was set for a hedge. -/
  | asleep (index : UInt32) (alarm : Instant)
  /-- Attempts are in flight, and the timer was set for a hedge. -/
  | contested (index : UInt32) (alarm : Instant)
  /-- No hedge is left; attempts are in flight. -/
  | landing
deriving DecidableEq

inductive Fault
  | callback (crash : Crash)
  /-- All attempts failed, but the output of the primary attempt was not kept. -/
  | primaryMissing
deriving DecidableEq

def Fault.message : Fault → String
  | callback crash => crash.message
  | primaryMissing => "the original attempt completes before the race is exhausted"

end Race

structure Race (In Out : Type) where
  /-- The request, as the callbacks left it. -/
  request : In
  decision : Decision
  started : Instant
  /-- The last hedge that was due, issued or refused. -/
  lastHedge : UInt32
  /-- The number of attempts issued, in a word that wraps round. -/
  issued : UInt32
  /-- The output of the primary attempt, once it failed. -/
  primaryOutput : Option Out
  flights : Race.Flights In Out
  /-- What the current turn waits for; none between turns. -/
  pause : Option Race.Pause

namespace Race

variable {In Out : Type}

inductive Progress (In Out : Type) where
  | pending (race : Race In Out)
  /-- The race ended with an output; attempts may be left in flight. -/
  | finished (output : Out) (race : Race In Out)
  | crashed (fault : Fault) (race : Race In Out)

inductive Turn (In Out : Type) where
  | again (race : Race In Out)
  | settled (progress : Progress In Out)

inductive Start (In Out : Type) where
  | racing (race : Race In Out)
  /-- The input of the primary attempt was refused; the request goes out as it is. -/
  | refused (request : In)
  | crashed (crash : Crash)

def start (cb : Callbacks In Out) (now : Instant) (decision : Decision) (request : In) :
    List (Event In Out) × Start In Out :=
  let primary := Attempt.planned 0 decision.maxHedges
  match cb.copy request primary with
  | .error crash => ([.copied primary request], .crashed crash)
  | .ok (left, none) => ([.copied primary request], .refused left)
  | .ok (left, some copy) =>
    ([.copied primary request, .issued primary],
      .racing {
        request := left
        decision := decision
        started := now
        lastHedge := 0
        issued := 1
        primaryOutput := none
        flights := Flights.none.issue primary now copy
        pause := none })

def complete (cb : Callbacks In Out) (now : Instant) (r : Race In Out) (c : Completed Out) :
    List (Event In Out) × Turn In Out :=
  let classified : Event In Out := .classified c.attempt c.output now
  match cb.recovery c.output c.attempt with
  | .error crash => ([classified], .settled (.crashed (.callback crash) r))
  | .ok recovery =>
    let outcome := recovery.outcome cb.handleUnavailable
    let reported : Event In Out := .reported ⟨r.request, c.output, outcome, c.elapsed, c.attempt⟩
    match outcome with
    | .success =>
      ([classified, reported, .won c.attempt r.issued], .settled (.finished c.output r))
    | .failure =>
      let output := if c.attempt.isPrimary then some c.output else r.primaryOutput
      ([classified, reported], .again { r with primaryOutput := output, pause := none })

/-- Issues a hedge that is due, unless its input is refused. -/
def hedge (cb : Callbacks In Out) (now : Instant) (r : Race In Out) (index : UInt32) :
    List (Event In Out) × Turn In Out :=
  let attempt := Attempt.planned index r.decision.maxHedges
  let copied : Event In Out := .copied attempt r.request
  let r := { r with lastHedge := index, pause := none }
  match cb.copy r.request attempt with
  | .error crash => ([copied], .settled (.crashed (.callback crash) r))
  | .ok (left, none) => ([copied], .again { r with request := left })
  | .ok (left, some copy) =>
    let r := { r with request := left }
    let delay := r.decision.delay.getD Duration.zero
    let announced : Event In Out := .announced attempt delay
    match cb.onHedge attempt delay with
    | .error crash => ([copied, announced], .settled (.crashed (.callback crash) r))
    | .ok () =>
      ([copied, announced, .issued attempt],
        .again { r with issued := r.issued + 1, flights := r.flights.issue attempt now copy })

def exhaust (r : Race In Out) : List (Event In Out) × Turn In Out :=
  ([.exhausted (Attempt.planned 0 r.decision.maxHedges) r.issued],
    .settled (match r.primaryOutput with
      | none => .crashed .primaryMissing r
      | some output => .finished output r))

def suspend (r : Race In Out) (p : Pause) : List (Event In Out) × Turn In Out :=
  ([], .settled (.pending { r with pause := some p }))

/-- Polls the attempts in flight; what follows if none of them completed is given. -/
def await (cb : Callbacks In Out) (m : Moment) (r : Race In Out)
    (idle : Race In Out → List (Event In Out) × Turn In Out) : List (Event In Out) × Turn In Out :=
  let polled := r.flights.poll cb.serve m
  let r := { r with flights := polled.flights }
  let next : List (Event In Out) × Turn In Out := match polled.landed with
    | some (.error crash) => ([], .settled (.crashed (.callback crash) r))
    | some (.ok completed) => r.complete cb m.now completed
    | none => idle r
  (polled.made.map Event.called ++ next.1, next.2)

def waitFor (cb : Callbacks In Out) (m : Moment) (r : Race In Out) :
    Pause → List (Event In Out) × Turn In Out
  | .asleep index alarm =>
    if alarm ≤ m.now then r.hedge cb m.now index else r.suspend (.asleep index alarm)
  | .contested index alarm =>
    r.await cb m fun r =>
      if r.flights.isEmpty || alarm ≤ m.now then r.hedge cb m.now index
      else r.suspend (.contested index alarm)
  | .landing => r.await cb m fun r => if r.flights.isEmpty then r.exhaust else r.suspend .landing

def turn (cb : Callbacks In Out) (m : Moment) (r : Race In Out) :
    List (Event In Out) × Turn In Out :=
  match r.decision.next r.lastHedge with
  | none => r.waitFor cb m .landing
  | some (index, due) =>
    let wait := due.minus (elapsed r.started m.now)
    -- A hedge that is due is issued only if nothing has succeeded in the meantime.
    if wait.isZero then r.await cb m fun r => r.hedge cb m.now index
    else if r.flights.isEmpty then r.waitFor cb m (.asleep index (m.now + wait.nanos))
    else r.waitFor cb m (.contested index (m.now + wait.nanos))

/-- The rest of the turn that a race is in. -/
def resume (cb : Callbacks In Out) (m : Moment) (r : Race In Out) :
    List (Event In Out) × Turn In Out :=
  match r.pause with
  | none => r.turn cb m
  | some p => r.waitFor cb m p

/-- What the turns of a poll use up: two for each hedge not yet due, one for each attempt in
flight. -/
def measure (r : Race In Out) : Nat :=
  2 * (r.decision.maxHedges.toNat - r.lastHedge.toNat) + r.flights.size

/-- A completion leaves the measure as it is: its flight has landed before. -/
theorem measure_eq_of_complete {cb : Callbacks In Out} {now : Instant} {r r' : Race In Out}
    {c : Completed Out} (h : (r.complete cb now c).2 = .again r') : r'.measure = r.measure := by
  unfold complete at h
  split at h
  · cases h
  · dsimp only at h
    split at h
    · cases h
    · cases h
      rfl

/-- A hedge uses up more than it puts in flight. -/
theorem measure_lt_of_hedge {cb : Callbacks In Out} {now : Instant} {r r' : Race In Out}
    {index : UInt32} (hlast : index.toNat = r.lastHedge.toNat + 1)
    (hmax : index.toNat ≤ r.decision.maxHedges.toNat)
    (h : (r.hedge cb now index).2 = .again r') : r'.measure < r.measure := by
  unfold hedge at h
  dsimp only at h
  split at h
  · cases h
  · cases h
    simp only [measure]
    omega
  · split at h
    · cases h
    · cases h
      simp only [measure, Flights.size, Flights.issue, List.length_append, List.length_singleton]
      omega

/-- A race that is over takes no more turns. -/
theorem exhaust_ne_again {r r' : Race In Out} : r.exhaust.2 ≠ .again r' := by
  rintro ⟨⟩

/-- If a race goes on after polling the attempts in flight, one of them completed, or what
follows makes the measure smaller. -/
theorem measure_lt_of_await {cb : Callbacks In Out} {m : Moment} {r r' : Race In Out}
    {idle : Race In Out → List (Event In Out) × Turn In Out}
    (hidle : ∀ f r', (idle { r with flights := f }).2 = .again r' →
      r'.measure < { r with flights := f }.measure)
    (h : (r.await cb m idle).2 = .again r') : r'.measure < r.measure := by
  have hs := r.flights.size_poll cb.serve m
  simp only [await] at h
  split at h
  · cases h
  · rename_i c hc
    rw [hc] at hs
    have := measure_eq_of_complete h
    simp only [measure] at this ⊢
    simp only [Option.toList_some, List.length_singleton] at hs
    omega
  · rename_i hn
    rw [hn] at hs
    have := hidle _ _ h
    simp only [measure] at this ⊢
    simp only [Option.toList_none, List.length_nil] at hs
    omega

/-- A turn that is not the last at its moment makes the measure smaller. -/
theorem measure_lt_of_turn {cb : Callbacks In Out} {m : Moment} {r r' : Race In Out}
    (h : (r.turn cb m).2 = .again r') : r'.measure < r.measure := by
  unfold turn at h
  split at h
  · refine measure_lt_of_await (fun f r' hf => ?_) h
    split at hf
    · exact absurd hf exhaust_ne_again
    · cases hf
  · rename_i index due hnext
    have hi := Decision.next_eq_some hnext
    dsimp only at h
    split at h
    · exact measure_lt_of_await (fun f r' hf => measure_lt_of_hedge hi.1 hi.2 hf) h
    · split at h
      · simp only [waitFor] at h
        split at h
        · exact measure_lt_of_hedge hi.1 hi.2 h
        · cases h
      · refine measure_lt_of_await (fun f r' hf => ?_) h
        split at hf
        · exact measure_lt_of_hedge hi.1 hi.2 hf
        · cases hf

/-- Takes turns until nothing more happens at the moment. -/
def run (cb : Callbacks In Out) (m : Moment) (r : Race In Out) :
    List (Event In Out) × Progress In Out :=
  match _h : r.turn cb m with
  | (events, .settled p) => (events, p)
  | (events, .again r') =>
    let rest := run cb m r'
    (events ++ rest.1, rest.2)
termination_by r.measure
decreasing_by exact measure_lt_of_turn (congrArg Prod.snd _h)

/-- Polls a race: what waited for this moment can go on, the turn that was waiting is resumed,
and then turns are taken. -/
def poll (cb : Callbacks In Out) (m : Moment) (r : Race In Out) :
    List (Event In Out) × Progress In Out :=
  match { r with flights := r.flights.wake m }.resume cb m with
  | (events, .settled p) => (events, p)
  | (events, .again r') =>
    let rest := r'.run cb m
    (events ++ rest.1, rest.2)

end Race

end RequestHedging
