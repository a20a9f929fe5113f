import RequestHedging.Attempt
import RequestHedging.Duration
import RequestHedging.Failure

/-!
# Attempts in flight

The attempts of a race that were issued and have not been consumed.  Those that can
go on stand in a queue: an attempt enters it when it is issued and again when what its
inner execution waits for has come.  Polling takes attempts from the front of the queue
until one completes; an attempt that has to wait leaves the queue.

Time does not pass during a poll, so an attempt that waits at its end waits until a
later one.
-/

namespace RequestHedging.Race

/-- What an inner execution waits for before it ends. -/
inductive Wait
  /-- A time; no time is over at once. -/
  | lasting (d : Duration)
  /-- The opening of the call from outside. -/
  | opening
  /-- Nothing that will come. -/
  | forever
deriving DecidableEq

/-- How an inner execution goes: what it waits for, and then its output, or its crash. -/
structure Execution (Out : Type) where
  wait : Wait
  result : Except Crash Out

/-- The moment of a poll: the time, and the calls of the request opened so far, in the order of
opening. -/
structure Moment where
  now : Instant
  opened : List Nat

inductive Alarm
  | time (at_ : Instant)
  | opening (call : Nat)
  | never
deriving DecidableEq

namespace Alarm

def hasRung (m : Moment) : Alarm → Bool
  | time t => t ≤ m.now
  | opening call => call ∈ m.opened
  | never => false

/-- Where an attempt stands among those that can go on again: by the time it waited for, and
after those by the order of opening. -/
def order (m : Moment) : Alarm → Nat
  | time t => t
  | opening call => m.now + 1 + m.opened.idxOf call
  | never => 0

end Alarm

/-- What a call of the inner service that begins now waits for, if it does not end at once. -/
def Wait.alarm? (m : Moment) (call : Nat) : Wait → Option Alarm
  | lasting d => if d.isZero then none else some (.time (m.now + d.nanos))
  | opening => if call ∈ m.opened then none else some (.opening call)
  | forever => some .never

inductive Stage (In Out : Type) where
  /-- The inner service was not called yet. -/
  | fresh (copy : In)
  /-- The inner service runs, as this call of the request. -/
  | begun (call : Nat) (result : Except Crash Out)

structure Flight (In Out : Type) where
  attempt : Attempt
  issuedAt : Instant
  stage : Stage In Out

structure Completed (Out : Type) where
  attempt : Attempt
  output : Out
  elapsed : Duration

structure Call (In : Type) where
  attempt : Attempt
  /-- How many calls for the request were made before. -/
  number : Nat
  copy : In

structure Flights (In Out : Type) where
  /-- Those that can go on, in the order in which they will be polled. -/
  ready : List (Flight In Out)
  /-- Those that wait, in the order in which they began to. -/
  waiting : List (Alarm × Flight In Out)
  /-- How many calls of the inner service were made. -/
  calls : Nat

structure Polled (In Out : Type) where
  /-- The calls made, in order. -/
  made : List (Call In)
  flights : Flights In Out
  /-- The attempt that completed or crashed, if one did. -/
  landed : Option (Except Crash (Completed Out))

namespace Flights

variable {In Out : Type}

def none : Flights In Out := ⟨[], [], 0⟩

def issue (f : Flights In Out) (attempt : Attempt) (now : Instant) (copy : In) : Flights In Out :=
  { f with ready := f.ready ++ [⟨attempt, now, .fresh copy⟩] }

def size (f : Flights In Out) : Nat := f.ready.length + f.waiting.length

def isEmpty (f : Flights In Out) : Bool := f.size == 0

/-- Puts the attempts whose waiting is over into the queue. -/
def wake (f : Flights In Out) (m : Moment) : Flights In Out :=
  let rung := f.waiting.filter fun w => w.1.hasRung m
  let inOrder := rung.mergeSort fun a b => a.1.order m ≤ b.1.order m
  { f with
    ready := f.ready ++ inOrder.map Prod.snd
    waiting := f.waiting.filter fun w => !w.1.hasRung m }

def callNumbers (f : Flights In Out) : List Nat :=
  (f.ready ++ f.waiting.map Prod.snd).filterMap fun flight =>
    match flight.stage with
    | .fresh _ => .none
    | .begun call _ => some call

def land (flight : Flight In Out) (now : Instant) (result : Except Crash Out) :
    Except Crash (Completed Out) :=
  result.map fun output => ⟨flight.attempt, output, elapsed flight.issuedAt now⟩

/-- Polls the attempts of a queue from the front until one lands. -/
def pollQueue (serve : In → Nat → Execution Out) (m : Moment) :
    List (Flight In Out) → List (Alarm × Flight In Out) → Nat → Polled In Out
  | [], waiting, calls => ⟨[], ⟨[], waiting, calls⟩, .none⟩
  | flight :: queue, waiting, calls =>
    match flight.stage with
    | .begun _ result => ⟨[], ⟨queue, waiting, calls⟩, some (land flight m.now result)⟩
    | .fresh copy =>
      let call : Call In := ⟨flight.attempt, calls, copy⟩
      let execution := serve copy calls
      match execution.wait.alarm? m calls with
      | .none =>
        ⟨[call], ⟨queue, waiting, calls + 1⟩, some (land flight m.now execution.result)⟩
      | some alarm =>
        let begun := { flight with stage := .begun calls execution.result }
        let rest := pollQueue serve m queue (waiting ++ [(alarm, begun)]) (calls + 1)
        { rest with made := call :: rest.made }

def poll (f : Flights In Out) (serve : In → Nat → Execution Out) (m : Moment) : Polled In Out :=
  pollQueue serve m f.ready f.waiting f.calls

/-- Polling loses exactly the attempt that lands. -/
theorem size_pollQueue (serve : In → Nat → Execution Out) (m : Moment)
    (queue : List (Flight In Out)) (waiting : List (Alarm × Flight In Out)) (calls : Nat) :
    (pollQueue serve m queue waiting calls).flights.size +
        (pollQueue serve m queue waiting calls).landed.toList.length =
      queue.length + waiting.length := by
  induction queue generalizing waiting calls with
  | nil => simp [pollQueue, size]
  | cons flight queue ih =>
    unfold pollQueue
    split
    · simp [size]
      omega
    · dsimp only
      split
      · simp [size]
        omega
      · simp only
        rw [ih]
        simp
        omega

theorem size_poll (f : Flights In Out) (serve : In → Nat → Execution Out) (m : Moment) :
    (f.poll serve m).flights.size + (f.poll serve m).landed.toList.length = f.size :=
  size_pollQueue serve m f.ready f.waiting f.calls

end Flights

end RequestHedging.Race
