import RequestHedging.Duration
import RequestHedging.Text.Numeral

/-!
# Amounts of time units

A written duration is an amount: whole numbers of units, from larger units to smaller
ones, the last with a decimal fraction if need be, and a sign.  The readers of numbers
and fractions that all written forms share are here too.
-/

namespace RequestHedging.Duration

inductive TimeUnit
  | hour
  | minute
  | second
  | milli
  | micro
  | nano
deriving DecidableEq

namespace TimeUnit

def nanos : TimeUnit → Nat
  | hour => 3600000000000
  | minute => 60000000000
  | second => 1000000000
  | milli => 1000000
  | micro => 1000
  | nano => 1

/-- The place of a unit among all, larger units having larger ranks. -/
def rank : TimeUnit → Nat
  | hour => 5
  | minute => 4
  | second => 3
  | milli => 2
  | micro => 1
  | nano => 0

def aboveAll : Nat := 6

/-- The nanoseconds of so many billionths of a unit, rounded down; a nanosecond has no
fractions. -/
def fractionNanos (u : TimeUnit) (billionths : Nat) : Option Nat :=
  match u with
  | nano => none
  | _ => some (u.nanos * billionths / 1000000000)

end TimeUnit

/-- So many of a unit, with billionths of it if a fraction was written. -/
structure Part where
  unit : TimeUnit
  count : Nat
  billionths : Option Nat

def mostSeconds : Nat := Nat.pow 2 63 - 1

/-- The nanoseconds of a part, unless it is a fraction of a nanosecond or its count is beyond
`limit`. -/
def Part.nanos (limit : Nat) (p : Part) : Option Nat :=
  if limit < p.count then none
  else
    match p.billionths with
    | none => some (p.count * p.unit.nanos)
    | some b => (p.unit.fractionNanos b).map (p.count * p.unit.nanos + ·)

/-- The signed nanoseconds of parts.  Below zero there is room for one second more. -/
def total (negative : Bool) (parts : List Part) : Option Int := do
  let limit := if negative then mostSeconds + 1 else mostSeconds
  let nanos := (← parts.mapM (Part.nanos limit)).foldr (· + ·) 0
  if nanos ≤ limit * 1000000000 + 999999999 then
    some (if negative then -(nanos : Int) else nanos)
  else none

/-- The most digits of a whole number in a written duration, zeros in front included. -/
def mostDigits : Nat := 21

def readCount (text : List Char) : Option (Nat × List Char) :=
  let (digits, rest) := Text.spanDigits text
  if digits.isEmpty || mostDigits < digits.length then none
  else some (Text.numeralValue digits, rest)

/-- Reads the fraction a text starts with, in billionths.  A point or comma must be followed by
one to nine digits. -/
def readFraction (text : List Char) : Option (Option Nat × List Char) :=
  match text with
  | c :: after =>
    if c = '.' ∨ c = ',' then
      let (digits, rest) := Text.spanDigits after
      if digits.isEmpty || 9 < digits.length then none
      else some (some (Text.fractionValue 9 digits), rest)
    else some (none, text)
  | [] => some (none, [])

def readSign (text : List Char) : Option Bool × List Char :=
  match text with
  | '+' :: rest => (some false, rest)
  | '-' :: rest => (some true, rest)
  | _ => (none, text)

end RequestHedging.Duration
