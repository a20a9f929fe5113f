import RequestHedging.Duration.Friendly
import RequestHedging.Duration.Iso

/-!
# Written durations

A written duration is read as ISO 8601 if it starts with a `P` after its sign, and in
words if not.  Durations below zero are told apart from texts that are no durations.
-/

namespace RequestHedging.Duration

inductive ReadFault
  | malformed
  | negative
deriving DecidableEq

def readSigned (text : List Char) : Option Int :=
  match (readSign text).2 with
  | c :: _ => if c = 'P' ∨ c = 'p' then Iso.read text else Friendly.read text
  | [] => none

def read (text : List Char) : Except ReadFault Duration :=
  match readSigned text with
  | none => .error .malformed
  | some nanos => if nanos < 0 then .error .negative else .ok (ofNanos nanos.toNat)

end RequestHedging.Duration
