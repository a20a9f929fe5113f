import RequestHedging.Duration.Amount

/-!
# ISO 8601 durations

`PT1H30M`, `PT1.5S`, `PT0S`: hours, minutes and seconds after `PT`.  Units that are
zero are not written, and only seconds are written with a fraction; read are letters of
both cases, a sign in front, and a fraction of whatever unit comes last.
-/

namespace RequestHedging.Duration.Iso

def writeUnit (count : Nat) (letter : Char) : List Char :=
  if count = 0 then [] else Text.numeral count ++ [letter]

def write (d : Duration) : List Char :=
  let seconds := d.nanos / 1000000000
  let rest := d.nanos % 60000000000
  'P' :: 'T' ::
    (writeUnit (seconds / 3600) 'H' ++ writeUnit (seconds / 60 % 60) 'M' ++
      if rest = 0 ∧ 0 < d.nanos then [] else Text.decimal 9 rest ++ ['S'])

/-- A duration as hours, minutes and seconds, if its seconds are not too many to be read. -/
def write? (d : Duration) : Option (List Char) :=
  if d.nanos / 1000000000 ≤ mostSeconds then some (write d) else none

def unitOf? (c : Char) : Option TimeUnit :=
  if c = 'H' ∨ c = 'h' then some .hour
  else if c = 'M' ∨ c = 'm' then some .minute
  else if c = 'S' ∨ c = 's' then some .second
  else none

/-- Reads units of lower ranks than `limit` to the end of the text; only the last may have a
fraction. -/
def readUnits (limit : Nat) (text : List Char) : Option (List Part) :=
  if text.isEmpty then some []
  else
    match readCount text with
    | none => none
    | some (count, rest) =>
      match readFraction rest with
      | some (billionths, letter :: rest) =>
        match unitOf? letter with
        | none => none
        | some unit =>
          if _h : unit.rank < limit then
            match billionths with
            | some b => if rest.isEmpty then some [⟨unit, count, some b⟩] else none
            | none => (readUnits unit.rank rest).map (⟨unit, count, none⟩ :: ·)
          else none
      | _ => none
termination_by limit

def read (text : List Char) : Option Int :=
  match readSign text with
  | (sign, p :: t :: units) =>
    if (p = 'P' ∨ p = 'p') ∧ (t = 'T' ∨ t = 't') ∧ units ≠ [] then
      (readUnits TimeUnit.aboveAll units).bind (total (sign.getD false))
    else none
  | _ => none

end RequestHedging.Duration.Iso
