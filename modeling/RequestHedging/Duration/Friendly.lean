import RequestHedging.Duration.Amount

/-!
# Durations in words

`1h 30m`, `1 hour, 30 minutes`, `1.5h`, `100µs`, `01:30:00`: counts with units in
words or short, from larger to smaller units, each unit once.  A sign stands in front,
or `ago` at the end.  A comma after a unit must be followed by a blank and another unit.
-/

namespace RequestHedging.Duration.Friendly

def isBlank (c : Char) : Bool :=
  c = ' ' || c = '\t' || c = '\n' || c = '\r' || c = '\x0c'

def skipBlanks (text : List Char) : List Char := text.dropWhile isBlank

/-- The words for each unit.  The sign for a millionth is the micro sign, U+00B5; the Greek
letter of the same look is none. -/
def labels : List (TimeUnit × List String) :=
  [(.hour, ["hours", "hour", "hrs", "hr", "h"]),
   (.minute, ["minutes", "minute", "mins", "min", "m"]),
   (.second, ["seconds", "second", "secs", "sec", "s"]),
   (.milli, ["milliseconds", "millisecond", "millis", "milli", "msecs", "msec", "ms"]),
   (.micro, ["microseconds", "microsecond", "micros", "micro", "usecs", "usec", "us",
     "\u00b5secs", "\u00b5sec", "\u00b5s"]),
   (.nano, ["nanoseconds", "nanosecond", "nanos", "nano", "nsecs", "nsec", "ns"])]

def afterWord? (word text : List Char) : Option (List Char) :=
  match word, text with
  | [], text => some text
  | w :: word, c :: text => if w = c then afterWord? word text else none
  | _ :: _, [] => none

def readings (text : List Char) : List (TimeUnit × List Char) :=
  labels.flatMap fun (unit, words) =>
    words.filterMap fun word => (afterWord? word.toList text).map fun rest => (unit, rest)

/-- Reads the longest word for a unit that a text starts with. -/
def readUnit (text : List Char) : Option (TimeUnit × List Char) :=
  (readings text).foldl
    (fun best next =>
      match best with
      | none => some next
      | some b => if next.2.length < b.2.length then some next else some b)
    none

/-- Reads a comma, if there is one; a blank must follow it. -/
def readComma (text : List Char) : Option (Bool × List Char) :=
  match text with
  | [','] => none
  | ',' :: c :: rest => if isBlank c then some (true, rest) else none
  | _ => some (false, text)

/-- Reads units of lower ranks than `limit`, the count of the first having been read; also
returns the text after them. -/
def readUnits (limit count : Nat) (text : List Char) : Option (List Part × List Char) :=
  match readFraction text with
  | none => none
  | some (billionths, rest) =>
    match readUnit (skipBlanks rest) with
    | none => none
    | some (unit, rest) =>
      match readComma rest with
      | none => none
      | some (comma, rest) =>
        if _h : unit.rank < limit then
          let part : Part := ⟨unit, count, billionths⟩
          match billionths, readCount (skipBlanks rest) with
          | none, some (next, after) =>
            (readUnits unit.rank next after).map fun (parts, rest) => (part :: parts, rest)
          | _, _ => if comma then none else some ([part], rest)
        else none
termination_by limit

/-- Reads minutes and seconds after the hours of a clock, the first colon having been read. -/
def readClock (hours : Nat) (text : List Char) : Option (List Part × List Char) := do
  let (minutes, rest) ← readCount text
  match rest with
  | ':' :: rest =>
    let (seconds, rest) ← readCount rest
    let (billionths, rest) ← readFraction rest
    some ([⟨.hour, hours, none⟩, ⟨.minute, minutes, none⟩, ⟨.second, seconds, billionths⟩], rest)
  | _ => none

/-- Reads what may follow the units: blanks, and `ago` after a blank if there was no sign.  The
sign of the whole. -/
def readEnd (sign : Option Bool) (text : List Char) : Option Bool :=
  match text with
  | [] => some (sign.getD false)
  | c :: rest =>
    if isBlank c then
      match sign, skipBlanks rest with
      | none, ['a', 'g', 'o'] => some true
      | _, [] => some (sign.getD false)
      | _, _ => none
    else none

def read (text : List Char) : Option Int := do
  let (sign, rest) := readSign text
  let (count, rest) ← readCount rest
  let (parts, rest) ←
    match rest with
    | ':' :: rest => readClock count rest
    | _ => readUnits TimeUnit.aboveAll count rest
  let negative ← readEnd sign rest
  total negative parts

end RequestHedging.Duration.Friendly
