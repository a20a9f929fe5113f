import RequestHedging.Word

/-!
# Durations and clock readings

A duration is a whole number of nanoseconds up to a greatest duration, the one of
`2 ^ 64 - 1` seconds and 999999999 nanoseconds.  Arithmetic saturates: what would
pass the greatest duration is the greatest duration, what would fall below zero is
zero.  A clock reading counts nanoseconds since the clock was started.
-/

namespace RequestHedging

/-- A span of time, in nanoseconds. -/
structure Duration where
  nanos : Nat
  le_longest : nanos ≤ 18446744073709551615999999999 := by decide
deriving DecidableEq

/-- A reading of the clock: nanoseconds since it was started. -/
abbrev Instant := Nat

namespace Duration

def longestNanos : Nat := 18446744073709551615999999999

/-- The duration of so many nanoseconds, or the greatest one if there is none. -/
def ofNanos (n : Nat) : Duration := ⟨min n longestNanos, Nat.min_le_right _ _⟩

def ofMicros (n : Nat) : Duration := ofNanos (n * 1000)

def ofMillis (n : Nat) : Duration := ofNanos (n * 1000000)

def ofSeconds (n : Nat) : Duration := ofNanos (n * 1000000000)

def zero : Duration := ⟨0, by decide⟩

def longest : Duration := ⟨longestNanos, Nat.le_refl _⟩

@[ext] theorem ext {a b : Duration} (h : a.nanos = b.nanos) : a = b := by
  cases a
  cases b
  cases h
  rfl

@[simp] theorem nanos_ofNanos (n : Nat) : (ofNanos n).nanos = min n longestNanos := rfl

theorem nanos_le (d : Duration) : d.nanos ≤ longestNanos := d.le_longest

@[simp] theorem ofNanos_nanos (d : Duration) : ofNanos d.nanos = d :=
  ext (Nat.min_eq_left d.nanos_le)

instance : LE Duration := ⟨fun a b => a.nanos ≤ b.nanos⟩

instance : LT Duration := ⟨fun a b => a.nanos < b.nanos⟩

instance (a b : Duration) : Decidable (a ≤ b) := inferInstanceAs (Decidable (a.nanos ≤ b.nanos))

instance (a b : Duration) : Decidable (a < b) := inferInstanceAs (Decidable (a.nanos < b.nanos))

instance : Inhabited Duration := ⟨zero⟩

def isZero (d : Duration) : Bool := d.nanos == 0

def max (a b : Duration) : Duration := if a ≤ b then b else a

def min (a b : Duration) : Duration := if a ≤ b then a else b

/-- So many times a duration, saturating. -/
def times (d : Duration) (n : Nat) : Duration := ofNanos (d.nanos * n)

/-- A duration cut into so many parts, each rounded down to a whole nanosecond. -/
def dividedBy (d : Duration) (n : Nat) : Duration :=
  ⟨d.nanos / n, Nat.le_trans (Nat.div_le_self _ _) d.le_longest⟩

/-- What is left of a duration after another has passed; nothing if that one is longer. -/
def minus (a b : Duration) : Duration :=
  ⟨a.nanos - b.nanos, Nat.le_trans (Nat.sub_le _ _) a.le_longest⟩

/-- The nanoseconds of a duration as a saturating word. -/
def wordNanos (d : Duration) : UInt64 := Word.clamp d.nanos

def wordMicros (d : Duration) : UInt64 := Word.clamp (d.nanos / 1000)

theorem nanos_max (a b : Duration) : (a.max b).nanos = Nat.max a.nanos b.nanos := by
  simp only [max, LE.le]
  split
  · rename_i h
    exact (Nat.max_eq_right h).symm
  · rename_i h
    exact (Nat.max_eq_left (Nat.le_of_not_le h)).symm

theorem nanos_min (a b : Duration) : (a.min b).nanos = Nat.min a.nanos b.nanos := by
  simp only [min, LE.le]
  split
  · rename_i h
    exact (Nat.min_eq_left h).symm
  · rename_i h
    exact (Nat.min_eq_right (Nat.le_of_not_le h)).symm

end Duration

def elapsed (start now : Instant) : Duration := Duration.ofNanos (now - start)

end RequestHedging
