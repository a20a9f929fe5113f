/-!
# Double-precision numbers

A double is kept as its 64 bits.  Every finite double is a whole number of
`1 / 2 ^ 1074`, the least positive one, so its magnitude is a natural number of such
grains and arithmetic on magnitudes is exact.  The bits of a magnitude count the
doubles from zero upwards: the next double has the next bits.
-/

namespace RequestHedging

/-- A double-precision number, by its bits. -/
structure Binary64 where
  bits : UInt64
deriving DecidableEq, Inhabited

namespace Binary64

/-- How many grains make one. -/
def one : Nat := Nat.pow 2 1074

/-- How many magnitudes follow each other in steps of one size. -/
def octave : Nat := Nat.pow 2 52

/-- The bits of the first magnitude that is not finite. -/
def infiniteBits : Nat := 2047 * octave

def signBit : Nat := Nat.pow 2 63

/-- The grains of the magnitude with the given bits: in the first octave the grains themselves,
then an octave of steps of one grain and one of steps of twice that size, again and again. -/
def grains (magnitude : Nat) : Nat :=
  if magnitude < octave then magnitude
  else (octave + magnitude % octave) * Nat.pow 2 (magnitude / octave - 1)

/-- The whole number nearest to `num / den`; of two equally near ones the even one. -/
def nearestWhole (num den : Nat) : Nat :=
  let q := num / den
  let r := num % den
  if 2 * r < den then q
  else if den < 2 * r then q + 1
  else if q % 2 = 0 then q else q + 1

/-- The bits of the magnitude nearest to `num / den`; of two equally near ones the one with even
bits.  A ratio beyond the finite magnitudes gives `infiniteBits` or more. -/
def nearest (num den : Nat) : Nat :=
  let shift := (num * one / den).log2 - 52
  shift * octave + nearestWhole (num * one) (den * Nat.pow 2 shift)

/-- Whether a double is below zero or is the negative zero. -/
def isNegative (x : Binary64) : Bool := signBit ≤ x.bits.toNat

def magnitude (x : Binary64) : Nat := x.bits.toNat % signBit

def isNaN (x : Binary64) : Bool := infiniteBits < x.magnitude

def isFinite (x : Binary64) : Bool := x.magnitude < infiniteBits

def ofMagnitude (negative : Bool) (magnitude : Nat) : Binary64 :=
  ⟨UInt64.ofNat (if negative then signBit + magnitude else magnitude)⟩

def nan : Binary64 := ofMagnitude false (infiniteBits + octave / 2)

def infinite (negative : Bool) : Binary64 := ofMagnitude negative infiniteBits

/-- Whether two doubles are equal as numbers: the two zeros are, and what is no number equals
nothing. -/
def sameNumber (x y : Binary64) : Bool :=
  !x.isNaN && !y.isNaN &&
    (x.magnitude == y.magnitude && (x.isNegative == y.isNegative || x.magnitude == 0))

/-- Whether a double lies within zero and one. -/
def isFraction (x : Binary64) : Bool :=
  x.magnitude == 0 || (!x.isNegative && !x.isNaN && grains x.magnitude ≤ one)

/-- The grains of the fraction nearest to a double; what is no number counts as one. -/
def fraction (x : Binary64) : Nat :=
  if x.isNaN then one
  else if x.isNegative then 0
  else min (grains x.magnitude) one

def ofCount (n : Nat) : Nat := nearest n 1

/-- The rank, from 1, of the sample below which a fraction of so many samples lies: the product
of the two doubles, rounded to a double and then up to a whole number. -/
def rank (fraction count : Nat) : Nat :=
  let product := grains (nearest (fraction * grains (ofCount count)) (one * one))
  max 1 ((product + (one - 1)) / one)

/-- The double nearest to `digits * 10 ^ exponent`, or none if that is beyond the finite
doubles. -/
def ofDecimal? (negative : Bool) (digits : Nat) (exponent : Int) : Option Binary64 :=
  let length : Int := (Nat.toDigits 10 digits).length
  if digits = 0 ∨ length + exponent < -400 then some (ofMagnitude negative 0)
  else if 400 < length + exponent then none
  else
    let bits := nearest (digits * Nat.pow 10 exponent.toNat) (Nat.pow 10 (-exponent).toNat)
    if bits < infiniteBits then some (ofMagnitude negative bits) else none

end Binary64

end RequestHedging
