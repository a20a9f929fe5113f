import RequestHedging.Binary64

/-!
# Shortest decimals

The decimal with the fewest digits that is nearer to a given double than to any other,
and of those with as few digits the nearest.  The search goes from coarse decimal grids
to fine ones; on the finest grid the double itself lies, so it always ends with a hit.
-/

namespace RequestHedging.Binary64

inductive Tie
  | up
  | even
deriving DecidableEq

/-- A decimal: `digits * 10 ^ (place - 1074)`. -/
structure Decimal where
  digits : Nat
  place : Nat

namespace Decimal

/-- Twice the grains of a point of the grid of a place, in parts of `10 ^ (1074 - place)`. -/
def twiceGrains (d : Decimal) : Nat := 2 * (d.digits * Nat.pow 10 (d.place - 1074) * one)

/-- Whether a decimal reads as the magnitude with the given bits: it lies between the middles
towards the magnitudes next to it, ends included if the bits are even. -/
def readsAs (d : Decimal) (magnitude : Nat) : Bool :=
  let parts := Nat.pow 10 (1074 - d.place)
  let low := (grains (magnitude - 1) + grains magnitude) * parts
  let high := (grains magnitude + grains (magnitude + 1)) * parts
  if magnitude % 2 = 0 then low ≤ d.twiceGrains && d.twiceGrains ≤ high
  else low < d.twiceGrains && d.twiceGrains < high

/-- The point of the grid of a place at or below the magnitude with the given bits. -/
def below (magnitude place : Nat) : Decimal :=
  ⟨grains magnitude * Nat.pow 10 (1074 - place) / (Nat.pow 10 (place - 1074) * one), place⟩

def succ (d : Decimal) : Decimal := ⟨d.digits + 1, d.place⟩

def nearer (tie : Tie) (magnitude : Nat) (d : Decimal) : Decimal :=
  let twice := 2 * (grains magnitude * Nat.pow 10 (1074 - d.place))
  let middle := (2 * d.digits + 1) * (Nat.pow 10 (d.place - 1074) * one)
  if twice < middle then d
  else if middle < twice then d.succ
  else match tie with
    | .up => d.succ
    | .even => if d.digits % 2 = 0 then d else d.succ

/-- The point of the grid of a place that reads as the magnitude, if there is one. -/
def onGrid (tie : Tie) (magnitude place : Nat) : Option Decimal :=
  let d := below magnitude place
  match d.readsAs magnitude, d.succ.readsAs magnitude with
  | true, true => some (nearer tie magnitude d)
  | true, false => some d
  | false, true => some d.succ
  | false, false => none

/-- The first hit on the grids from a place downwards. -/
def search (tie : Tie) (magnitude : Nat) : Nat → Decimal
  | 0 => below magnitude 0
  | place + 1 => (onGrid tie magnitude (place + 1)).getD (search tie magnitude place)

/-- The shortest decimal that reads as the magnitude with the given bits. -/
def shortest (tie : Tie) (magnitude : Nat) : Decimal :=
  search tie magnitude ((Nat.toDigits 10 (grains magnitude / one)).length + 1074)

end Decimal

end RequestHedging.Binary64
