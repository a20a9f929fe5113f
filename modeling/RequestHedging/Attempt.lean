import RequestHedging.Text.Described
import RequestHedging.Text.Numeral

/-!
# Attempts

A hedged request is executed several times.  Attempt 0 is the request itself, the
attempts after it are hedges, numbered in the order of their schedule.
-/

namespace RequestHedging

/-- One execution of a hedged request. -/
structure Attempt where
  /-- 0 for the request itself, `i` for hedge `i`. -/
  index : UInt32
  /-- Whether no further attempt is planned after this one. -/
  isLast : Bool
deriving DecidableEq

namespace Attempt

/-- The only attempt of a request that is not hedged. -/
def only : Attempt := ⟨0, true⟩

instance : Inhabited Attempt := ⟨only⟩

/-- Attempt `index` of a request that may get `maxHedges` hedges: the last of the plan is
attempt `maxHedges`. -/
def planned (index maxHedges : UInt32) : Attempt := ⟨index, maxHedges ≤ index⟩

/-- Whether this is the request itself and no hedge. -/
def isPrimary (a : Attempt) : Bool := a.index = 0

def isHedge (a : Attempt) : Bool := 0 < a.index

def numeral (a : Attempt) : List Char := Text.numeral a.index.toNat

def text (a : Attempt) : String := String.ofList a.numeral

/-- The index with blanks after it up to a width. -/
def textLeft (a : Attempt) (width : Nat) : String :=
  String.ofList (a.numeral ++ List.replicate (width - a.numeral.length) ' ')

def textPadded (a : Attempt) (width : Nat) : String :=
  String.ofList (Text.paddedNumeral width a.index.toNat)

def textSigned (a : Attempt) : String := "+" ++ a.text

def describe (a : Attempt) : String :=
  Text.described "Attempt"
    [("index", a.text), ("is_last", Text.describedBool a.isLast)] .all

end Attempt

end RequestHedging
